import IntScript.Proofs.Grammar.Chain

namespace IntScript.Grammar

def State.enter (s : State) : State := { s.advance with nesting := s.nesting + 1 }

def State.leave (s : State) : State := { s with nesting := s.nesting - 1 }

namespace State

variable {s : State} {ts us : List Token} {e : Expr} {t : Token}

theorem rest_enter (h : s.cursor.rest = t :: us) : s.enter.cursor.rest = us := by
  change s.cursor.advance.rest = us
  rw [Cursor.rest_advance, h, List.tail_cons]

theorem position_enter (h : s.cursor.rest = t :: us) : s.enter.cursor.position = s.cursor.position + 1 :=
  Cursor.position_advance (by simp [h])

theorem nesting_enter {m : Nat} (h : s.nesting + (m + 1) = maxNesting) : s.enter.nesting + m = maxNesting := by
  change s.nesting + 1 + m = maxNesting
  omega

theorem took_group (s : State) (ts : List Token) (l r : Token) (e : Expr) :
    (s.enter.took ts e).leave.advance = s.took (l :: (ts ++ [r])) e := by
  have hc : (s.cursor.advance.skip ts.length).advance = s.cursor.skip (l :: (ts ++ [r])).length := by
    rw [Cursor.advance_skip, ← Cursor.skip_succ, List.length_cons, List.length_append]
    rfl
  simp only [enter, took, leave, advance_eq, hc, Nat.add_sub_cancel]

end State

variable {inner : Rule} {n : Nat} {s : State} {ts us : List Token} {e : Expr}

theorem primary_of_peek (inner : Rule) (s : State) : primary inner s =
    match s.cursor.rest.head? with
    | some ⟨.intLiteral, text⟩ => some (s.advance.build (.literal text))
    | some ⟨.identifier, name⟩ => some (s.advance.build (.identifier name))
    | some ⟨.leftParen, _⟩ =>
        if s.nesting = maxNesting then some (s.fail .nestingTooDeep) else group inner s.advance
    | _ => some (.absent s) := by
  rw [primary]
  exact s.cursor.peek?_eq_head? ▸ rfl

theorem primary_literal {text : String} (hs : s.cursor.rest = ⟨.intLiteral, text⟩ :: us) :
    primary inner s = some (s.took [⟨.intLiteral, text⟩] (.literal text)).reply := by
  rw [primary_of_peek, hs, State.reply, State.took, Arena.graft, Arena.last_push]
  rfl

theorem primary_identifier {name : String} (hs : s.cursor.rest = ⟨.identifier, name⟩ :: us) :
    primary inner s = some (s.took [⟨.identifier, name⟩] (.identifier name)).reply := by
  rw [primary_of_peek, hs, State.reply, State.took, Arena.graft, Arena.last_push]
  rfl

theorem primary_absent (h : Stops startsOperand s.cursor.rest.head?) :
    primary inner s = some (.absent s) := by
  rw [primary_of_peek]
  split
  case h_4 => rfl
  all_goals
    next hp =>
      rw [hp, stops_some] at h
      simp [startsOperand] at h

theorem primary_tooDeep {l : String} (hn : s.nesting = maxNesting)
    (hs : s.cursor.rest = ⟨.leftParen, l⟩ :: us) :
    primary inner s = some (.error ⟨.nestingTooDeep, s.cursor.position, s.cursor.rest.head?⟩ s) := by
  rw [primary_of_peek, hs]
  dsimp only [List.head?_cons]
  rw [if_pos hn, State.fail_eq, hs, List.head?_cons]

theorem primary_group {l : String} (hn : s.nesting ≠ maxNesting)
    (hs : s.cursor.rest = ⟨.leftParen, l⟩ :: us) :
    primary inner s =
      match inner s.enter with
      | some (.node id t) =>
          if t.leave.peekKind? = some .rightParen then some (.node id t.leave.advance)
          else some (t.leave.fail .missingClosingParen)
      | some (.absent t) => some (t.leave.fail .emptyParens)
      | some (.error e t) => some (.error e t.leave)
      | none => none := by
  rw [primary_of_peek, hs]
  dsimp only [List.head?_cons]
  rw [if_neg hn]
  rfl

theorem startsOperand_cases {kind : Token.Kind} (h : startsOperand kind = true) :
    kind = .intLiteral ∨ kind = .identifier ∨ kind = .leftParen := by
  cases kind <;> simp [startsOperand] at h ⊢

theorem peekKind?_leave {t : State} : t.leave.peekKind? = t.cursor.rest.head?.map (·.kind) :=
  State.peekKind?_eq t.leave

theorem fail_leave (t : State) (reason : ParseError.Reason) :
    t.leave.fail reason = .error ⟨reason, t.cursor.position, t.cursor.rest.head?⟩ t.leave :=
  State.fail_eq t.leave reason

theorem primary_close {l r : String} (hn : s.nesting ≠ maxNesting)
    (hs : s.cursor.rest = ⟨.leftParen, l⟩ :: (ts ++ ⟨.rightParen, r⟩ :: us))
    (hi : inner s.enter = some (s.enter.took ts e).reply) :
    primary inner s = some (s.took (⟨.leftParen, l⟩ :: (ts ++ [⟨.rightParen, r⟩])) e).reply := by
  have hr : (s.enter.took ts e).leave.peekKind? = some .rightParen := by
    rw [peekKind?_leave, State.rest_took (State.rest_enter hs)]
    rfl
  rw [primary_group hn hs, hi]
  dsimp only [State.reply]
  rw [if_pos hr, State.took_group]
  rfl

theorem primary_unclosed {l : String} (hn : s.nesting ≠ maxNesting)
    (hs : s.cursor.rest = ⟨.leftParen, l⟩ :: (ts ++ us))
    (hi : inner s.enter = some (s.enter.took ts e).reply) (hc : Stops (· == .rightParen) us.head?) :
    primary inner s =
      some (.error ⟨.missingClosingParen, s.cursor.position + (ts.length + 1), us.head?⟩
        (s.enter.took ts e).leave) := by
  have hrest : (s.enter.took ts e).cursor.rest = us := State.rest_took (State.rest_enter hs)
  have hpos : (s.enter.took ts e).cursor.position = s.cursor.position + (ts.length + 1) := by
    rw [State.position_took (State.rest_enter hs), State.position_enter hs, Nat.add_assoc, Nat.add_comm 1]
  have hr : (s.enter.took ts e).leave.peekKind? ≠ some .rightParen := by
    rw [peekKind?_leave, hrest]
    intro hk
    obtain ⟨t, ht, hk⟩ := Option.map_eq_some_iff.1 hk
    have hf := hc t ht
    simp [hk] at hf
  rw [primary_group hn hs, hi]
  dsimp only [State.reply]
  rw [if_neg hr, fail_leave, hpos, hrest]

theorem primary_empty {l : String} (hn : s.nesting ≠ maxNesting)
    (hs : s.cursor.rest = ⟨.leftParen, l⟩ :: us) (hi : inner s.enter = some (.absent s.enter)) :
    primary inner s = some (.error ⟨.emptyParens, s.cursor.position + 1, us.head?⟩ s.enter.leave) := by
  rw [primary_group hn hs, hi]
  dsimp only
  rw [fail_leave, State.position_enter hs, State.rest_enter hs]

theorem primary_inside {l : String} {f : ParseError} {t : State} (hn : s.nesting ≠ maxNesting)
    (hs : s.cursor.rest = ⟨.leftParen, l⟩ :: us) (hi : inner s.enter = some (.error f t)) :
    primary inner s = some (.error f t.leave) := by
  rw [primary_group hn hs, hi]

section

variable (hi : ∀ m, n = m + 1 → Reads inner m (Nested n) (NestedFault n) isOperator)
include hi

theorem primary_node (hn : s.nesting + n = maxNesting) (hs : s.cursor.rest = ts ++ us)
    (h : Primary (Nested n) ts e) : primary inner s = some (s.took ts e).reply := by
  cases h with
  | literal text => exact primary_literal hs
  | identifier name => exact primary_identifier hs
  | @group ts _ l r h =>
      cases n with
      | zero => exact h.elim
      | succ m =>
          have hs : s.cursor.rest = ⟨.leftParen, l⟩ :: (ts ++ ⟨.rightParen, r⟩ :: us) := by simp [hs]
          refine primary_close (by omega) hs ?_
          exact (hi m rfl).node (State.nesting_enter hn) (State.rest_enter hs) h (stops_some.2 rfl)

theorem primary_error {reason : ParseError.Reason} (hn : s.nesting + n = maxNesting)
    (hs : s.cursor.rest = ts ++ us) (h : PrimaryFault n (Nested n) (NestedFault n) ts us.head? reason) :
    ∃ t, primary inner s = some (.error ⟨reason, s.cursor.position + ts.length, us.head?⟩ t) := by
  generalize hnext : us.head? = next at h
  cases h with
  | tooDeep l hz =>
      obtain ⟨vs, rfl⟩ : ∃ vs, us = ⟨.leftParen, l⟩ :: vs := by
        cases us with
        | nil => simp at hnext
        | cons t vs => exact ⟨vs, by rw [Option.some.inj hnext]⟩
      exact ⟨s, by rw [primary_tooDeep (by omega) hs, hs]; rfl⟩
  | @empty _ l hz hstop =>
      cases n with
      | zero => exact absurd rfl hz
      | succ m =>
          have ha := (hi m rfl).absent (s := s.enter) (by rw [State.rest_enter hs]; exact hnext ▸ hstop)
          exact ⟨_, by rw [primary_empty (by omega) hs ha, ← hnext]; rfl⟩
  | @inside ts _ _ l hz hfault =>
      cases n with
      | zero => exact absurd rfl hz
      | succ m =>
          obtain ⟨t, ht⟩ := (hi m rfl).error (State.nesting_enter hn) (State.rest_enter hs) (hnext ▸ hfault)
          refine ⟨t.leave, ?_⟩
          rw [primary_inside (by omega) hs ht, State.position_enter hs, hnext, List.length_cons,
            Nat.add_assoc, Nat.add_comm 1]
  | @unclosed ts e _ l hz h ho hc =>
      cases n with
      | zero => exact absurd rfl hz
      | succ m =>
          have hr := (hi m rfl).node (State.nesting_enter hn) (State.rest_enter hs) h (hnext ▸ ho)
          exact ⟨_, by rw [primary_unclosed (by omega) hs hr (hnext ▸ hc), hnext]; rfl⟩

theorem primary_outcome (s : State) (hn : s.nesting + n = maxNesting) :
    Outcome (Primary (Nested n)) (PrimaryFault n (Nested n) (NestedFault n)) (fun _ => false) s
      (primary inner s) := by
  have hend (next : Option Token) : Stops (fun _ => false) next := fun _ _ => rfl
  by_cases hstop : Stops startsOperand s.cursor.rest.head?
  · rw [primary_absent hstop]
    exact .absent hstop
  obtain ⟨⟨kind, text⟩, us, hs, hk⟩ := exists_cons_of_not_stops hstop
  rcases startsOperand_cases hk with rfl | rfl | rfl
  · rw [primary_literal hs]
    exact .node hs (.literal text) (hend _)
  · rw [primary_identifier hs]
    exact .node hs (.identifier text) (hend _)
  cases n with
  | zero =>
      rw [primary_tooDeep (by omega) hs, hs]
      exact .error (show s.cursor.rest = [] ++ _ from hs) (.tooDeep text rfl)
  | succ m =>
      have hne : s.nesting ≠ maxNesting := by omega
      have ho := (hi m rfl).outcome s.enter (State.nesting_enter hn)
      generalize hreply : inner s.enter = reply at ho
      cases ho with
      | @node ts vs e hrest h hu =>
          obtain rfl := (State.rest_enter hs).symm.trans hrest
          by_cases hc : Stops (· == .rightParen) vs.head?
          · rw [primary_unclosed hne hs hreply hc]
            exact .error (show s.cursor.rest = (_ :: ts) ++ _ from hs) (.unclosed text (Nat.succ_ne_zero m) h hu hc)
          · obtain ⟨⟨kind, r⟩, ws, rfl, hk⟩ := exists_cons_of_not_stops hc
            obtain rfl := beq_iff_eq.1 hk
            rw [primary_close hne hs hreply]
            exact .node (show s.cursor.rest = _ ++ ws by simp [hs]) (.group text r h) (hend _)
      | absent hu =>
          rw [primary_empty hne hs hreply]
          rw [State.rest_enter hs] at hu
          exact .error (show s.cursor.rest = [_] ++ _ from hs) (.empty text (Nat.succ_ne_zero m) hu)
      | @error ts vs reason t hrest hfault =>
          obtain rfl := (State.rest_enter hs).symm.trans hrest
          have hl : s.enter.cursor.position + ts.length =
              s.cursor.position + (⟨.leftParen, text⟩ :: ts : List Token).length := by
            rw [State.position_enter hs, List.length_cons, Nat.add_assoc, Nat.add_comm 1]
          rw [primary_inside hne hs hreply, hl]
          exact .error (show s.cursor.rest = (_ :: ts) ++ _ from hs) (.inside text (Nat.succ_ne_zero m) hfault)

theorem primary_reads : Reads (primary inner) n (Primary (Nested n))
    (PrimaryFault n (Nested n) (NestedFault n)) (fun _ => false) where
  outcome s hn := primary_outcome hi s hn
  node hn hs h _ := primary_node hi hn hs h
  absent hu := primary_absent hu
  error hn hs h := primary_error hi hn hs h

end

theorem chainFurther_chainFurther :
    chainFurther Operator.additive? (chainFurther Operator.multiplicative? fun _ => false) = isOperator := by
  funext kind
  simp [chainFurther, isOperator]

theorem additive_reads_of_inner {depth : Nat}
    (hi : ∀ m, n = m + 1 → Reads (additive depth) m (Nested n) (NestedFault n) isOperator) :
    Reads (additive (depth + 1)) n (Additive n) (AdditiveFault n) isOperator := by
  have hm : Reads (multiplicative (additive depth)) n (Multiplicative (Nested n))
      (MultiplicativeFault n (Nested n) (NestedFault n)) (chainFurther Operator.multiplicative? fun _ => false) :=
    chain_reads (primary_reads hi) fun _ _ _ => rfl
  have ha : Reads (additive (depth + 1)) n (Additive n) (AdditiveFault n)
      (chainFurther Operator.additive? (chainFurther Operator.multiplicative? fun _ => false)) :=
    chain_reads hm fun kind op hop => by cases kind <;> simp [Operator.additive?] at hop <;> rfl
  rw [chainFurther_chainFurther] at ha
  exact ha

/-- The rule for expressions reads them, where its bound admits all parentheses that may still be
opened. -/
theorem additive_reads {depth : Nat} (h : n ≤ depth) :
    Reads (additive (depth + 1)) n (Additive n) (AdditiveFault n) isOperator := by
  induction depth generalizing n with
  | zero => exact additive_reads_of_inner fun m hm => by omega
  | succ depth ih =>
      refine additive_reads_of_inner fun m hm => ?_
      obtain rfl := hm
      exact ih (Nat.le_of_succ_le_succ h)

end IntScript.Grammar
