import IntScript.Proofs.Grammar.Reading

namespace IntScript.Grammar

def chainFurther (operator? : Token.Kind → Option Operator) (further : Token.Kind → Bool) :
    Token.Kind → Bool := fun kind => further kind || (operator? kind).isSome

variable {operator? : Token.Kind → Option Operator} {rule : Rule} {n : Nat} {phrase : Phrase}
  {fault : Fault} {further : Token.Kind → Bool} {s : State} {ts us : List Token} {e : Expr}

theorem chainFrom_stop (fuel left : Nat)
    (h : Stops (fun kind => (operator? kind).isSome) s.cursor.rest.head?) :
    chainFrom operator? rule fuel left s = some (.node left s) := by
  cases fuel with
  | zero => rfl
  | succ fuel =>
      have hk : s.peekKind?.bind operator? = none := by
        rw [State.peekKind?_eq]
        cases hr : s.cursor.rest.head? with
        | none => rfl
        | some t => simpa [hr, Stops] using h
      rw [chainFrom, hk]

theorem chainFrom_operator {t : Token} {op : Operator} (fuel left : Nat)
    (hs : s.cursor.rest = t :: us) (hop : operator? t.kind = some op) :
    chainFrom operator? rule (fuel + 1) left s =
      match rule s.advance with
      | some (.node right s) =>
          chainFrom operator? rule fuel s.arena.size
            { s with arena := s.arena.push (.binary op left right) }
      | some (.absent s) => some (s.fail (.missingRightOperand op))
      | reply => reply := by
  have hk : s.peekKind?.bind operator? = some op := by
    rw [State.peekKind?_eq, hs]
    exact hop
  rw [chainFrom]
  exact hk ▸ rfl

theorem chainFrom_right {t : Token} {op : Operator} {right : Expr} (fuel : Nat) {vs : List Token}
    (hs : s.cursor.rest = ts ++ t :: (us ++ vs)) (hop : operator? t.kind = some op)
    (hr : rule (s.took ts e).advance = some ((s.took ts e).advance.took us right).reply) :
    chainFrom operator? rule (fuel + 1) (s.took ts e).arena.last (s.took ts e) =
      chainFrom operator? rule fuel (s.took (ts ++ t :: us) (.binary op e right)).arena.last
        (s.took (ts ++ t :: us) (.binary op e right)) := by
  rw [chainFrom_operator fuel _ (State.rest_took hs) hop, hr, ← State.took_binary s ts us t op e right,
    Arena.last_push]
  rfl

variable (hr : Reads rule n phrase fault further)
  (hf : ∀ kind op, operator? kind = some op → further kind = false)
include hr

omit hr in
theorem chainFurther_left {next : Option Token} (h : Stops (chainFurther operator? further) next) :
    Stops further next := h.of_imp fun kind hk => by simp [chainFurther, hk]

omit hr in
theorem chainFurther_right {next : Option Token} (h : Stops (chainFurther operator? further) next) :
    Stops (fun kind => (operator? kind).isSome) next := h.of_imp fun kind hk => by simp [chainFurther, hk]

include hf in
/-- A chain is read from the left, operand by operand, until its end is reached. -/
theorem chain_reaches (hn : s.nesting + n = maxNesting) (h : Chain operator? phrase ts e)
    (hs : s.cursor.rest = ts ++ us) (hu : Stops further us.head?) :
    ∃ fuel, us.length ≤ fuel ∧ chain operator? rule s =
      chainFrom operator? rule fuel (s.took ts e).arena.last (s.took ts e) := by
  induction h generalizing us with
  | @one ts e h =>
      refine ⟨(s.took ts e).cursor.remaining, ?_, ?_⟩
      · exact Nat.le_of_eq (by rw [Cursor.remaining_eq_length, State.rest_took hs])
      · rw [chain, hr.node hn hs h hu]
        rfl
  | @more ts vs left right kind op text hl hop hright ih =>
      rw [List.append_assoc] at hs
      obtain ⟨fuel, hfuel, hc⟩ := ih hs (stops_some.2 (hf kind op hop))
      obtain ⟨fuel, rfl⟩ : ∃ k, fuel = k + 1 := by
        cases fuel with
        | zero => simp at hfuel
        | succ k => exact ⟨k, rfl⟩
      refine ⟨fuel, ?_, ?_⟩
      · simp only [List.cons_append, List.length_cons, List.length_append] at hfuel
        omega
      · rw [hc]
        exact chainFrom_right fuel hs hop (hr.node hn (State.rest_took_advance hs) hright hu)

theorem chainFrom_outcome (fuel : Nat) (hn : s.nesting + n = maxNesting)
    (h : Chain operator? phrase ts e) (hs : s.cursor.rest = ts ++ us) (hu : Stops further us.head?)
    (hfuel : us.length ≤ fuel) :
    Outcome (Chain operator? phrase) (ChainFault operator? phrase fault) (chainFurther operator? further)
      s (chainFrom operator? rule fuel (s.took ts e).arena.last (s.took ts e)) := by
  induction fuel generalizing ts us e with
  | zero =>
      obtain rfl := List.length_eq_zero_iff.1 (Nat.le_zero.1 hfuel)
      exact .node hs h (stops_nil _)
  | succ fuel ih =>
      by_cases hstop : Stops (fun kind => (operator? kind).isSome) us.head?
      · rw [chainFrom_stop _ _ (by rwa [State.rest_took hs])]
        refine .node hs h fun t ht => ?_
        rw [chainFurther, hu t ht, Bool.false_or]
        exact hstop t ht
      · obtain ⟨⟨kind, text⟩, us, rfl, hop⟩ := exists_cons_of_not_stops hstop
        obtain ⟨op, hop⟩ := Option.isSome_iff_exists.1 hop
        have hrest := State.rest_took_advance (e := e) hs
        have hpos := State.position_took_advance (e := e) hs
        have ho := hr.outcome (s.took ts e).advance hn
        generalize hreply : rule (s.took ts e).advance = reply at ho
        cases ho with
        | @node vs us right hvs hright hnext =>
            obtain rfl := hrest.symm.trans hvs
            rw [chainFrom_right fuel hs hop hreply]
            refine ih (.more text h hop hright) (by rw [hs, List.append_assoc]; rfl) hnext ?_
            simp only [List.length_cons, List.length_append] at hfuel
            omega
        | absent hnext =>
            rw [hrest] at hnext
            rw [chainFrom_operator fuel _ (State.rest_took hs) hop, hreply]
            change Outcome _ _ _ _ (some ((s.took ts e).advance.fail (.missingRightOperand op)))
            rw [State.fail_took_advance _ hs]
            exact .error (by simp [hs]) (.missing text h hop hnext)
        | @error vs ws reason t hvs hfault =>
            rw [chainFrom_operator fuel _ (State.rest_took hs) hop, hreply]
            obtain rfl := hrest.symm.trans hvs
            have hl : (s.took ts e).advance.cursor.position + vs.length =
                s.cursor.position + (ts ++ ⟨kind, text⟩ :: vs).length := by
              rw [hpos]
              simp only [List.length_append, List.length_cons]
              omega
            rw [hl]
            exact .error (by simp [hs]) (.right text h hop hfault)

theorem chain_outcome (s : State) (hn : s.nesting + n = maxNesting) :
    Outcome (Chain operator? phrase) (ChainFault operator? phrase fault) (chainFurther operator? further)
      s (chain operator? rule s) := by
  have ho := hr.outcome s hn
  rw [chain]
  generalize rule s = reply at ho
  cases ho with
  | @node ts us e hs h hu =>
      refine chainFrom_outcome hr _ hn (.one h) hs hu ?_
      exact Nat.le_of_eq (by rw [Cursor.remaining_eq_length, State.rest_took hs])
  | absent hu => exact .absent hu
  | error hs h => exact .error hs (.first h)

include hf

theorem chain_node (hn : s.nesting + n = maxNesting) (hs : s.cursor.rest = ts ++ us)
    (h : Chain operator? phrase ts e) (hu : Stops (chainFurther operator? further) us.head?) :
    chain operator? rule s = some (s.took ts e).reply := by
  obtain ⟨fuel, -, hc⟩ := chain_reaches hr hf hn h hs (chainFurther_left hu)
  rw [hc, chainFrom_stop _ _ (by rw [State.rest_took hs]; exact chainFurther_right hu)]
  rfl

theorem chain_operator {kind : Token.Kind} {text : String} {op : Operator}
    (hn : s.nesting + n = maxNesting) (hs : s.cursor.rest = ts ++ ⟨kind, text⟩ :: us)
    (h : Chain operator? phrase ts e) (hop : operator? kind = some op) :
    ∃ fuel, chain operator? rule s =
      match rule (s.took ts e).advance with
      | some (.node right t) =>
          chainFrom operator? rule fuel t.arena.size
            { t with arena := t.arena.push (.binary op (s.took ts e).arena.last right) }
      | some (.absent t) => some (t.fail (.missingRightOperand op))
      | reply => reply := by
  obtain ⟨fuel, hfuel, hc⟩ := chain_reaches hr hf hn h hs (stops_some.2 (hf kind op hop))
  cases fuel with
  | zero => simp at hfuel
  | succ fuel => exact ⟨fuel, by rw [hc, chainFrom_operator fuel _ (State.rest_took hs) hop]⟩

theorem chain_error {reason : ParseError.Reason} (hn : s.nesting + n = maxNesting)
    (hs : s.cursor.rest = ts ++ us) (h : ChainFault operator? phrase fault ts us.head? reason) :
    ∃ t, chain operator? rule s = some (.error ⟨reason, s.cursor.position + ts.length, us.head?⟩ t) := by
  generalize hnext : us.head? = next at h
  cases h with
  | first h =>
      obtain ⟨t, ht⟩ := hr.error hn hs (hnext ▸ h)
      exact ⟨t, by rw [chain, ht, hnext]⟩
  | @missing ts e kind op _ text hl hop hstop =>
      rw [List.append_assoc, List.singleton_append] at hs
      obtain ⟨fuel, hc⟩ := chain_operator hr hf hn hs hl hop
      have ha : rule (s.took ts e).advance = some (.absent (s.took ts e).advance) :=
        hr.absent (by rw [State.rest_took_advance hs, hnext]; exact hstop)
      exact ⟨(s.took ts e).advance, by rw [hc, ha]; simp only [State.fail_took_advance _ hs, hnext]⟩
  | @right ts vs e kind op _ _ text hl hop hfault =>
      rw [List.append_assoc] at hs
      obtain ⟨fuel, hc⟩ := chain_operator hr hf hn hs hl hop
      obtain ⟨t, ht⟩ := hr.error (s := (s.took ts e).advance) hn (State.rest_took_advance hs) (hnext ▸ hfault)
      refine ⟨t, ?_⟩
      rw [hc, ht, State.position_took_advance hs, hnext, List.length_append, List.length_cons,
        Nat.add_assoc, Nat.add_assoc, Nat.add_comm 1]

theorem chain_reads : Reads (chain operator? rule) n (Chain operator? phrase)
    (ChainFault operator? phrase fault) (chainFurther operator? further) where
  outcome s hn := chain_outcome hr s hn
  node hn hs h hu := chain_node hr hf hn hs h hu
  absent hu := by rw [chain, hr.absent hu]
  error hn hs h := chain_error hr hf hn hs h

end IntScript.Grammar
