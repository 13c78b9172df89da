import IntScript.Grammar.Statement
import IntScript.Proofs.Grammar.Expression

namespace IntScript.Grammar

/-- The state after the tokens of a statement. What was taken back on the way is left open. -/
structure After (s : State) (ts : List Token) (x : Stmt) (t : State) : Prop where
  cursor : t.cursor = s.cursor.skip ts.length
  arena : t.arena = s.arena.graftStmt x
  nesting : t.nesting = s.nesting

inductive StatementOutcome (n : Nat) (s : State) : Option Reply → Prop
  | node {ts us x t} (hs : s.cursor.rest = ts ++ us) (h : Statement n ts x) (ht : After s ts x t) :
      StatementOutcome n s (some t.reply)
  | absent {ts us t} (hs : s.cursor.rest = ts ++ us) (h : Unfinished n ts us.head?)
      (hc : t.cursor = s.cursor) : StatementOutcome n s (some (.absent t))
  | error {ts us reason t} (hs : s.cursor.rest = ts ++ us) (h : StatementFault n ts us.head? reason) :
      StatementOutcome n s (some (.error ⟨reason, s.cursor.position + ts.length, us.head?⟩ t))

def State.skip (s : State) (k : Nat) : State := { s with cursor := s.cursor.skip k }

variable {rule : Rule} {n : Nat} {s : State} {ts us : List Token} {e : Expr} {missing : ParseError.Reason}
  {node : Nat → Node}

theorem build_eq_reply (s : State) (node : Node) :
    s.build node = { s with arena := s.arena.push node : State }.reply := by
  rw [State.build, State.reply, Arena.last_push]

theorem peekKind?_ne {kind : Token.Kind} (h : Stops (· == kind) s.cursor.rest.head?) :
    s.peekKind? ≠ some kind := by
  rw [State.peekKind?_eq]
  intro hk
  obtain ⟨t, ht, hk⟩ := Option.map_eq_some_iff.1 hk
  have hf := h t ht
  simp [hk] at hf

theorem peekKind?_cons {t : Token} (h : s.cursor.rest = t :: us) : s.peekKind? = some t.kind := by
  rw [State.peekKind?_eq, h]
  rfl

theorem finish_semicolon {semicolon : String} (hs : s.cursor.rest = ⟨.semicolon, semicolon⟩ :: us)
    (node : Node) : finish s node = { s.advance with arena := s.arena.push node : State }.reply := by
  rw [finish, if_pos (peekKind?_cons hs), build_eq_reply]
  rfl

theorem finish_missing (h : Stops (· == .semicolon) s.cursor.rest.head?) (node : Node) :
    finish s node = .error ⟨.missingSemicolon, s.cursor.position, s.cursor.rest.head?⟩ s := by
  rw [finish, if_neg (peekKind?_ne h), State.fail_eq]

section

variable (hr : Reads rule n (Additive n) (AdditiveFault n) isOperator) (hn : s.nesting + n = maxNesting)
include hr hn

theorem finishWith_node {semicolon : String} (hs : s.cursor.rest = ts ++ ⟨.semicolon, semicolon⟩ :: us)
    (h : Additive n ts e) : finishWith rule missing node s =
      some { (s.took ts e).advance with
        arena := (s.arena.graft e).push (node (s.arena.graft e).last) : State }.reply := by
  rw [finishWith, hr.node hn hs h (stops_some.2 rfl)]
  dsimp only [State.reply]
  rw [finish_semicolon (State.rest_took hs)]
  rfl

theorem finishWith_error (node : Nat → Node) {reason : ParseError.Reason} (hs : s.cursor.rest = ts ++ us)
    (h : ValueFault n missing ts us.head? reason) :
    ∃ t, finishWith rule missing node s =
      some (.error ⟨reason, s.cursor.position + ts.length, us.head?⟩ t) := by
  generalize hnext : us.head? = next at h
  cases h with
  | absent hstop =>
      refine ⟨s, ?_⟩
      rw [finishWith, hr.absent (by rw [hs, List.nil_append, hnext]; exact hstop)]
      dsimp only
      rw [State.fail_eq, hs, List.nil_append, hnext]
      rfl
  | inside h =>
      obtain ⟨t, ht⟩ := hr.error hn hs (hnext ▸ h)
      exact ⟨t, by rw [finishWith, ht, hnext]⟩
  | @unended _ e _ h ho hstop =>
      refine ⟨s.took ts e, ?_⟩
      rw [finishWith, hr.node hn hs h (hnext ▸ ho)]
      dsimp only [State.reply]
      rw [finish_missing (by rw [State.rest_took hs, hnext]; exact hstop), State.rest_took hs,
        State.position_took hs, hnext]

theorem finishWith_cases (missing : ParseError.Reason) :
    (∃ ts e semicolon us, s.cursor.rest = ts ++ ⟨.semicolon, semicolon⟩ :: us ∧ Additive n ts e) ∨
      ∃ ts us reason, s.cursor.rest = ts ++ us ∧ ValueFault n missing ts us.head? reason := by
  have ho := hr.outcome s hn
  generalize rule s = reply at ho
  cases ho with
  | @node ts us e hs h hu =>
      by_cases hc : Stops (· == .semicolon) us.head?
      · exact .inr ⟨ts, us, _, hs, .unended h hu hc⟩
      · obtain ⟨⟨kind, semicolon⟩, us, rfl, hk⟩ := exists_cons_of_not_stops hc
        obtain rfl := beq_iff_eq.1 hk
        exact .inl ⟨ts, e, semicolon, us, hs, h⟩
  | absent hu => exact .inr ⟨[], s.cursor.rest, _, rfl, .absent hu⟩
  | error hs h => exact .inr ⟨_, _, _, hs, .inside h⟩

end

theorem declaration_absent (h : Stops (· == .keywordInt) s.cursor.rest.head?) :
    declaration rule s = some (.absent s) := by
  rw [declaration, if_neg (peekKind?_ne h)]

theorem declaration_unnamed {int : String} (hs : s.cursor.rest = ⟨.keywordInt, int⟩ :: us)
    (h : Stops (· == .identifier) us.head?) :
    declaration rule s =
      some (.error ⟨.missingVariableName, s.cursor.position + 1, us.head?⟩ s.advance) := by
  have hrest : s.advance.cursor.rest = us := State.rest_enter hs
  rw [declaration, if_pos (peekKind?_cons hs)]
  dsimp only
  rw [Cursor.peek?_eq_head?, hrest]
  split
  · next name hu => simp [hu, Stops] at h
  · rw [State.fail_eq, hrest, ← State.position_enter hs]
    rfl

theorem declaration_named {int name : String}
    (hs : s.cursor.rest = ⟨.keywordInt, int⟩ :: ⟨.identifier, name⟩ :: us) :
    declaration rule s =
      if (s.skip 2).peekKind? = some .assign then
        finishWith rule (.missingInitializer name) (.declaration name ∘ some) (s.skip 3)
      else some (finish (s.skip 2) (.declaration name none)) := by
  rw [declaration, if_pos (peekKind?_cons hs)]
  dsimp only
  rw [Cursor.peek?_eq_head?, show s.advance.cursor.rest = _ from State.rest_enter hs]
  rfl

theorem rest_skip (ts : List Token) (hs : s.cursor.rest = ts ++ us) : (s.skip ts.length).cursor.rest = us :=
  Cursor.rest_skip_append hs

theorem position_skip (ts : List Token) (hs : s.cursor.rest = ts ++ us) :
    (s.skip ts.length).cursor.position = s.cursor.position + ts.length := Cursor.position_skip_append hs

theorem position_skip_add (ts : List Token) {vs : List Token} (hs : s.cursor.rest = ts ++ (us ++ vs)) :
    (s.skip ts.length).cursor.position + us.length = s.cursor.position + (ts ++ us).length := by
  rw [position_skip ts hs, List.length_append, Nat.add_assoc]

theorem declaration_bare {int name : String}
    (hs : s.cursor.rest = ⟨.keywordInt, int⟩ :: ⟨.identifier, name⟩ :: us)
    (h : Stops (· == .assign) us.head?) :
    declaration rule s = some (finish (s.skip 2) (.declaration name none)) := by
  have hrest : (s.skip 2).cursor.rest = us := rest_skip [_, _] hs
  rw [declaration_named hs, if_neg (peekKind?_ne (by rwa [hrest]))]

theorem declaration_define {int name equals : String}
    (hs : s.cursor.rest = ⟨.keywordInt, int⟩ :: ⟨.identifier, name⟩ :: ⟨.assign, equals⟩ :: us) :
    declaration rule s =
      finishWith rule (.missingInitializer name) (.declaration name ∘ some) (s.skip 3) := by
  have hrest : (s.skip 2).cursor.rest = ⟨.assign, equals⟩ :: us := rest_skip [_, _] hs
  rw [declaration_named hs, if_pos (peekKind?_cons hrest)]

theorem assignment_assign {name equals : String}
    (hs : s.cursor.rest = ⟨.identifier, name⟩ :: ⟨.assign, equals⟩ :: us) :
    assignment rule s = finishWith rule (.missingAssignedValue name) (.assignment name) (s.skip 2) := by
  have hp : s.advance.peekKind? = some .assign := peekKind?_cons (State.rest_enter hs)
  rw [assignment, Cursor.peek?_eq_head?, hs]
  dsimp only [List.head?_cons]
  rw [if_pos hp]
  rfl

/-- The two states differ only in what was taken back. -/
structure Same (s t : State) : Prop where
  cursor : t.cursor = s.cursor
  arena : t.arena = s.arena
  nesting : t.nesting = s.nesting

theorem assignment_absent (rule : Rule)
    (h : ∀ name equals us, s.cursor.rest ≠ ⟨.identifier, name⟩ :: ⟨.assign, equals⟩ :: us) :
    ∃ t, assignment rule s = some (.absent t) ∧ Same s t := by
  rw [assignment, Cursor.peek?_eq_head?]
  split
  · next name hp =>
      have hne : s.advance.peekKind? ≠ some .assign := by
        intro hk
        rw [State.peekKind?_eq, State.advance_eq, Cursor.rest_advance] at hk
        obtain ⟨us, hs⟩ := List.head?_eq_some_iff.1 hp
        obtain ⟨⟨kind, equals⟩, ht, rfl⟩ := Option.map_eq_some_iff.1 hk
        rw [hs, List.tail_cons] at ht
        obtain ⟨vs, rfl⟩ := List.head?_eq_some_iff.1 ht
        exact h name equals vs hs
      have hback : s.advance.unread = s := State.unread_advance (s.cursor.peek?_eq_head?.trans hp)
      rw [if_neg hne, hback]
      exact ⟨_, rfl, rfl, rfl, rfl⟩
  · exact ⟨s, rfl, rfl, rfl, rfl⟩

theorem expressionStatement_eq (s : State) : expressionStatement rule s =
    match rule s with
    | some (.node id t) =>
        if t.peekKind? = some .semicolon then some (.node id t.advance)
        else
          some (.absent { t.note (.noSemicolon s.cursor.position) with
            cursor := t.cursor.moveTo s.cursor.position, arena := t.arena.truncate s.arena.size })
    | reply => reply := by
  unfold expressionStatement settle
  rfl

theorem statement_otherwise (rule : Rule) (hi : Stops (· == .keywordInt) s.cursor.rest.head?)
    (ha : ∀ name equals us, s.cursor.rest ≠ ⟨.identifier, name⟩ :: ⟨.assign, equals⟩ :: us) :
    ∃ t, Same s t ∧ statement rule s = expressionStatement rule t := by
  obtain ⟨t, ht, hst⟩ := assignment_absent rule ha
  refine ⟨t, hst, ?_⟩
  rw [statement, orElse, declaration_absent hi]
  dsimp only
  rw [orElse, ht]

end IntScript.Grammar
