import IntScript.Grammar.Expression
import IntScript.Proofs.Grammar.Fault
import IntScript.Proofs.Token.Cursor

namespace IntScript.Grammar

def State.took (s : State) (ts : List Token) (e : Expr) : State :=
  { s with cursor := s.cursor.skip ts.length, arena := s.arena.graft e }

def State.reply (s : State) : Reply := .node s.arena.last s

inductive Outcome (phrase : Phrase) (fault : Fault) (further : Token.Kind → Bool) (s : State) :
    Option Reply → Prop
  | node {ts us e} (hs : s.cursor.rest = ts ++ us) (h : phrase ts e) (hn : Stops further us.head?) :
      Outcome phrase fault further s (some (s.took ts e).reply)
  | absent (hn : Stops startsOperand s.cursor.rest.head?) :
      Outcome phrase fault further s (some (.absent s))
  | error {ts us reason t} (hs : s.cursor.rest = ts ++ us) (h : fault ts us.head? reason) :
      Outcome phrase fault further s
        (some (.error ⟨reason, s.cursor.position + ts.length, us.head?⟩ t))

/-- Where `n` parentheses may still be opened, the rule reads a phrase as far as it goes, or finds
the fault in it. -/
structure Reads (rule : Rule) (n : Nat) (phrase : Phrase) (fault : Fault) (further : Token.Kind → Bool) :
    Prop where
  outcome (s : State) (hn : s.nesting + n = maxNesting) : Outcome phrase fault further s (rule s)
  node {s : State} {ts us : List Token} {e : Expr} (hn : s.nesting + n = maxNesting)
    (hs : s.cursor.rest = ts ++ us) (h : phrase ts e) (hu : Stops further us.head?) :
    rule s = some (s.took ts e).reply
  absent {s : State} (hu : Stops startsOperand s.cursor.rest.head?) : rule s = some (.absent s)
  error {s : State} {ts us : List Token} {reason : ParseError.Reason} (hn : s.nesting + n = maxNesting)
    (hs : s.cursor.rest = ts ++ us) (h : fault ts us.head? reason) :
    ∃ t, rule s = some (.error ⟨reason, s.cursor.position + ts.length, us.head?⟩ t)

theorem Stops.of_imp {kinds kinds' : Token.Kind → Bool} {next : Option Token}
    (h : Stops kinds next) (hk : ∀ kind, kinds' kind = true → kinds kind = true) : Stops kinds' next := by
  intro t ht
  have hf := h t ht
  cases hb : kinds' t.kind with
  | false => rfl
  | true => rw [hk _ hb] at hf; exact hf

theorem stops_some {kinds : Token.Kind → Bool} {t : Token} :
    Stops kinds (some t) ↔ kinds t.kind = false := by
  simp [Stops]

theorem stops_nil (kinds : Token.Kind → Bool) : Stops kinds none := fun _ ht => nomatch ht

theorem exists_cons_of_not_stops {kinds : Token.Kind → Bool} {us : List Token}
    (h : ¬ Stops kinds us.head?) : ∃ t vs, us = t :: vs ∧ kinds t.kind = true := by
  cases us with
  | nil => exact absurd (stops_nil kinds) h
  | cons t vs =>
      rw [List.head?_cons, stops_some, Bool.not_eq_false] at h
      exact ⟨t, vs, rfl, h⟩

namespace State

theorem advance_eq (s : State) : s.advance = { s with cursor := s.cursor.advance } := rfl

theorem peekKind?_eq (s : State) : s.peekKind? = s.cursor.rest.head?.map (·.kind) := by
  rw [peekKind?, Cursor.peekKind?, Cursor.peek?_eq_head?]

theorem fail_eq (s : State) (reason : ParseError.Reason) :
    s.fail reason = .error ⟨reason, s.cursor.position, s.cursor.rest.head?⟩ s := by
  rw [fail, Cursor.fault, Cursor.peek?_eq_head?]

variable {s : State} {ts us : List Token} {e : Expr}

/-- A token that has been read can be given back. -/
theorem unread_advance {t : Token} (h : s.cursor.peek? = some t) : s.advance.unread = s := by
  change { s with cursor := s.cursor.advance.unread } = s
  rw [Cursor.unread_advance h]

theorem rest_took (h : s.cursor.rest = ts ++ us) : (s.took ts e).cursor.rest = us :=
  Cursor.rest_skip_append h

theorem rest_took_advance {t : Token} (h : s.cursor.rest = ts ++ t :: us) :
    (s.took ts e).advance.cursor.rest = us := by
  rw [advance_eq, Cursor.rest_advance, rest_took h, List.tail_cons]

theorem position_took (h : s.cursor.rest = ts ++ us) :
    (s.took ts e).cursor.position = s.cursor.position + ts.length :=
  Cursor.position_skip_append h

theorem position_took_advance {t : Token} (h : s.cursor.rest = ts ++ t :: us) :
    (s.took ts e).advance.cursor.position = s.cursor.position + (ts.length + 1) := by
  rw [advance_eq, Cursor.position_advance (by simp [rest_took h]), position_took h, Nat.add_assoc]

theorem fail_took_advance {t : Token} (reason : ParseError.Reason) (h : s.cursor.rest = ts ++ t :: us) :
    (s.took ts e).advance.fail reason =
      .error ⟨reason, s.cursor.position + (ts ++ [t]).length, us.head?⟩ (s.took ts e).advance := by
  rw [fail_eq, rest_took_advance h, position_took_advance h, List.length_append, List.length_singleton]

/-- An operator and its right operand after all that was read before are one more operator. -/
theorem took_binary (s : State) (ts us : List Token) (t : Token) (op : Operator) (left right : Expr) :
    { ((s.took ts left).advance.took us right) with
      arena := ((s.took ts left).advance.took us right).arena.push (.binary op (s.took ts left).arena.last
        ((s.took ts left).advance.took us right).arena.last) } =
      s.took (ts ++ t :: us) (.binary op left right) := by
  have hc : (s.cursor.skip ts.length).advance.skip us.length = s.cursor.skip (ts ++ t :: us).length := by
    rw [Cursor.advance_skip, Cursor.skip_skip]
    congr 1
    simp [Nat.add_assoc, Nat.add_comm 1]
  simp only [took, advance_eq, hc, Arena.graft]

end State

end IntScript.Grammar
