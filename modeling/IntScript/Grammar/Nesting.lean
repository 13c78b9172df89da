import IntScript.Grammar.Program

namespace IntScript.Grammar

namespace Reply

def state : Reply → State
  | node _ s | absent s | error _ s => s

end Reply

/-- The rule has a reply wherever at least so many parentheses are open, and leaves their number as
it was. -/
def Answers (rule : Rule) (low : Nat) : Prop :=
  ∀ s, low ≤ s.nesting → s.nesting ≤ maxNesting →
    ∃ reply, rule s = some reply ∧ reply.state.nesting = s.nesting

variable {operator? : Token.Kind → Option Operator} {rule first second : Rule} {low : Nat}

theorem chainFrom_answers (h : Answers rule low) (fuel left : Nat) (s : State)
    (hl : low ≤ s.nesting) (hm : s.nesting ≤ maxNesting) :
    ∃ reply, chainFrom operator? rule fuel left s = some reply ∧
      reply.state.nesting = s.nesting := by
  induction fuel generalizing left s with
  | zero => exact ⟨_, rfl, rfl⟩
  | succ fuel ih =>
      rw [chainFrom]
      split
      · exact ⟨_, rfl, rfl⟩
      · obtain ⟨reply, hr, hn⟩ := h s.advance hl hm
        rw [hr]
        have hn : reply.state.nesting = s.nesting := hn
        cases reply with
        | node right t =>
            have hn : t.nesting = s.nesting := hn
            obtain ⟨last, hlast, hk⟩ := ih t.arena.size
              { t with arena := t.arena.push (.binary _ left right) }
              (by simpa [hn] using hl) (by simpa [hn] using hm)
            exact ⟨last, hlast, hk.trans hn⟩
        | absent t => exact ⟨_, rfl, hn⟩
        | error e t => exact ⟨_, rfl, hn⟩

theorem chain_answers (h : Answers rule low) : Answers (chain operator? rule) low := by
  intro s hl hm
  obtain ⟨reply, hr, hn⟩ := h s hl hm
  rw [chain, hr]
  cases reply with
  | node left t =>
      have hn : t.nesting = s.nesting := hn
      obtain ⟨last, hlast, hk⟩ := chainFrom_answers h t.cursor.remaining
        left t (by omega) (by omega)
      exact ⟨last, hlast, hk.trans hn⟩
  | absent t => exact ⟨_, rfl, hn⟩
  | error e t => exact ⟨_, rfl, hn⟩

theorem group_reply (s : State) (hl : low ≤ s.nesting + 1) (hm : s.nesting < maxNesting)
    (h : Answers rule low) :
    ∃ reply, group rule s = some reply ∧ reply.state.nesting = s.nesting := by
  obtain ⟨reply, hr, hn⟩ := h { s with nesting := s.nesting + 1 } hl hm
  rw [group, hr]
  cases reply with
  | node id t =>
      have hn : t.nesting = s.nesting + 1 := hn
      dsimp only
      split <;> exact ⟨_, rfl, Nat.sub_eq_of_eq_add hn⟩
  | absent t => exact ⟨_, rfl, Nat.sub_eq_of_eq_add hn⟩
  | error e t => exact ⟨_, rfl, Nat.sub_eq_of_eq_add hn⟩

theorem primary_answers (h : Answers rule (low + 1)) : Answers (primary rule) low := by
  intro s hl hm
  unfold primary
  split
  · exact ⟨_, rfl, rfl⟩
  · exact ⟨_, rfl, rfl⟩
  · by_cases hn : s.nesting = maxNesting
    · exact ⟨_, if_pos hn, rfl⟩
    · obtain ⟨reply, hr, hk⟩ := group_reply s.advance (Nat.add_le_add_right hl 1)
        (Nat.lt_of_le_of_ne hm hn) h
      exact ⟨reply, (if_neg hn).trans hr, hk⟩
  · exact ⟨_, rfl, rfl⟩

/-- As many expressions inside each other as parentheses may still be open, and one more, are
enough for every expression. -/
theorem additive_answers (depth low : Nat) (h : maxNesting < low + depth) :
    Answers (additive depth) low := by
  induction depth generalizing low with
  | zero => intro s hl hm; omega
  | succ depth ih =>
      exact chain_answers (chain_answers (primary_answers (ih (low + 1) (by omega))))

theorem finish_nesting (s : State) (node : Node) : (finish s node).state.nesting = s.nesting := by
  unfold finish
  split <;> rfl

theorem finishWith_answers (h : Answers rule low) (missing : ParseError.Reason)
    (node : Nat → Node) : Answers (finishWith rule missing node) low := by
  intro s hl hm
  obtain ⟨reply, hr, hn⟩ := h s hl hm
  rw [finishWith, hr]
  cases reply with
  | node id t => exact ⟨_, rfl, (finish_nesting t _).trans hn⟩
  | absent t => exact ⟨_, rfl, hn⟩
  | error e t => exact ⟨_, rfl, hn⟩

theorem declaration_answers (h : Answers rule low) : Answers (declaration rule) low := by
  intro s hl hm
  unfold declaration
  split
  · dsimp only
    split
    · split
      · exact finishWith_answers h _ _ s.advance.advance.advance hl hm
      · exact ⟨_, rfl, finish_nesting _ _⟩
    · exact ⟨_, rfl, rfl⟩
  · exact ⟨_, rfl, rfl⟩

theorem assignment_answers (h : Answers rule low) : Answers (assignment rule) low := by
  intro s hl hm
  unfold assignment
  split
  · split
    · exact finishWith_answers h _ _ s.advance.advance hl hm
    · exact ⟨_, rfl, rfl⟩
  · exact ⟨_, rfl, rfl⟩

theorem expressionStatement_answers (h : Answers rule low) :
    Answers (expressionStatement rule) low := by
  intro s hl hm
  obtain ⟨reply, hr, hn⟩ := h s hl hm
  rw [expressionStatement, hr]
  cases reply with
  | node id t =>
      by_cases hp : t.peekKind? = some .semicolon
      · exact ⟨.node id t.advance, if_pos hp, hn⟩
      · exact ⟨_, if_neg hp, hn⟩
  | absent t => exact ⟨_, rfl, hn⟩
  | error e t => exact ⟨_, rfl, hn⟩

theorem orElse_answers (hf : Answers first low) (hs : Answers second low) :
    Answers (orElse first second) low := by
  intro s hl hm
  obtain ⟨reply, hr, hn⟩ := hf s hl hm
  rw [orElse, hr]
  cases reply with
  | node id t => exact ⟨_, rfl, hn⟩
  | absent t =>
      have hn : t.nesting = s.nesting := hn
      obtain ⟨last, hlast, hk⟩ := hs t (by omega) (by omega)
      exact ⟨last, hlast, hk.trans hn⟩
  | error e t => exact ⟨_, rfl, hn⟩

theorem statement_answers (h : Answers rule low) : Answers (statement rule) low :=
  orElse_answers (declaration_answers h)
    (orElse_answers (assignment_answers h) (expressionStatement_answers h))

theorem statementsFrom_isSome (h : Answers rule 0) (fuel : Nat) (statements : List Nat)
    (s : State) (hm : s.nesting ≤ maxNesting) : (statementsFrom rule fuel statements s).isSome := by
  induction fuel generalizing statements s with
  | zero => unfold statementsFrom; rfl
  | succ fuel ih =>
      unfold statementsFrom
      split
      · rfl
      · obtain ⟨reply, hr, hn⟩ := h s (Nat.zero_le _) hm
        rw [hr]
        cases reply with
        | node id t => exact ih _ t (Nat.le_trans (Nat.le_of_eq hn) hm)
        | absent t => rfl
        | error e t => rfl

theorem programWithin_isSome (c : Cursor) : (programWithin (maxNesting + 1) c).isSome :=
  statementsFrom_isSome (statement_answers (additive_answers _ 0 (by decide))) _ _ _
    (Nat.zero_le _)

theorem calculationWithin_isSome (c : Cursor) : (calculationWithin (maxNesting + 1) c).isSome := by
  obtain ⟨reply, hr, -⟩ := additive_answers (maxNesting + 1) 0 (by decide) (.start c)
    (Nat.zero_le _) (Nat.zero_le _)
  rw [calculationWithin, hr]
  cases reply with
  | node id t => dsimp only; split <;> rfl
  | absent t => rfl
  | error e t => rfl

end IntScript.Grammar
