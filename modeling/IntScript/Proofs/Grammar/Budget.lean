import IntScript.Grammar.Parse

namespace IntScript.Grammar

def Extends (rule rule' : Rule) : Prop := ∀ s reply, rule s = some reply → rule' s = some reply

variable {operator? : Token.Kind → Option Operator} {rule rule' rule'' first first' second second' : Rule}

theorem extends_refl (rule : Rule) : Extends rule rule := fun _ _ h => h

theorem Extends.trans (h : Extends rule rule') (h' : Extends rule' rule'') : Extends rule rule'' :=
  fun s reply hr => h' s reply (h s reply hr)

theorem chainFrom_extends (h : Extends rule rule') (fuel left : Nat) (s : State) (reply : Reply)
    (hr : chainFrom operator? rule fuel left s = some reply) :
    chainFrom operator? rule' fuel left s = some reply := by
  induction fuel generalizing left s with
  | zero => exact hr
  | succ fuel ih =>
      rw [chainFrom] at hr ⊢
      cases hop : s.peekKind?.bind operator? with
      | none => simpa only [hop] using hr
      | some op =>
          cases hright : rule s.advance with
          | none => simp [hop, hright] at hr
          | some right =>
              simp only [hop, hright, h _ _ hright] at hr ⊢
              cases right with
              | node id t => exact ih _ _ hr
              | absent t | error e t => exact hr

theorem chain_extends (h : Extends rule rule') : Extends (chain operator? rule) (chain operator? rule') := by
  intro s reply hr
  cases hleft : rule s with
  | none => simp [chain, hleft] at hr
  | some left =>
      simp only [chain, hleft, h _ _ hleft] at hr ⊢
      cases left with
      | node id t => exact chainFrom_extends h _ _ _ _ hr
      | absent t | error e t => exact hr

theorem group_extends (h : Extends rule rule') : Extends (group rule) (group rule') := by
  intro s reply hr
  cases hinner : rule { s with nesting := s.nesting + 1 } with
  | none => simp [group, hinner] at hr
  | some inner => simpa only [group, hinner, h _ _ hinner] using hr

theorem primary_extends (h : Extends rule rule') : Extends (primary rule) (primary rule') := by
  intro s reply hr
  unfold primary at hr ⊢
  split at hr
  · exact hr
  · exact hr
  · by_cases hn : s.nesting = maxNesting
    · simpa only [if_pos hn] using hr
    · rw [if_neg hn] at hr
      simpa only [if_neg hn] using group_extends h _ _ hr
  · exact hr

theorem additive_extends_succ (depth : Nat) : Extends (additive depth) (additive (depth + 1)) := by
  induction depth with
  | zero => exact fun _ _ h => nomatch h
  | succ depth ih => exact chain_extends (chain_extends (primary_extends ih))

theorem additive_extends {depth depth' : Nat} (h : depth ≤ depth') : Extends (additive depth) (additive depth') := by
  induction h with
  | refl => exact extends_refl _
  | step _ ih => exact ih.trans (additive_extends_succ _)

theorem finishWith_extends (h : Extends rule rule') (missing : ParseError.Reason) (node : Nat → Node) :
    Extends (finishWith rule missing node) (finishWith rule' missing node) := by
  intro s reply hr
  cases hvalue : rule s with
  | none => simp [finishWith, hvalue] at hr
  | some value => simpa only [finishWith, hvalue, h _ _ hvalue] using hr

theorem declaration_extends (h : Extends rule rule') : Extends (declaration rule) (declaration rule') := by
  intro s reply hr
  unfold declaration at hr ⊢
  by_cases hint : s.peekKind? = some .keywordInt
  · rw [if_pos hint] at hr ⊢
    dsimp only at hr ⊢
    split at hr
    · split at hr
      · next hassign =>
          rw [if_pos hassign]
          exact finishWith_extends h _ _ _ _ hr
      · next hassign => rwa [if_neg hassign]
    · exact hr
  · rwa [if_neg hint] at hr ⊢

theorem assignment_extends (h : Extends rule rule') : Extends (assignment rule) (assignment rule') := by
  intro s reply hr
  unfold assignment at hr ⊢
  split at hr
  · split at hr
    · next hassign =>
        rw [if_pos hassign]
        exact finishWith_extends h _ _ _ _ hr
    · next hassign => rwa [if_neg hassign]
  · exact hr

theorem expressionStatement_extends (h : Extends rule rule') :
    Extends (expressionStatement rule) (expressionStatement rule') := by
  intro s reply hr
  cases hvalue : rule s with
  | none => simp [expressionStatement, hvalue, settle] at hr
  | some value => simpa only [expressionStatement, hvalue, h _ _ hvalue] using hr

theorem orElse_extends (hf : Extends first first') (hs : Extends second second') :
    Extends (orElse first second) (orElse first' second') := by
  intro s reply hr
  cases hfirst : first s with
  | none => simp [orElse, hfirst] at hr
  | some r =>
      simp only [orElse, hfirst, hf _ _ hfirst] at hr ⊢
      cases r with
      | absent t => exact hs _ _ hr
      | node id t | error e t => exact hr

theorem statement_extends (h : Extends rule rule') : Extends (statement rule) (statement rule') :=
  orElse_extends (declaration_extends h) (orElse_extends (assignment_extends h) (expressionStatement_extends h))

theorem statementsFrom_extends (h : Extends rule rule') (fuel : Nat) (statements : List Nat) (s : State) (p : Parsed)
    (hr : statementsFrom rule fuel statements s = some p) : statementsFrom rule' fuel statements s = some p := by
  induction fuel generalizing statements s with
  | zero => exact hr
  | succ fuel ih =>
      rw [statementsFrom] at hr ⊢
      cases hpeek : s.cursor.peek? with
      | none => simpa only [hpeek] using hr
      | some t =>
          cases hstatement : rule s with
          | none => simp [hpeek, hstatement] at hr
          | some r =>
              simp only [hpeek, hstatement, h _ _ hstatement] at hr ⊢
              cases r with
              | node id t => exact ih _ _ hr
              | absent t | error e t => exact hr

variable {budget budget' : Nat} {c : Cursor} {p : Parsed}

theorem programWithin_extends (hb : budget ≤ budget') (h : programWithin budget c = some p) :
    programWithin budget' c = some p :=
  statementsFrom_extends (statement_extends (additive_extends hb)) _ _ _ _ h

theorem calculationWithin_extends (hb : budget ≤ budget') (h : calculationWithin budget c = some p) :
    calculationWithin budget' c = some p := by
  cases hvalue : additive budget (.start c) with
  | none => simp [calculationWithin, hvalue] at h
  | some value => simpa only [calculationWithin, hvalue, additive_extends hb _ _ hvalue] using h

theorem programWithin_enough (hb : maxNesting + 1 ≤ budget) : programWithin budget c = some (parseProgram c) :=
  programWithin_extends hb (Option.some_get _).symm

theorem calculationWithin_enough (hb : maxNesting + 1 ≤ budget) :
    calculationWithin budget c = some (parseCalculation c) :=
  calculationWithin_extends hb (Option.some_get _).symm

/-- With any bound the answer is the same one, if there is an answer. -/
theorem eq_parseProgram (h : programWithin budget c = some p) : p = parseProgram c := by
  have hmax := programWithin_extends (Nat.le_max_left budget (maxNesting + 1)) h
  rw [programWithin_enough (Nat.le_max_right _ _)] at hmax
  exact (Option.some.inj hmax).symm

theorem eq_parseCalculation (h : calculationWithin budget c = some p) : p = parseCalculation c := by
  have hmax := calculationWithin_extends (Nat.le_max_left budget (maxNesting + 1)) h
  rw [calculationWithin_enough (Nat.le_max_right _ _)] at hmax
  exact (Option.some.inj hmax).symm

end IntScript.Grammar
