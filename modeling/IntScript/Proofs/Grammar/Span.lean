import IntScript.Proofs.Grammar.Context
import IntScript.Proofs.Tree.Place

namespace IntScript

theorem Operator.rank_lt (op : Operator) : op.rank < 2 := by
  cases op <;> decide

theorem Expr.getElem?_parts_last (e : Expr) : e.parts[e.parts.length - 1]? = some e := by
  cases e <;> simp [parts]

namespace Grammar

/-- In a phrase of some level, the tokens between `before` and `after` are those of a part of the expression. The last
number is the place of the part among all parts, in the order in which their nodes are built. -/
inductive Spans : Nat → Nat → List Token → List Token → List Token → Expr → Nat → Prop
  | all {n k ts e} (h : Level n k ts e) : Spans n k [] ts [] e (e.parts.length - 1)
  | group {n before span after e i} (l r : String) (h : Spans n 0 before span after e i) :
      Spans (n + 1) 2 (⟨.leftParen, l⟩ :: before) span (after ++ [⟨.rightParen, r⟩]) e i
  | lower {n k before span after e i} (h : Spans n (k + 1) before span after e i) : Spans n k before span after e i
  | left {n before span after us left right i} (op : Operator) (text : String)
      (h : Spans n op.rank before span after left i) (hr : Level n (op.rank + 1) us right) :
      Spans n op.rank before span (after ++ ⟨op.kind, text⟩ :: us) (.binary op left right) i
  | right {n ts before span after left right i} (op : Operator) (text : String)
      (hl : Level n op.rank ts left) (h : Spans n (op.rank + 1) before span after right i) :
      Spans n op.rank (ts ++ ⟨op.kind, text⟩ :: before) span after (.binary op left right) (left.parts.length + i)

inductive StatementSpans (n : Nat) : List Token → List Token → List Token → Stmt → Nat → Prop
  | value {front back before span after e x i} (hx : Context front back e x) (h : Spans n 0 before span after e i) :
      StatementSpans n (front ++ before) span (after ++ back) x i

inductive ProgramSpans (n : Nat) : List Token → List Token → List Token → List Stmt → Nat → Prop
  | head {before span after us x xs i} (h : StatementSpans n before span after x i) (hxs : Program n us xs) :
      ProgramSpans n before span (after ++ us) (x :: xs) i
  | tail {ts before span after x xs i} (hx : Statement n ts x) (h : ProgramSpans n before span after xs i) :
      ProgramSpans n (ts ++ before) span after (x :: xs) (x.size + i)

def enclose (l r : String) (ts : List Token) : List Token := ⟨.leftParen, l⟩ :: (ts ++ [⟨.rightParen, r⟩])

variable {n k i : Nat} {ts before span after : List Token} {e : Expr} {x : Stmt} {xs : List Stmt}

theorem Spans.whole (h : Spans n k before span after e i) : Level n k (before ++ (span ++ after)) e := by
  induction h with
  | all h => simpa using h
  | group l r _ ih => simpa using level_group l r ih 2
  | lower _ ih => exact level_anti (Nat.le_succ _) ih
  | left op text _ hr ih => simpa using level_binary op text ih hr
  | right op text hl _ ih => simpa using level_binary op text hl ih

theorem Spans.part (h : Spans n k before span after e i) : ∃ part, e.parts[i]? = some part ∧ Additive n span part := by
  induction h with
  | @all n k ts e h => exact ⟨e, e.getElem?_parts_last, level_anti (Nat.zero_le k) h⟩
  | group l r _ ih =>
      obtain ⟨part, hpart, hspan⟩ := ih
      exact ⟨part, hpart, level_mono (Nat.le_succ _) (Nat.zero_le 2) hspan⟩
  | lower _ ih => exact ih
  | @left n before span after us left right i op text _ hr ih =>
      obtain ⟨part, hpart, hspan⟩ := ih
      refine ⟨part, ?_, hspan⟩
      have hi := (List.getElem?_eq_some_iff.1 hpart).1
      rw [Expr.parts, List.append_assoc, List.getElem?_append_left hi, hpart]
  | @right n ts before span after left right i op text hl _ ih =>
      obtain ⟨part, hpart, hspan⟩ := ih
      refine ⟨part, ?_, hspan⟩
      have hi := (List.getElem?_eq_some_iff.1 hpart).1
      rw [Expr.parts, List.append_assoc, List.getElem?_append_right (Nat.le_add_right _ _), Nat.add_sub_cancel_left,
        List.getElem?_append_left hi, hpart]

/-- Parentheses around a part leave the expression as it is: a group is an operand of every rank. -/
theorem Spans.enclosed (h : Spans n k before span after e i) (l r : String) :
    Level (n + 1) k (before ++ (enclose l r span ++ after)) e := by
  induction h with
  | all h => simpa [enclose] using level_group l r (level_anti (Nat.zero_le _) h) _
  | group l' r' _ ih => simpa using level_group l' r' ih 2
  | lower _ ih => exact level_anti (Nat.le_succ _) ih
  | left op text _ hr ih => simpa using level_binary op text ih (level_mono (Nat.le_succ _) op.rank_lt hr)
  | right op text hl _ ih =>
      simpa using level_binary op text (level_mono (Nat.le_succ _) (Nat.le_of_lt op.rank_lt) hl) ih

def Located (spans : List Token → List Token → List Token → Nat → Prop) (ts : List Token) (i : Nat) : Prop :=
  ∃ before span after, ts = before ++ (span ++ after) ∧ spans before span after i

theorem located_all (h : Level n k ts e) : Located (Spans n k · · · e ·) ts (e.parts.length - 1) :=
  ⟨[], ts, [], by simp, .all h⟩

theorem exists_spans (hk : k ≤ 2) (h : Level n k ts e) (hi : i < e.parts.length) : Located (Spans n k · · · e ·) ts i := by
  refine (level_induction (motive := fun n k ts e =>
    Level n k ts e ∧ ∀ i < e.parts.length, Located (Spans n k · · · e ·) ts i) ?_ ?_ ?_ ?_ ?_ hk h).2 i hi
  · intro n text
    refine ⟨.literal text, fun i hi => ?_⟩
    obtain rfl := Nat.lt_one_iff.1 hi
    exact located_all (k := 2) (.literal text)
  · intro n name
    refine ⟨.identifier name, fun i hi => ?_⟩
    obtain rfl := Nat.lt_one_iff.1 hi
    exact located_all (k := 2) (.identifier name)
  · intro n l r ts e ⟨h, ih⟩
    refine ⟨.group l r h, fun i hi => ?_⟩
    obtain ⟨before, span, after, rfl, hs⟩ := ih i hi
    exact ⟨_, span, _, by simp, hs.group l r⟩
  · intro n k ts e ⟨h, ih⟩
    refine ⟨level_anti (Nat.le_succ k) h, fun i hi => ?_⟩
    obtain ⟨before, span, after, hts, hs⟩ := ih i hi
    exact ⟨before, span, after, hts, hs.lower⟩
  · intro n op text ts us left right ⟨hl, ihl⟩ ⟨hr, ihr⟩
    have hlevel := level_binary op text hl hr
    refine ⟨hlevel, fun i hi => ?_⟩
    simp only [Expr.parts, List.length_append, List.length_singleton] at hi
    by_cases hil : i < left.parts.length
    · obtain ⟨before, span, after, rfl, hs⟩ := ihl i hil
      exact ⟨before, span, _, by simp, hs.left op text hr⟩
    obtain ⟨j, rfl⟩ := Nat.exists_eq_add_of_le (Nat.le_of_not_lt hil)
    by_cases hj : j < right.parts.length
    · obtain ⟨before, span, after, rfl, hs⟩ := ihr j hj
      exact ⟨_, span, after, by simp, .right op text hl hs⟩
    · have hlast : left.parts.length + j = (Expr.binary op left right).parts.length - 1 := by
        simp only [Expr.parts, List.length_append, List.length_singleton]
        omega
      rw [hlast]
      exact located_all hlevel

theorem StatementSpans.whole (h : StatementSpans n before span after x i) : Statement n (before ++ (span ++ after)) x := by
  obtain ⟨hx, h⟩ := h
  simpa using hx.statement h.whole

theorem StatementSpans.part (h : StatementSpans n before span after x i) :
    ∃ e ∈ x.expr?, ∃ part, e.parts[i]? = some part ∧ Additive n span part := by
  obtain ⟨hx, h⟩ := h
  exact ⟨_, hx.expr?_eq, h.part⟩

theorem StatementSpans.enclosed (h : StatementSpans n before span after x i) (l r : String) :
    Statement (n + 1) (before ++ (enclose l r span ++ after)) x := by
  obtain ⟨hx, h⟩ := h
  simpa using hx.statement (h.enclosed l r)

theorem exists_statementSpans (h : Statement n ts x) (he : e ∈ x.expr?) (hi : i < e.parts.length) :
    Located (StatementSpans n · · · x ·) ts i := by
  refine statement_induction (motive := fun ts x => e ∈ x.expr? → Located (StatementSpans n · · · x ·) ts i) ?_ ?_ h he
  · exact fun _ _ _ he => nomatch he
  · intro front ts back e' x hx h he
    obtain rfl := Option.some.inj (hx.expr?_eq.symm.trans he)
    obtain ⟨before, span, after, rfl, hs⟩ := exists_spans (Nat.zero_le 2) h hi
    exact ⟨front ++ before, span, after ++ back, by simp, .value hx hs⟩

theorem ProgramSpans.whole (h : ProgramSpans n before span after xs i) : Program n (before ++ (span ++ after)) xs := by
  induction h with
  | head h hxs => simpa using Program.cons h.whole hxs
  | tail hx _ ih => simpa using Program.cons hx ih

theorem ProgramSpans.enclosed (h : ProgramSpans n before span after xs i) (l r : String) :
    Program (n + 1) (before ++ (enclose l r span ++ after)) xs := by
  induction h with
  | head h hxs => simpa using Program.cons (h.enclosed l r) (program_mono (Nat.le_succ n) hxs)
  | tail hx _ ih => simpa using Program.cons (statement_mono (Nat.le_succ n) hx) ih

/-- The part stands where its tokens say, and is what they denote. -/
theorem ProgramSpans.holds (h : ProgramSpans n before span after xs i) (a : Arena) (ids : List Nat) :
    ∃ part, (a.graftProgram ids xs).Holds (a.size + i) part ∧ Additive n span part := by
  induction h generalizing a ids with
  | head h _ =>
      obtain ⟨e, he, part, hpart, hspan⟩ := h.part
      exact ⟨part, (Arena.holds_graftStmt_part a he hpart).mono (Arena.within_graftProgram _ _ _), hspan⟩
  | @tail ts before span after x xs i hx _ ih =>
      obtain ⟨part, hpart, hspan⟩ := ih (a.graftStmt x) ((a.graftStmt x).last :: ids)
      rw [Arena.size_graftStmt, Nat.add_assoc] at hpart
      exact ⟨part, hpart, hspan⟩

theorem exists_programSpans (h : Program n ts xs) (a : Arena) (ids : List Nat) {node : Node}
    (hn : (a.graftProgram ids xs).node? (a.size + i) = some node) (ht : node.statementType = .expressionStatement) :
    Located (ProgramSpans n · · · xs ·) ts i := by
  induction h generalizing a ids i with
  | nil =>
      rw [Arena.graftProgram, Arena.node?_push] at hn
      split_ifs at hn with hid
      · obtain rfl := Option.some.inj hn
        cases ht
      · exact absurd (Arena.lt_size_of_node? hn) (Nat.not_lt.2 (Nat.le_add_right _ _))
  | @cons ts us x xs hx hxs ih =>
      by_cases hi : a.size + i < (a.graftStmt x).size
      · obtain ⟨node', hn'⟩ := Arena.node?_of_lt_size hi
        obtain rfl := Option.some.inj (hn.symm.trans (Arena.within_graftProgram _ _ xs _ _ hn'))
        obtain ⟨e, he, hlt⟩ := Arena.lt_of_node?_graftStmt hn' ht
        obtain ⟨before, span, after, rfl, hs⟩ := exists_statementSpans hx he hlt
        exact ⟨before, span, _, by simp, .head hs hxs⟩
      · rw [Arena.size_graftStmt] at hi
        obtain ⟨j, rfl⟩ := Nat.exists_eq_add_of_le (Nat.le_of_add_le_add_left (Nat.le_of_not_lt hi))
        rw [← Nat.add_assoc, ← Arena.size_graftStmt] at hn
        obtain ⟨before, span, after, rfl, hs⟩ := ih _ _ hn
        exact ⟨_, span, after, by simp, .tail hx hs⟩

end Grammar

end IntScript
