import IntScript.Proofs.Grammar.Opening
import IntScript.Proofs.Grammar.Span
import IntScript.Proofs.Grammar.Unambiguous
import Mathlib.Logic.Relation

namespace IntScript.Grammar

/-- The tokens between `before` and `after` are those of the expression at a place of the tree. -/
def SpanOf (n : Nat) (before span after : List Token) (id : Nat) : Prop := ∃ xs, ProgramSpans n before span after xs id

/-- The second list has one pair of parentheses more, around the tokens of an expression. -/
inductive Wraps : List Token → List Token → Prop
  | pair {n before span after id} (l r : String) (h : SpanOf n before span after id) :
      Wraps (before ++ (span ++ after)) (before ++ (enclose l r span ++ after))

variable {ts us : List Token} {xs : List Stmt}

theorem Wraps.program_iff (h : Wraps ts us) (xs : List Stmt) : (∃ n, Program n ts xs) ↔ ∃ n, Program n us xs := by
  obtain ⟨l, r, ys, hs⟩ := h
  constructor
  · rintro ⟨m, hxs⟩
    obtain rfl := hxs.unique hs.whole
    exact ⟨_, hs.enclosed l r⟩
  · rintro ⟨m, hxs⟩
    obtain rfl := hxs.unique (hs.enclosed l r)
    exact ⟨_, hs.whole⟩

theorem program_iff_of_eqvGen (h : Relation.EqvGen Wraps ts us) (xs : List Stmt) :
    (∃ n, Program n ts xs) ↔ ∃ n, Program n us xs := by
  induction h with
  | rel _ _ h => exact h.program_iff xs
  | refl _ => exact Iff.rfl
  | symm _ _ _ ih => exact ih.symm
  | trans _ _ _ _ _ ih ih' => exact ih.trans ih'

/-- Each expression of the tree has its tokens in the list, and parentheses around these change nothing, or are too
many. So lists that differ only in such parentheses have the same tree. -/
theorem parseProgram_parenthesized {c : Cursor} {a : Arena} (h : (parseProgram c).result = .ok a) :
    (∀ id node, a.node? id = some node → node.statementType = .expressionStatement →
      ∃ before span after, c.rest = before ++ (span ++ after) ∧ SpanOf maxNesting before span after id) ∧
    (∀ n before span after id, c.rest = before ++ (span ++ after) → SpanOf n before span after id →
      (∃ e, a.Holds id e ∧ Additive n span e) ∧
      ∀ l r (d : Cursor), d.rest = before ++ (enclose l r span ++ after) →
        (OpensAtMost maxNesting d.rest → (parseProgram d).result = .ok a) ∧
        (¬ OpensAtMost maxNesting d.rest → ∃ e, (parseProgram d).result = .error e ∧ e.reason = .nestingTooDeep)) ∧
    ∀ (d : Cursor) b, Relation.EqvGen Wraps c.rest d.rest → (parseProgram d).result = .ok b → b = a := by
  obtain ⟨xs, hxs, rfl⟩ := program_of_parseProgram h
  refine ⟨fun id node hn ht => ?_, fun n before span after id hs ⟨ys, hspans⟩ => ?_, fun d b he hd => ?_⟩
  · have hn : (Arena.empty.graftProgram [] xs).node? (Arena.empty.size + id) = some node := by
      rw [Arena.size_empty, Nat.zero_add, hn]
    obtain ⟨before, span, after, hs, hspans⟩ := exists_programSpans hxs _ _ hn ht
    exact ⟨before, span, after, hs, xs, hspans⟩
  · obtain rfl := hxs.unique (hs ▸ hspans.whole)
    refine ⟨?_, fun l r d hd => ?_⟩
    · obtain ⟨part, hpart, hspan⟩ := hspans.holds .empty []
      rw [Arena.size_empty, Nat.zero_add] at hpart
      exact ⟨part, hpart, hspan⟩
    · have hprogram : Program (n + 1) d.rest xs := hd ▸ hspans.enclosed l r
      exact parseProgram_limited hprogram
  · obtain ⟨ys, hys, rfl⟩ := program_of_parseProgram hd
    obtain ⟨m, hm⟩ := (program_iff_of_eqvGen he xs).1 ⟨_, hxs⟩
    rw [hys.unique hm]

def productSum : List Stmt :=
  [.expression (.binary .add (.identifier "a") (.binary .mul (.identifier "b") (.identifier "c")))]

theorem parseProgram_parenthesized_product :
    (parseProgram (.start (tokenize "a+b*c;"))).result = .ok (Arena.empty.graftProgram [] productSum) ∧
    (parseProgram (.start (tokenize "a+(b*c);"))).result = .ok (Arena.empty.graftProgram [] productSum) := by
  have hparse : (parseProgram (.start (tokenize "a+b*c;"))).result = .ok (Arena.empty.graftProgram [] productSum) := rfl
  have hsum : Level maxNesting 0 [⟨.identifier, "a"⟩] (.identifier "a") := level_anti (Nat.zero_le 2) (.identifier "a")
  have hproduct : Level maxNesting 1 [⟨.identifier, "b"⟩, ⟨.star, "*"⟩, ⟨.identifier, "c"⟩]
      (.binary .mul (.identifier "b") (.identifier "c")) :=
    level_binary .mul "*" (.one (.identifier "b")) (.identifier "c")
  have hspan : SpanOf maxNesting [⟨.identifier, "a"⟩, ⟨.plus, "+"⟩] [⟨.identifier, "b"⟩, ⟨.star, "*"⟩, ⟨.identifier, "c"⟩]
      [⟨.semicolon, ";"⟩] 3 :=
    ⟨productSum, .head (.value (.expression ";" _) (.right .add "+" hsum (.all hproduct))) .nil⟩
  obtain ⟨-, hinside⟩ := (parseProgram_parenthesized hparse).2.1 _ _ _ _ _ rfl hspan
  exact ⟨hparse, (hinside "(" ")" (.start (tokenize "a+(b*c);")) rfl).1 (by decide +kernel)⟩

end IntScript.Grammar
