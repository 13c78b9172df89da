import IntScript.Proofs.Grammar.Written
import IntScript.Proofs.Tree.Forest

namespace IntScript.Grammar

variable {n : Nat} {ts : List Token} {e : Expr} {x : Stmt} {xs : List Stmt}

theorem size_graft_le (h : Additive n ts e) (a : Arena) : (a.graft e).size ≤ a.size + ts.length := by
  refine level_induction (motive := fun _ _ ts e => ∀ a : Arena, (a.graft e).size ≤ a.size + ts.length) ?_ ?_ ?_ ?_ ?_ (Nat.zero_le 2) h a
  · intro n text a
    rw [Arena.graft, Arena.size_push, List.length_singleton]
  · intro n name a
    rw [Arena.graft, Arena.size_push, List.length_singleton]
  · intro n l r ts e ih a
    have hinner := ih a
    simp only [List.length_cons, List.length_append]
    omega
  · intro n k ts e ih
    exact ih
  · intro n op text ts us left right ihl ihr a
    have hl := ihl a
    have hr := ihr (a.graft left)
    simp only [Arena.graft, Arena.size_push, List.length_append, List.length_cons]
    omega

theorem size_graftStmt_le (h : Statement n ts x) (a : Arena) : (a.graftStmt x).size ≤ a.size + ts.length := by
  cases h with
  | declare int name semicolon =>
      simp only [Arena.graftStmt, Arena.size_push, List.length_cons]
      omega
  | define int name equals semicolon h | assign name equals semicolon h | expression semicolon h =>
      have hvalue := size_graft_le h a
      simp only [Arena.graftStmt, Arena.size_push, List.length_cons, List.length_append]
      omega

theorem size_graftProgram_le (h : Program n ts xs) (a : Arena) (ids : List Nat) :
    (a.graftProgram ids xs).size ≤ a.size + ts.length + 1 := by
  induction h generalizing a ids with
  | nil => exact Nat.le_of_eq (Arena.size_push a _)
  | @cons ts us x xs hx _ ih =>
      have hstmt := size_graftStmt_le hx a
      have hrest := ih (a.graftStmt x) ((a.graftStmt x).last :: ids)
      rw [List.length_append]
      exact hrest.trans (by omega)

/-- What parsing leaves is one tree in post-order. Every node but the root is the child of one other node, once, and nothing
remains of the choices that were taken back, so that there are no more nodes than tokens, apart from the program itself. -/
theorem parse_postOrder (c : Cursor) (a : Arena)
    (h : (parseProgram c).result = .ok a ∨ (parseCalculation c).result = .ok a) :
    (∃ root, a.PostOrder root) ∧ a.size ≤ c.rest.length + 1 := by
  rcases h with h | h
  · obtain ⟨xs, hxs, rfl⟩ := program_of_parseProgram h
    have hsize := size_graftProgram_le hxs .empty []
    rw [Arena.size_empty, Nat.zero_add] at hsize
    exact ⟨⟨_, Arena.postOrder_graftProgram xs⟩, hsize⟩
  · obtain ⟨e, he, rfl⟩ := additive_of_parseCalculation h
    have hsize := size_graft_le he .empty
    rw [Arena.size_empty, Nat.zero_add] at hsize
    refine ⟨⟨_, Arena.postOrder_graftProgram _⟩, ?_⟩
    rw [Arena.graftProgram, Arena.graftProgram, Arena.size_push]
    exact Nat.succ_le_succ hsize

def incremented : List Stmt :=
  [.declaration "x" none, .assignment "x" (.binary .add (.identifier "x") (.literal "1"))]

theorem parse_postOrder_incremented :
    (parseProgram (.start (tokenize "int x; x = x + 1;"))).result = .ok (Arena.empty.graftProgram [] incremented) ∧
    (∃ root, (Arena.empty.graftProgram [] incremented).PostOrder root) ∧
    (Arena.empty.graftProgram [] incremented).size ≤ (Cursor.start (tokenize "int x; x = x + 1;")).rest.length + 1 := by
  have hrest : (Cursor.start (tokenize "int x; x = x + 1;")).rest = incremented.flatMap Stmt.tokens := rfl
  have hprogram : Program maxNesting (Cursor.start (tokenize "int x; x = x + 1;")).rest incremented := by
    rw [hrest]
    exact program_tokens (by decide)
  have hparse := parseProgram_ok hprogram
  exact ⟨hparse, parse_postOrder _ _ (.inl hparse)⟩

end IntScript.Grammar
