import IntScript.Proofs.Grammar.Context
import IntScript.Proofs.Grammar.Program
import IntScript.Proofs.Grammar.Written
import IntScript.Proofs.Tree.Nodes

namespace IntScript.Grammar

def Quotes (phrase : Phrase) : Prop :=
  ∀ ts e, phrase ts e → ∀ text, .literal text ∈ e.parts → (⟨.intLiteral, text⟩ : Token) ∈ ts

theorem quotes_additive (n : Nat) : Quotes (Additive n) := by
  intro ts e h
  refine level_induction
    (motive := fun _ _ ts e => ∀ text, .literal text ∈ e.parts → (⟨.intLiteral, text⟩ : Token) ∈ ts) ?_ ?_ ?_ ?_ ?_
    (Nat.zero_le 2) h
  · intro n text text' ht
    simpa [Expr.parts] using ht
  · intro n name text ht
    simp [Expr.parts] at ht
  · intro n l r ts e ih text ht
    exact List.mem_cons_of_mem _ (List.mem_append_left _ (ih text ht))
  · intro n k ts e ih
    exact ih
  · intro n op symbol ts us left right ihl ihr text ht
    simp only [Expr.parts, List.mem_append, List.mem_singleton, reduceCtorEq, or_false] at ht
    rcases ht with ht | ht
    · exact List.mem_append_left _ (ihl text ht)
    · exact List.mem_append_right _ (List.mem_cons_of_mem _ (ihr text ht))

variable {n : Nat} {ts : List Token} {text : String} {e : Expr}

theorem statement_quotes {x : Stmt} (h : Statement n ts x) (he : e ∈ x.expr?)
    (ht : .literal text ∈ e.parts) : (⟨.intLiteral, text⟩ : Token) ∈ ts := by
  refine statement_induction (motive := fun ts x => e ∈ x.expr? → (⟨.intLiteral, text⟩ : Token) ∈ ts) ?_ ?_ h he
  · exact fun _ _ _ he => nomatch he
  · intro front ts back e' x hx h he
    obtain rfl := Option.some.inj (hx.expr?_eq.symm.trans he)
    exact List.mem_append_right front (List.mem_append_left back (quotes_additive n _ _ h text ht))

theorem program_quotes {xs : List Stmt} (h : Program n ts xs) {x : Stmt} (hx : x ∈ xs) (he : e ∈ x.expr?)
    (ht : .literal text ∈ e.parts) : (⟨.intLiteral, text⟩ : Token) ∈ ts := by
  induction h with
  | nil => exact absurd hx List.not_mem_nil
  | cons hy _ ih =>
      rcases List.mem_cons.1 hx with rfl | hx
      · exact List.mem_append_left _ (statement_quotes hy he ht)
      · exact List.mem_append_right _ (ih hx)

/-- A tree that a text can be parsed to: children come first, and every expression node stands for an
expression whose literals are digits. -/
structure Sourced (a : Arena) : Prop where
  ordered : a.Ordered
  expression (id : Nat) (n : Node) (hn : a.node? id = some n) (hx : n.statementType = .expressionStatement) :
    ∃ e, a.Holds id e ∧ ∀ text, .literal text ∈ e.parts → Number.IsDecimal text

theorem sourced_graftProgram (source : String) {xs : List Stmt}
    (h : ∀ x ∈ xs, ∀ e ∈ x.expr?, ∀ text, .literal text ∈ e.parts →
      (⟨.intLiteral, text⟩ : Token) ∈ tokenize source) : Sourced (Arena.empty.graftProgram [] xs) where
  ordered := Arena.ordered_graftProgram xs
  expression id n hn hx := by
    obtain ⟨x, hxs, e, he, y, hy, hh⟩ := Arena.covered_empty.graftProgram [] xs id n hn hx
    refine ⟨y, hh, fun text ht => ?_⟩
    exact isDecimal_of_lexical (Token.lexical_of_mem_tokenize (h x hxs e he text (Expr.parts_subset hy ht)))

theorem sourced_of_parse {source : String} {a : Arena}
    (h : parse source = .ok a ∨ parseExpression source = .ok a) : Sourced a := by
  rcases h with h | h
  · obtain ⟨xs, hxs, rfl⟩ := program_of_parseProgram h
    rw [Cursor.rest_start] at hxs
    refine sourced_graftProgram source fun x hx e he text ht => ?_
    exact Array.mem_toList_iff.1 (program_quotes hxs hx he ht)
  · obtain ⟨e, he, rfl⟩ := additive_of_parseCalculation h
    rw [Cursor.rest_start] at he
    refine sourced_graftProgram source fun x hx f hf text ht => ?_
    obtain rfl := List.mem_singleton.1 hx
    obtain rfl := Option.some.inj hf
    exact Array.mem_toList_iff.1 (quotes_additive _ _ _ he text ht)

end IntScript.Grammar
