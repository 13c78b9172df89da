import IntScript.Proofs.Evaluation.Recursion
import IntScript.Proofs.Grammar.Budget
import IntScript.Proofs.Grammar.Level
import IntScript.Proofs.Grammar.Program

namespace IntScript

/-- How many evaluations stand inside each other for an expression. A left operand adds none. -/
def Expr.nesting : Expr → Nat
  | .binary _ left right => max left.nesting (right.nesting + 1)
  | _ => 1

def Stmt.nesting : Stmt → Nat
  | .declaration _ init? => init?.elim 1 (·.nesting + 1)
  | .assignment _ value => value.nesting + 1
  | .expression value => value.nesting

theorem Expr.nesting_pos (e : Expr) : 0 < e.nesting := by
  induction e with
  | literal text | identifier name => exact Nat.one_pos
  | binary op left right ihl _ => exact Nat.lt_of_lt_of_le ihl (Nat.le_max_left _ _)

namespace Eval

variable {a : Arena} {eval : Nat → Nat → Eval (Option Int64)} {id depth budget : Nat} {n : Node} {e : Expr} {x : Stmt}

theorem plainAlong_of_holds (h : a.Holds id e) (hb : e.nesting ≤ budget + 1) (hpos : 0 < budget)
    (heval : ∀ i e, a.Holds i e → e.nesting ≤ budget → ∀ depth, eval i depth = plain a i depth) :
    PlainAlong a eval id := by
  induction e generalizing id with
  | literal text | identifier name =>
      have hn : a.node? id = some _ := h
      exact .leftmost (by simp [hn]) (heval id _ h hpos)
  | binary op left right ihl _ =>
      obtain ⟨i, j, hn, hl, hr⟩ := h
      rw [Expr.nesting] at hb
      exact .operator hn (ihl hl (by omega)) (heval j right hr (by omega))

section

variable (ha : a.Ordered)
include ha

theorem within_of_node (hn : a.node? id = some n)
    (h : node a (within a budget) id depth n = plainNode a (plain a) id depth n) :
    within a (budget + 1) id depth = plain a id depth := by
  rw [within, hn, plain_of_node ha hn, ← h]

theorem within_of_children (hn : a.node? id = some n) (hb : ∀ op left right, n ≠ .binary op left right)
    (h : ∀ child ∈ n.children, ∀ depth, within a budget child depth = plain a child depth) :
    within a (budget + 1) id depth = plain a id depth := by
  have hc : plainNode a (within a budget) id depth n = plainNode a (plain a) id depth n := plainNode_congr h
  refine within_of_node ha hn ?_
  cases n with
  | binary op left right => exact absurd rfl (hb op left right)
  | program | declaration | assignment | identifier | literal => exact hc

/-- Only right operands take from the bound, however long the chain of operators is. -/
theorem within_of_holds (h : a.Holds id e) (hb : e.nesting ≤ budget) (depth : Nat) :
    within a budget id depth = plain a id depth := by
  induction budget generalizing id e depth with
  | zero => exact absurd hb (Nat.not_le_of_lt e.nesting_pos)
  | succ budget ih =>
      cases e with
      | literal text | identifier name => exact within_of_node ha h rfl
      | binary op left right =>
          obtain ⟨i, j, hn, hl, hr⟩ := h
          rw [Expr.nesting] at hb
          have hpos := right.nesting_pos
          have hleft : PlainAlong a (within a budget) i :=
            plainAlong_of_holds hl (by omega) (by omega) fun _ _ hi hb => ih hi hb
          refine within_of_node ha hn ?_
          rw [node, chain_eq ha hn hleft (ih hr (by omega))]
          simp only [plainNode, map_eq_pure_bind, bind_assoc]

theorem within_of_holdsStmt (h : a.HoldsStmt id x) (hb : x.nesting ≤ budget) (depth : Nat) :
    within a budget id depth = plain a id depth := by
  cases x with
  | declaration name init? =>
      cases init? with
      | none =>
          obtain ⟨budget, rfl⟩ := Nat.exists_eq_add_of_lt hb
          exact within_of_node ha h rfl
      | some init =>
          obtain ⟨i, hn, hi⟩ := h
          obtain ⟨budget, rfl⟩ := Nat.exists_eq_add_of_lt hb
          refine within_of_children ha hn nofun fun child hc => ?_
          obtain rfl := List.mem_singleton.1 hc
          exact within_of_holds ha hi (by omega)
  | assignment name value =>
      obtain ⟨i, hn, hi⟩ := h
      obtain ⟨budget, rfl⟩ := Nat.exists_eq_add_of_lt hb
      refine within_of_children ha hn nofun fun child hc => ?_
      obtain rfl := List.mem_singleton.1 hc
      exact within_of_holds ha hi (by omega)
  | expression value => exact within_of_holds ha h hb depth

theorem within_of_holdsProgram {root : Nat} {xs : List Stmt} (h : a.HoldsProgram xs) (hroot : a.root? = some root)
    (hb : ∀ x ∈ xs, x.nesting < budget) (hpos : 0 < budget) (depth : Nat) :
    within a budget root depth = plain a root depth := by
  obtain ⟨root, ids, hr, hn, hids⟩ := h
  obtain rfl := Option.some.inj (hroot.symm.trans hr)
  obtain ⟨budget, rfl⟩ := Nat.exists_eq_add_of_lt hpos
  refine within_of_children ha hn nofun fun child hc => ?_
  obtain ⟨k, hk⟩ := List.getElem?_of_mem hc
  obtain ⟨x, hx, hh⟩ := Arena.exists_stmt hids hk
  have hbx := hb x (List.mem_of_getElem? hx)
  exact within_of_holdsStmt ha hh (by omega)

end

end Eval

namespace Grammar

variable {n : Nat} {ts : List Token} {e : Expr} {x : Stmt} {xs : List Stmt}

/-- Each open parenthesis adds two at most: one for a product on the right of a sum, and one for what
stands in parentheses on the right of a product. -/
theorem nesting_le_of_additive (h : Additive n ts e) : e.nesting ≤ 2 * n + 3 := by
  refine level_induction (motive := fun n k _ e => e.nesting + k ≤ 2 * n + 3) ?_ ?_ ?_ ?_ ?_ (Nat.zero_le 2) h
  · intro n text
    simp [Expr.nesting]
  · intro n name
    simp [Expr.nesting]
  · intro n l r ts e ih
    omega
  · intro n k ts e ih
    omega
  · intro n op text ts us left right ihl ihr
    rw [Expr.nesting]
    omega

theorem nesting_le_of_statement (h : Statement n ts x) : x.nesting ≤ 2 * n + 4 := by
  cases h with
  | declare => simp [Stmt.nesting]
  | define int name equals semicolon h => exact Nat.succ_le_succ (nesting_le_of_additive h)
  | assign name equals semicolon h => exact Nat.succ_le_succ (nesting_le_of_additive h)
  | expression semicolon h => exact Nat.le_succ_of_le (nesting_le_of_additive h)

theorem nesting_le_of_program (h : Program n ts xs) : ∀ x ∈ xs, x.nesting ≤ 2 * n + 4 := by
  induction h with
  | nil => exact fun x hx => absurd hx List.not_mem_nil
  | cons hx _ ih => exact List.forall_mem_cons.2 ⟨nesting_le_of_statement hx, ih⟩

end Grammar

/-- No input makes the recursion deep: parsing is done with one expression for each parenthesis that may be
open and one more, and evaluating what was parsed with two evaluations for each of them and five more. -/
theorem recursion_bounded (c : Cursor) :
    (∀ budget, maxNesting + 1 ≤ budget →
      Grammar.programWithin budget c = some (parseProgram c) ∧
      Grammar.calculationWithin budget c = some (parseCalculation c)) ∧
    (∀ budget p, Grammar.programWithin budget c = some p → p = parseProgram c) ∧
    (∀ budget p, Grammar.calculationWithin budget c = some p → p = parseCalculation c) ∧
    ∀ a, (parseProgram c).result = .ok a ∨ (parseCalculation c).result = .ok a →
      ∃ root, a.root? = some root ∧ ∀ budget, 2 * maxNesting + 5 ≤ budget →
        (∀ depth, Eval.within a budget root depth = Eval.plain a root depth) ∧
        ∀ env, (Eval.within a budget root 0).run.run (.start env) = some (a.evaluate env) := by
  refine ⟨fun budget hb => ⟨Grammar.programWithin_enough hb, Grammar.calculationWithin_enough hb⟩,
    fun _ _ hp => Grammar.eq_parseProgram hp, fun _ _ hp => Grammar.eq_parseCalculation hp, fun a h => ?_⟩
  obtain ⟨ts, xs, hxs, ha, hholds⟩ := Grammar.program_of_parse h
  obtain ⟨root, ids, hroot, hn, -⟩ := id hholds
  refine ⟨root, hroot, fun budget hb => ?_⟩
  have hplain : ∀ depth, Eval.within a budget root depth = Eval.plain a root depth := by
    refine Eval.within_of_holdsProgram ha hholds hroot (fun x hx => ?_) (by omega)
    have hle := Grammar.nesting_le_of_program hxs x hx
    omega
  refine ⟨hplain, fun env => ?_⟩
  rw [hplain, Eval.evaluateNode_plain ha (Arena.lt_size_of_node? hn), Arena.evaluate, hroot]

example : Grammar.programWithin 1 (.start (tokenize "(7);")) = none := rfl

end IntScript
