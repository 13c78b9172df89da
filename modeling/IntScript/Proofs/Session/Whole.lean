import IntScript.Proofs.Session.Execution

namespace IntScript

def Outcome.value? : Outcome → Option Int64
  | .binding _ value? => value?
  | .value v => some v

theorem Outcome.value?_ofStatement (n : Node) (value? : Option Int64) : (ofStatement n value?).value? = value? := by
  unfold ofStatement
  split
  · rfl
  · rfl
  · rfl

theorem Eval.value?_told (a : Arena) (id : Nat) (value? : Option Int64) : (told a id value?).value? = value? := by
  rw [told]
  cases a.node? id with
  | none => rfl
  | some n => exact Outcome.value?_ofStatement n value?

/-- The error, or the value of the last statement, which is the given one where there is none. -/
def Execution.result (x : Execution) (value? : Option Int64) : Except EvalError (Option Int64) :=
  match x.error? with
  | some e => .error e
  | none => .ok (x.outcomes.foldl (fun _ outcome => outcome.value?) value?)

theorem Execution.result_of_none {x : Execution} (h : x.error? = none) :
    x.result none = .ok (x.outcomes.getLast?.bind Outcome.value?) := by
  rw [result, h]
  dsimp only
  rcases List.eq_nil_or_concat x.outcomes with ho | ⟨outcomes, outcome, ho⟩
  · rw [ho]
    rfl
  · rw [ho, List.concat_eq_append, List.foldl_append, List.getLast?_concat]
    rfl

theorem Execution.result_of_some {x : Execution} {e : EvalError} (h : x.error? = some e) (value? : Option Int64) :
    x.result value? = .error e := by
  rw [result, h]

namespace Eval

variable {a : Arena} {xs : List Stmt}

theorem leaves_statements (ha : a.Ordered) {ids : List Nat} (h : List.Forall₂ a.HoldsStmt ids xs) (depth : Nat)
    (env : Environment) (value? : Option Int64) :
    Leaves (ids.foldlM (fun _ id => plain a id depth) value?) env ((Execution.of env xs).result value?)
      (Execution.of env xs).env := by
  induction h generalizing env value? with
  | nil => exact runs_pure value? env
  | @cons id x ids xs hx _ ih =>
      have heff := effects_statement ha hx depth env
      rw [List.foldlM_cons, Execution.of]
      cases hr : x.effect env with
      | error e =>
          rw [hr] at heff
          exact Leaves.bind_error heff
      | ok result =>
          rw [hr] at heff
          obtain ⟨v?, hl, htold⟩ := heff
          have hv : result.2.value? = v? := htold ▸ value?_told a id v?
          have hrest := ih result.1 v?
          rw [← hv] at hrest hl
          exact hl.bind hrest

theorem leaves_program (ha : a.Ordered) {root : Nat} (h : a.HoldsProgram xs) (hroot : a.root? = some root) (depth : Nat)
    (env : Environment) :
    Leaves (plain a root depth) env ((Execution.of env xs).result none) (Execution.of env xs).env := by
  obtain ⟨root, ids, hr, hn, hids⟩ := h
  obtain rfl := Option.some.inj (hroot.symm.trans hr)
  exact leaves_plain ha hn (leaves_statements ha hids (depth + 1) env none)

end Eval

/-- Evaluating the whole program is executing its statements, for the last value. -/
theorem Arena.evaluate_eq {a : Arena} {xs : List Stmt} (ha : a.Ordered) (h : a.HoldsProgram xs) (env : Environment) :
    (a.evaluate env).1 = (Execution.of env xs).result none ∧ (a.evaluate env).2.env = (Execution.of env xs).env := by
  obtain ⟨root, ids, hroot, hn, -⟩ := id h
  obtain ⟨run, hrun, henv⟩ := Session.evaluateNode_of_leaves ha (lt_size_of_node? hn) (Eval.leaves_program ha h hroot 0 env)
  rw [evaluate, hroot]
  dsimp only
  rw [hrun]
  exact ⟨rfl, henv⟩

end IntScript
