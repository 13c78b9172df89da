import IntScript.Proofs.Evaluation.Run
import IntScript.Proofs.Tree.Nodes
import IntScript.Session.Outcome

namespace IntScript

def Expr.value (env : Environment) : Expr → Except EvalError Int64
  | .literal text => (Number.literal? text).elim (.error (.invalidLiteral text)) .ok
  | .identifier name => env.get name
  | .binary op left right => do
      let l ← left.value env
      let r ← right.value env
      op.apply l r

/-- What a statement makes of the variables, and what it tells. A statement that fails does neither. -/
def Stmt.effect (env : Environment) : Stmt → Except EvalError (Environment × Outcome)
  | .declaration name none => .ok (env.declare name none, .binding name none)
  | .declaration name (some init) => do
      let v ← init.value env
      .ok (env.declare name (some v), .binding name (some v))
  | .assignment name value => do
      unless env.isDeclared name do throw (.unknownVariable name)
      let v ← value.value env
      .ok (env.declare name (some v), .binding name (some v))
  | .expression value => do
      let v ← value.value env
      .ok (env, .value v)

namespace Eval

variable {a : Arena} {id : Nat} {env : Environment} {e : Expr}

theorem runs_value (ha : a.Ordered) (h : a.Holds id e) (depth : Nat) (env : Environment) :
    Runs (plain a id depth) env ((e.value env).map some) := by
  induction e generalizing id depth with
  | literal text =>
      rw [Expr.value]
      cases hl : Number.literal? text with
      | none => exact runs_literal_error ha h hl
      | some v => exact runs_literal ha h hl
  | identifier name => exact runs_identifier ha h
  | binary op left right ihl ihr =>
      obtain ⟨i, j, hn, hl, hr⟩ := h
      have hl := ihl hl (depth + 1)
      have hr := ihr hr (depth + 1)
      rw [Expr.value]
      cases hvl : left.value env with
      | error err =>
          rw [hvl] at hl
          exact runs_left_error ha hn hl
      | ok l =>
          rw [hvl] at hl
          cases hvr : right.value env with
          | error err =>
              rw [hvr] at hr
              exact runs_right_error ha hn hl hr
          | ok r =>
              rw [hvr] at hr
              exact runs_apply ha hn hl hr

theorem runs_required_value (ha : a.Ordered) (h : a.Holds id e) (depth : Nat) (env : Environment) :
    Runs (required a (plain a) id depth) env (e.value env) := by
  have hr := runs_value ha h depth env
  cases hv : e.value env with
  | error err =>
      rw [hv] at hr
      exact runs_required_error hr
  | ok v =>
      rw [hv] at hr
      exact runs_required hr

def told (a : Arena) (id : Nat) (value? : Option Int64) : Outcome :=
  (a.node? id).elim (.binding "" value?) (.ofStatement · value?)

def Effects (a : Arena) (id depth : Nat) (env : Environment) : Except EvalError (Environment × Outcome) → Prop
  | .ok (env', outcome) =>
      ∃ value?, Leaves (plain a id depth) env (.ok value?) env' ∧ told a id value? = outcome
  | .error err => Leaves (plain a id depth) env (.error err) env

theorem effects_statement {x : Stmt} (ha : a.Ordered) (h : a.HoldsStmt id x) (depth : Nat) (env : Environment) :
    Effects a id depth env (x.effect env) := by
  cases x with
  | declaration name init? =>
      cases init? with
      | none =>
          have hn : a.node? id = some (.declaration name none) := h
          refine ⟨none, leaves_plain ha hn ?_, by rw [told, hn]; rfl⟩
          exact (leaves_declare name none env).bind (runs_pure none _)
      | some init =>
          obtain ⟨i, hn, hi⟩ := h
          have hr := runs_required_value ha hi (depth + 1) env
          rw [Stmt.effect]
          cases hv : init.value env with
          | error err =>
              rw [hv] at hr
              exact leaves_plain ha hn hr.bind_error
          | ok v =>
              rw [hv] at hr
              refine ⟨some v, leaves_plain ha hn ?_, by rw [told, hn]; rfl⟩
              exact Leaves.bind hr ((leaves_declare name (some v) env).bind (runs_pure (some v) _))
  | assignment name value =>
      obtain ⟨i, hn, hi⟩ := h
      have hr := runs_required_value ha hi (depth + 1) env
      rw [Stmt.effect]
      cases hd : env.isDeclared name with
      | false => exact leaves_plain ha hn (runs_requireDeclared_error hd).bind_error
      | true =>
          cases hv : value.value env with
          | error err =>
              rw [hv] at hr
              exact leaves_plain ha hn ((runs_requireDeclared hd).bind hr.bind_error)
          | ok v =>
              rw [hv] at hr
              refine ⟨some v, leaves_plain ha hn ?_, by rw [told, hn]; rfl⟩
              refine Leaves.bind (runs_requireDeclared hd) (Leaves.bind hr ?_)
              exact (leaves_assign hd v).bind (runs_pure (some v) _)
  | expression value =>
      have hr := runs_value ha h depth env
      obtain ⟨n, hn, ht⟩ := h.statementType
      rw [Stmt.effect]
      cases hv : value.value env with
      | error err =>
          rw [hv] at hr
          exact hr
      | ok v =>
          rw [hv] at hr
          exact ⟨some v, hr, by simp [told, hn, Outcome.ofStatement, ht, Stmt.nodeType]⟩

end Eval

end IntScript
