import IntScript.Proofs.Evaluation.Recursion

namespace IntScript.Eval

def Runs {α : Type} (x : Eval α) (env : Environment) (result : Except EvalError α) : Prop :=
  ∀ run, run.env = env → ∃ run', x.run.run run = some (result, run') ∧ run'.env = env

def Leaves {α : Type} (x : Eval α) (env : Environment) (result : Except EvalError α) (env' : Environment) : Prop :=
  ∀ run, run.env = env → ∃ run', x.run.run run = some (result, run') ∧ run'.env = env'

variable {α β : Type} {x : Eval α} {f : α → Eval β} {env env' env'' : Environment} {v : α} {e : EvalError}

theorem Leaves.bind {result : Except EvalError β} (hx : Leaves x env (.ok v) env')
    (hf : Leaves (f v) env' result env'') : Leaves (x >>= f) env result env'' := by
  intro run h
  obtain ⟨run', hrun, h'⟩ := hx run h
  obtain ⟨run'', hrun', h''⟩ := hf run' h'
  exact ⟨run'', (run_bind_ok hrun).trans hrun', h''⟩

theorem Leaves.bind_error (hx : Leaves x env (.error e) env') : Leaves (x >>= f) env (.error e) env' := by
  intro run h
  obtain ⟨run', hrun, h'⟩ := hx run h
  exact ⟨run', run_bind_error hrun, h'⟩

theorem runs_pure (v : α) (env : Environment) : Runs (pure v) env (.ok v) := fun run h => ⟨run, rfl, h⟩

theorem runs_throw (e : EvalError) (env : Environment) : Runs (throw e : Eval α) env (.error e) :=
  fun run h => ⟨run, rfl, h⟩

theorem runs_ofExcept (result : Except EvalError α) (env : Environment) : Runs (ofExcept result) env result := by
  cases result with
  | error e => exact runs_throw e env
  | ok v => exact runs_pure v env

theorem Runs.bind {result : Except EvalError β} (hx : Runs x env (.ok v)) (hf : Runs (f v) env result) :
    Runs (x >>= f) env result :=
  Leaves.bind hx hf

theorem Runs.bind_error (hx : Runs x env (.error e)) : Runs (x >>= f) env (.error e) :=
  Leaves.bind_error hx

theorem runs_note (step : Step) (env : Environment) : Runs (note step) env (.ok ()) :=
  fun run h => ⟨{ run with steps := run.steps.push step }, rfl, h⟩

theorem leaves_declare (name : String) (value? : Option Int64) (env : Environment) :
    Leaves (declare name value?) env (.ok ()) (env.declare name value?) :=
  fun run h => ⟨{ run with env := run.env.declare name value? }, rfl, by rw [h]⟩

/-- What depends on the state is known where it depends on the variables alone. -/
theorem leaves_get {f : Run → Eval β} {result : Except EvalError β}
    (h : ∀ run, run.env = env → Leaves (f run) env result env') : Leaves (get >>= f) env result env' :=
  fun run hr => h run hr run hr

theorem runs_requireDeclared {name : String} (h : env.isDeclared name = true) :
    Runs (requireDeclared name) env (.ok ()) := by
  refine leaves_get fun run hr => ?_
  rw [hr, if_pos h]
  exact runs_pure () env

theorem runs_requireDeclared_error {name : String} (h : env.isDeclared name = false) :
    Runs (requireDeclared name) env (.error (.unknownVariable name)) := by
  refine leaves_get fun run hr => ?_
  rw [hr, if_neg (by simp [h])]
  exact runs_throw _ env

theorem leaves_assign {name : String} (h : env.isDeclared name = true) (value : Int64) :
    Leaves (assign name value) env (.ok ()) (env.declare name (some value)) := by
  refine leaves_get fun run hr => ?_
  rw [hr, Environment.assign, if_pos h]
  refine Leaves.bind (runs_ofExcept _ env) fun run _ => ?_
  exact ⟨{ run with env := env.declare name (some value) }, rfl, rfl⟩

theorem runs_lookUp (name : String) (env : Environment) : Runs (lookUp name) env (env.get name) := by
  refine leaves_get fun run hr => ?_
  rw [hr]
  exact runs_ofExcept _ env

theorem Runs.map {result : Except EvalError α} (h : Runs x env result) :
    Runs (some <$> x) env (result.map some) := by
  rw [map_eq_pure_bind]
  cases result with
  | error e => exact h.bind_error
  | ok v => exact h.bind (runs_pure (some v) env)

variable {a : Arena} {id depth : Nat} {n : Node} {left right : Nat} {op : Operator}
  {result : Except EvalError (Option Int64)}

theorem runs_required {value : Int64} (h : Runs (plain a id depth) env (.ok (some value))) :
    Runs (required a (plain a) id depth) env (.ok value) :=
  h.bind (runs_pure value env)

theorem runs_required_error (h : Runs (plain a id depth) env (.error e)) :
    Runs (required a (plain a) id depth) env (.error e) :=
  h.bind_error

section

variable (ha : a.Ordered)
include ha

theorem leaves_plain (hn : a.node? id = some n)
    (h : Leaves (plainNode a (plain a) id depth n) env result env') :
    Leaves (plain a id depth) env result env' := by
  rw [plain_of_node ha hn]
  refine Leaves.bind (runs_note _ env) ?_
  cases result with
  | error e => exact h.bind_error
  | ok value? => exact h.bind ((runs_note _ env').bind (runs_pure value? env'))

theorem runs_plain (hn : a.node? id = some n) (h : Runs (plainNode a (plain a) id depth n) env result) :
    Runs (plain a id depth) env result :=
  leaves_plain ha hn h

theorem runs_literal {text : String} {value : Int64} (hn : a.node? id = some (.literal text))
    (h : Number.literal? text = some value) : Runs (plain a id depth) env (.ok (some value)) := by
  refine runs_plain ha hn ?_
  rw [plainNode, node, h]
  · exact runs_pure (some value) env
  · simp

theorem runs_literal_error {text : String} (hn : a.node? id = some (.literal text))
    (h : Number.literal? text = none) : Runs (plain a id depth) env (.error (.invalidLiteral text)) := by
  refine runs_plain ha hn ?_
  rw [plainNode, node, h]
  · exact runs_throw _ env
  · simp

theorem runs_identifier {name : String} (hn : a.node? id = some (.identifier name)) :
    Runs (plain a id depth) env ((env.get name).map some) := by
  refine runs_plain ha hn ?_
  rw [plainNode, node]
  · exact (runs_lookUp name env).map
  · simp

variable (hn : a.node? id = some (.binary op left right))
include hn

theorem runs_left_error (hl : Runs (plain a left (depth + 1)) env (.error e)) :
    Runs (plain a id depth) env (.error e) :=
  runs_plain ha hn (runs_required_error hl).bind_error

theorem runs_right_error {l : Int64} (hl : Runs (plain a left (depth + 1)) env (.ok (some l)))
    (hr : Runs (plain a right (depth + 1)) env (.error e)) : Runs (plain a id depth) env (.error e) :=
  runs_plain ha hn ((runs_required hl).bind (runs_required_error hr).bind_error)

theorem runs_apply {l r : Int64} (hl : Runs (plain a left (depth + 1)) env (.ok (some l)))
    (hr : Runs (plain a right (depth + 1)) env (.ok (some r))) :
    Runs (plain a id depth) env ((op.apply l r).map some) :=
  runs_plain ha hn ((runs_required hl).bind ((runs_required hr).bind (runs_ofExcept _ env).map))

end

end IntScript.Eval
