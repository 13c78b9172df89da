import IntScript.Proofs.Evaluation.Recursion

namespace IntScript.Eval

/-- The second computation does what the first one does, and notes it one level further down. -/
def Deeper {α : Type} (x y : Eval α) : Prop :=
  ∀ env steps steps', ∃ result env' noted, x.run.run ⟨env, steps⟩ = some (result, ⟨env', steps ++ noted⟩) ∧
    y.run.run ⟨env, steps'⟩ = some (result, ⟨env', steps' ++ noted.map (Step.sink 1)⟩)

variable {α β : Type} {x y : Eval α} {f g : α → Eval β}

theorem deeper_of_unnoted (result : Environment → Except EvalError α) (next : Environment → Environment)
    (h : ∀ run, x.run.run run = some (result run.env, { run with env := next run.env })) : Deeper x x := by
  intro env steps steps'
  refine ⟨result env, next env, #[], ?_, ?_⟩
  · rw [Array.append_empty]
    exact h _
  · rw [Array.map_empty, Array.append_empty]
    exact h _

theorem deeper_throw (e : EvalError) : Deeper (throw e : Eval α) (throw e) :=
  deeper_of_unnoted (fun _ => .error e) id fun _ => rfl

theorem deeper_pure (v : α) : Deeper (pure v : Eval α) (pure v) :=
  deeper_of_unnoted (fun _ => .ok v) id fun _ => rfl

theorem deeper_ofExcept (result : Except EvalError α) : Deeper (ofExcept result : Eval α) (ofExcept result) := by
  cases result with
  | error e => exact deeper_throw e
  | ok v => exact deeper_pure v

theorem Deeper.bind (hx : Deeper x y) (hf : ∀ v, Deeper (f v) (g v)) : Deeper (x >>= f) (y >>= g) := by
  intro env steps steps'
  obtain ⟨result, env', noted, hrun, hrun'⟩ := hx env steps steps'
  cases result with
  | error e => exact ⟨.error e, env', noted, run_bind_error hrun, run_bind_error hrun'⟩
  | ok v =>
      obtain ⟨result, env'', more, hnext, hnext'⟩ := hf v env' (steps ++ noted) (steps' ++ noted.map (Step.sink 1))
      refine ⟨result, env'', noted ++ more, ?_, ?_⟩
      · rw [run_bind_ok hrun, hnext, Array.append_assoc]
      · rw [run_bind_ok hrun', hnext', Array.map_append, Array.append_assoc]

/-- What depends on the state is at home on every level where it depends on the variables alone. -/
theorem deeper_get {f g : Run → Eval β} (h : ∀ run run' : Run, run.env = run'.env → Deeper (f run) (g run')) :
    Deeper (get >>= f) (get >>= g) :=
  fun env steps steps' => h ⟨env, steps⟩ ⟨env, steps'⟩ rfl env steps steps'

theorem deeper_note (step : Step) : Deeper (note step) (note (step.sink 1)) := by
  intro env steps steps'
  refine ⟨.ok (), env, #[step], rfl, ?_⟩
  rw [Array.map_singleton]
  rfl

theorem deeper_parallel : Parallel 1 @Deeper where
  pure := deeper_pure
  throw := deeper_throw
  bind := Deeper.bind
  note := deeper_note
  lookUp name := by
    apply deeper_get
    intro run run' henv
    rw [henv]
    exact deeper_ofExcept _
  requireDeclared name := by
    apply deeper_get
    intro run run' henv
    rw [henv]
    split
    · exact deeper_pure _
    · exact deeper_throw _
  declare name value? := deeper_of_unnoted (fun _ => .ok ()) (·.declare name value?) fun _ => rfl
  assign name value := by
    apply deeper_get
    intro run run' henv
    rw [henv]
    apply (deeper_ofExcept _).bind
    intro env
    exact deeper_of_unnoted (fun _ => .ok ()) (fun _ => env) fun _ => rfl

end IntScript.Eval
