import IntScript.Proofs.Evaluation.Frame

namespace IntScript

namespace Stmt

def declared? : Stmt → Option String
  | .declaration name _ => some name
  | _ => none

def assigned? : Stmt → Option String
  | .assignment name _ => some name
  | _ => none

def Uses (x : Stmt) (name : String) : Prop :=
  (∃ e ∈ x.expr?, .identifier name ∈ e.parts) ∨ x.assigned? = some name

theorem target?_of_declared? {x : Stmt} {name : String} (h : x.declared? = some name) : x.target? = some name := by
  cases x with
  | declaration => exact h
  | assignment | expression => exact nomatch h

end Stmt

/-- A statement uses the name, and none before it declares it. -/
def Free (xs : List Stmt) (name : String) : Prop :=
  ∃ before x after, xs = before ++ x :: after ∧ x.Uses name ∧ ∀ y ∈ before, y.declared? ≠ some name

variable {env env' : Environment} {name : String} {x : Stmt} {xs : List Stmt}

theorem free_head (h : x.Uses name) (xs : List Stmt) : Free (x :: xs) name :=
  ⟨[], x, xs, rfl, h, fun _ hy => absurd hy List.not_mem_nil⟩

theorem Free.cons (h : Free xs name) (hx : x.declared? ≠ some name) : Free (x :: xs) name := by
  obtain ⟨before, y, after, rfl, hy, hb⟩ := h
  exact ⟨x :: before, y, after, rfl, hy, List.forall_mem_cons.2 ⟨hx, hb⟩⟩

namespace Environment

theorem slots_record_of_ne {outcome : Outcome} (h : outcome.name? ≠ some name) (env : Environment) :
    (env.record outcome).slots[name]? = env.slots[name]? := by
  cases outcome with
  | value v => rfl
  | binding other value? => exact slots_declare_of_ne (fun heq => h (congrArg some heq.symm)) env value?

theorem slots_record_of_eq {outcome : Outcome} (h : outcome.name? = some name) (env env' : Environment) :
    (env.record outcome).slots[name]? = (env'.record outcome).slots[name]? := by
  cases outcome with
  | value v => exact nomatch h
  | binding other value? =>
      obtain rfl := Option.some.inj h
      exact (env.slots_declare_self other value?).trans (env'.slots_declare_self other value?).symm

theorem slots_record_congr (h : env.slots[name]? = env'.slots[name]?) (outcome : Outcome) :
    (env.record outcome).slots[name]? = (env'.record outcome).slots[name]? := by
  by_cases hn : outcome.name? = some name
  · exact slots_record_of_eq hn env env'
  · rw [slots_record_of_ne hn, slots_record_of_ne hn, h]

def recordAll (env : Environment) (outcomes : List Outcome) : Environment := outcomes.foldl record env

variable {outcomes : List Outcome}

theorem slots_recordAll_of_forall (h : ∀ outcome ∈ outcomes, outcome.name? ≠ some name) (env : Environment) :
    (env.recordAll outcomes).slots[name]? = env.slots[name]? := by
  induction outcomes generalizing env with
  | nil => rfl
  | cons outcome outcomes ih =>
      obtain ⟨ho, hos⟩ := List.forall_mem_cons.1 h
      exact (ih hos (env.record outcome)).trans (slots_record_of_ne ho env)

theorem slots_recordAll_congr (h : env.slots[name]? = env'.slots[name]?) (outcomes : List Outcome) :
    (env.recordAll outcomes).slots[name]? = (env'.recordAll outcomes).slots[name]? := by
  induction outcomes generalizing env env' with
  | nil => exact h
  | cons outcome outcomes ih => exact ih (slots_record_congr h outcome)

/-- Outcomes that tell of a variable determine it, whatever it was before. -/
theorem slots_recordAll_of_exists (h : ∃ outcome ∈ outcomes, outcome.name? = some name) (env env' : Environment) :
    (env.recordAll outcomes).slots[name]? = (env'.recordAll outcomes).slots[name]? := by
  obtain ⟨outcome, hmem, ho⟩ := h
  obtain ⟨before, after, rfl⟩ := List.append_of_mem hmem
  simp only [recordAll, List.foldl_append, List.foldl_cons]
  exact slots_recordAll_congr (slots_record_of_eq ho _ _) after

theorem recordAll_recordAll (env : Environment) (outcomes : List Outcome) :
    (env.recordAll outcomes).recordAll outcomes = env.recordAll outcomes := by
  refine congrArg Environment.mk (Std.ExtTreeMap.ext_getElem? fun {name} => ?_)
  by_cases h : ∃ outcome ∈ outcomes, outcome.name? = some name
  · exact slots_recordAll_of_exists h _ _
  · exact slots_recordAll_of_forall (fun outcome hmem ho => h ⟨outcome, hmem, ho⟩) _

end Environment

theorem Expr.value_congr {e : Expr} (h : ∀ name, .identifier name ∈ e.parts → env.slots[name]? = env'.slots[name]?) :
    e.value env = e.value env' := by
  induction e with
  | literal text => rfl
  | identifier name => rw [value, value, Environment.get, Environment.get, h name (mem_parts_self _)]
  | binary op left right ihl ihr =>
      rw [value, value, ihl fun name hp => h name (by simp [parts, hp]), ihr fun name hp => h name (by simp [parts, hp])]

/-- A statement tells the same, and sets its target alike, where the variables that it uses are the same. -/
theorem Stmt.effect_congr {x : Stmt} (h : ∀ name, x.Uses name → env.slots[name]? = env'.slots[name]?) :
    x.effect env' = (x.effect env).map fun result => (env'.record result.2, result.2) := by
  have hvalue : ∀ e ∈ x.expr?, e.value env = e.value env' := fun e he =>
    Expr.value_congr fun name hp => h name (.inl ⟨e, he, hp⟩)
  cases x with
  | declaration name init? =>
      cases init? with
      | none => rfl
      | some init =>
          rw [effect, effect, hvalue init rfl]
          cases init.value env' <;> rfl
  | assignment name value =>
      have hd : env.isDeclared name = env'.isDeclared name := by
        rw [Environment.isDeclared_eq, Environment.isDeclared_eq, h name (.inr rfl)]
      rw [effect, effect, hvalue value rfl, hd]
      cases env'.isDeclared name with
      | false => rfl
      | true => cases value.value env' <;> rfl
  | expression value =>
      rw [effect, effect, hvalue value rfl]
      cases value.value env' <;> rfl

end IntScript
