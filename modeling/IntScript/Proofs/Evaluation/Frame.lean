import IntScript.Proofs.Evaluation.Meaning

namespace IntScript

namespace Environment

theorem slots_declare (env : Environment) (name other : String) (value? : Option Int64) :
    (env.declare name value?).slots[other]? = if other = name then some value? else env.slots[other]? := by
  simp only [declare, Std.ExtTreeMap.getElem?_insert, Std.compare_eq_iff_eq, eq_comm (a := name)]

theorem slots_declare_self (env : Environment) (name : String) (value? : Option Int64) :
    (env.declare name value?).slots[name]? = some value? := by
  rw [slots_declare, if_pos rfl]

theorem slots_declare_of_ne {name other : String} (h : other ≠ name) (env : Environment) (value? : Option Int64) :
    (env.declare name value?).slots[other]? = env.slots[other]? := by
  rw [slots_declare, if_neg h]

theorem isDeclared_eq (env : Environment) (name : String) : env.isDeclared name = env.slots[name]?.isSome :=
  Std.ExtTreeMap.contains_eq_isSome_getElem?

def record (env : Environment) : Outcome → Environment
  | .binding name value? => env.declare name value?
  | .value _ => env

end Environment

def Outcome.name? : Outcome → Option String
  | .binding name _ => some name
  | .value _ => none

section

variable {α β : Type} {x : Except EvalError α} {f : α → Except EvalError β}

theorem bind_eq_ok {b : β} : x >>= f = .ok b ↔ ∃ v, x = .ok v ∧ f v = .ok b := by
  cases x with
  | error e => exact ⟨nofun, fun ⟨_, h, _⟩ => nomatch h⟩
  | ok v => exact ⟨fun h => ⟨v, rfl, h⟩, fun ⟨w, hw, h⟩ => Except.ok.inj hw ▸ h⟩

end

namespace Stmt

variable {env env' : Environment} {outcome : Outcome}

def target? : Stmt → Option String
  | .declaration name _ | .assignment name _ => some name
  | .expression _ => none

theorem effect_assignment {name : String} (h : env.isDeclared name = true) (value : Expr) :
    (assignment name value).effect env = (do
      let v ← value.value env
      .ok (env.declare name (some v), .binding name (some v))) := by
  rw [effect, h]
  rfl

theorem effect_assignment_undeclared {name : String} (h : env.isDeclared name = false) (value : Expr) :
    (assignment name value).effect env = .error (.unknownVariable name) := by
  rw [effect, h]
  rfl

inductive Does (env : Environment) : Stmt → Environment → Outcome → Prop
  | declare {name} : Does env (declaration name none) (env.declare name none) (.binding name none)
  | define {name init v} (h : init.value env = .ok v) :
      Does env (declaration name (some init)) (env.declare name (some v)) (.binding name (some v))
  | assign {name value v} (hd : env.isDeclared name = true) (h : value.value env = .ok v) :
      Does env (assignment name value) (env.declare name (some v)) (.binding name (some v))
  | tell {value v} (h : value.value env = .ok v) : Does env (expression value) env (.value v)

theorem does_of_effect {x : Stmt} (h : x.effect env = .ok (env', outcome)) : x.Does env env' outcome := by
  cases x with
  | declaration name init? =>
      cases init? with
      | none =>
          obtain ⟨rfl, rfl⟩ := Prod.mk.inj (Except.ok.inj h)
          exact .declare
      | some init =>
          obtain ⟨v, hv, h⟩ := bind_eq_ok.1 h
          obtain ⟨rfl, rfl⟩ := Prod.mk.inj (Except.ok.inj h)
          exact .define hv
  | assignment name value =>
      cases hd : env.isDeclared name with
      | false =>
          rw [effect_assignment_undeclared hd] at h
          exact nomatch h
      | true =>
          rw [effect_assignment hd] at h
          obtain ⟨v, hv, h⟩ := bind_eq_ok.1 h
          obtain ⟨rfl, rfl⟩ := Prod.mk.inj (Except.ok.inj h)
          exact .assign hd hv
  | expression value =>
      obtain ⟨v, hv, h⟩ := bind_eq_ok.1 h
      obtain ⟨rfl, rfl⟩ := Prod.mk.inj (Except.ok.inj h)
      exact .tell hv

/-- What a statement makes of the variables is what it tells about its target. -/
theorem effect_record {x : Stmt} (h : x.effect env = .ok (env', outcome)) :
    env' = env.record outcome ∧ outcome.name? = x.target? := by
  cases does_of_effect h with
  | declare | define | assign | tell => exact ⟨rfl, rfl⟩

end Stmt

namespace Eval

/-- No declared name is gone afterwards, be there a value or an error. -/
def Keeps {α : Type} (x : Eval α) : Prop :=
  ∀ run result run', x.run.run run = some (result, run') →
    ∀ name, run.env.isDeclared name = true → run'.env.isDeclared name = true

variable {α β : Type} {x : Eval α} {f : α → Eval β}

theorem Keeps.bind (hx : Keeps x) (hf : ∀ v, Keeps (f v)) : Keeps (x >>= f) := by
  intro run result run' hrun name hname
  cases hfirst : x.run.run run with
  | none => simp [ExceptT.run_bind, hfirst] at hrun
  | some outcome =>
      obtain ⟨first, next⟩ := outcome
      have hnext := hx run first next hfirst name hname
      cases first with
      | error e =>
          obtain ⟨-, rfl⟩ := Prod.mk.inj (Option.some.inj ((run_bind_error hfirst).symm.trans hrun))
          exact hnext
      | ok v => exact hf v next result run' ((run_bind_ok hfirst).symm.trans hrun) name hnext

end Eval

end IntScript
