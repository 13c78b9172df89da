import IntScript.Proofs.Evaluation.Frame
import Mathlib.Logic.Function.Basic

namespace IntScript

inductive Status where
  | undeclared
  | uninitialized
  | initialized
  deriving DecidableEq, Repr

def Status.ofSlot : Option (Option Int64) → Status
  | none => .undeclared
  | some none => .uninitialized
  | some (some _) => .initialized

def Environment.status (env : Environment) (name : String) : Status := .ofSlot env.slots[name]?

def EvalError.aboutVariable : EvalError → Bool
  | .undefinedVariable _ | .uninitializedVariable _ | .unknownVariable _ => true
  | .divisionByZero | .overflow _ _ _ | .invalidLiteral _ => false

/-- A variable that cannot be read or set, as an error, and the operands that are evaluated before it. -/
structure Refusal where
  before : List Expr
  error : EvalError
  deriving DecidableEq, Repr

def Refusal.behind (operand : Expr) (r : Refusal) : Refusal := { r with before := operand :: r.before }

def Expr.refusal? (status : String → Status) : Expr → Option Refusal
  | .literal _ => none
  | .identifier name =>
      match status name with
      | .undeclared => some ⟨[], .undefinedVariable name⟩
      | .uninitialized => some ⟨[], .uninitializedVariable name⟩
      | .initialized => none
  | .binary _ left right => (left.refusal? status).or ((right.refusal? status).map (.behind left))

/-- A target is looked for before anything is read. -/
def Stmt.refusal? (status : String → Status) : Stmt → Option Refusal
  | .declaration _ init? => init?.bind (·.refusal? status)
  | .assignment name value =>
      if status name = .undeclared then some ⟨[], .unknownVariable name⟩ else value.refusal? status
  | .expression value => value.refusal? status

def Stmt.update (status : String → Status) : Stmt → String → Status
  | .declaration name none => Function.update status name .uninitialized
  | .declaration name (some _) | .assignment name _ => Function.update status name .initialized
  | .expression _ => status

structure Prediction extends Refusal where
  statement : Nat
  deriving DecidableEq, Repr

def Prediction.next (p : Prediction) : Prediction := { p with statement := p.statement + 1 }

def predict (status : String → Status) : List Stmt → Option Prediction
  | [] => none
  | x :: xs =>
      match x.refusal? status with
      | some r => some ⟨r, 0⟩
      | none => (predict (x.update status) xs).map .next

variable {env env' : Environment} {name : String}

theorem Environment.status_declare (env : Environment) (name : String) (value? : Option Int64) :
    (env.declare name value?).status = Function.update env.status name (.ofSlot (some value?)) := by
  funext other
  rw [status, slots_declare, Function.update_apply]
  split
  · rfl
  · rfl

theorem Environment.status_eq_undeclared : env.status name = .undeclared ↔ env.isDeclared name = false := by
  rw [status, isDeclared_eq]
  cases env.slots[name]? with
  | none => exact ⟨fun _ => rfl, fun _ => rfl⟩
  | some slot => cases slot <;> exact ⟨nofun, nofun⟩

theorem Stmt.status_effect {x : Stmt} {outcome : Outcome} (h : x.effect env = .ok (env', outcome)) :
    env'.status = x.update env.status := by
  cases does_of_effect h with
  | declare => exact env.status_declare _ none
  | define | assign => exact env.status_declare _ (some _)
  | tell => rfl

/-- The result is as foreseen: no error about a variable where there is no refusal, and otherwise the error of
the refusal, unless one about a number comes from an operand that is evaluated before. -/
def Meets {α : Type} (env : Environment) (refusal? : Option Refusal) (result : Except EvalError α) : Prop :=
  match refusal? with
  | none => ∀ e, result = .error e → e.aboutVariable = false
  | some r => ∃ e, result = .error e ∧
      (e = r.error ∨ e.aboutVariable = false ∧ ∃ operand ∈ r.before, operand.value env = .error e)

section

variable {α β : Type} {refusal? : Option Refusal} {result : Except EvalError α}

theorem meets_ok (env : Environment) (v : α) : Meets env none (.ok v) := nofun

theorem Meets.bind {f : α → Except EvalError β} (h : Meets env refusal? result) (hf : ∀ v, Meets env none (f v)) :
    Meets env refusal? (result >>= f) := by
  cases refusal? with
  | none =>
      intro e he
      cases result with
      | error e' => exact h e (congrArg _ (Except.error.inj he))
      | ok v => exact hf v e he
  | some refusal =>
      obtain ⟨e, rfl, h⟩ := h
      exact ⟨e, rfl, h⟩

theorem Meets.operand {left : Expr} {next? : Option Refusal} {f : Int64 → Except EvalError β}
    (h : Meets env refusal? (left.value env)) (hf : ∀ v, Meets env next? (f v)) :
    Meets env (refusal?.or (next?.map (.behind left))) (left.value env >>= f) := by
  cases refusal? with
  | some refusal =>
      obtain ⟨e, he, h⟩ := h
      rw [he]
      exact ⟨e, rfl, h⟩
  | none =>
      cases hv : left.value env with
      | error e =>
          have habout := h e hv
          cases next? with
          | none => exact fun e' he => Except.error.inj he ▸ habout
          | some next => exact ⟨e, rfl, .inr ⟨habout, left, List.mem_cons_self, hv⟩⟩
      | ok v =>
          cases next? with
          | none => exact hf v
          | some next =>
              obtain ⟨e, he, h⟩ := hf v
              refine ⟨e, he, h.imp_right ?_⟩
              rintro ⟨habout, operand, hmem, ho⟩
              exact ⟨habout, operand, List.mem_cons_of_mem left hmem, ho⟩

end

namespace Expr

theorem meets_get (env : Environment) (name : String) :
    Meets env ((identifier name).refusal? env.status) (env.get name) := by
  rw [refusal?, Environment.status, Environment.get]
  cases env.slots[name]? with
  | none => exact ⟨_, rfl, .inl rfl⟩
  | some slot =>
      cases slot with
      | none => exact ⟨_, rfl, .inl rfl⟩
      | some v => exact meets_ok env v

theorem meets_apply (env : Environment) (op : Operator) (l r : Int64) : Meets env none (op.apply l r) := by
  intro e he
  rw [Operator.apply] at he
  split at he
  · obtain rfl := Except.error.inj he
    rfl
  · split at he
    · exact nomatch he
    · obtain rfl := Except.error.inj he
      rfl

theorem meets_value (env : Environment) (e : Expr) : Meets env (e.refusal? env.status) (e.value env) := by
  induction e with
  | literal text =>
      rw [value]
      intro e he
      cases hl : Number.literal? text with
      | none =>
          rw [hl] at he
          obtain rfl := Except.error.inj he
          rfl
      | some v =>
          rw [hl] at he
          cases he
  | identifier name => exact meets_get env name
  | binary op left right ihl ihr => exact ihl.operand fun l => ihr.bind (meets_apply env op l)

theorem mem_parts_of_refusal {e : Expr} {status : String → Status} {r : Refusal} (h : e.refusal? status = some r) :
    ∀ operand ∈ r.before, operand ∈ e.parts := by
  induction e generalizing r with
  | literal text => exact nomatch h
  | identifier name =>
      rw [refusal?] at h
      split at h
      · exact Option.some.inj h ▸ fun operand ho => absurd ho List.not_mem_nil
      · exact Option.some.inj h ▸ fun operand ho => absurd ho List.not_mem_nil
      · exact nomatch h
  | binary op left right ihl ihr =>
      intro operand ho
      rcases Option.or_eq_some_iff.1 h with hl | ⟨-, hbehind⟩
      · simp [parts, ihl hl operand ho]
      · obtain ⟨r, hr, rfl⟩ := Option.map_eq_some_iff.1 hbehind
        rcases List.mem_cons.1 ho with rfl | ho
        · simp [parts, mem_parts_self]
        · simp [parts, ihr hr operand ho]

end Expr

namespace Stmt

theorem meets_effect (env : Environment) (x : Stmt) : Meets env (x.refusal? env.status) (x.effect env) := by
  cases x with
  | declaration name init? =>
      cases init? with
      | none => exact meets_ok env _
      | some init => exact (init.meets_value env).bind fun v => meets_ok env _
  | assignment name value =>
      rw [refusal?]
      cases hd : env.isDeclared name with
      | false =>
          rw [if_pos (Environment.status_eq_undeclared.2 hd), effect_assignment_undeclared hd]
          exact ⟨_, rfl, .inl rfl⟩
      | true =>
          have hne : env.status name ≠ .undeclared := fun h => by
            simp [Environment.status_eq_undeclared.1 h] at hd
          rw [if_neg hne, effect_assignment hd]
          exact (value.meets_value env).bind fun v => meets_ok env _
  | expression value => exact (value.meets_value env).bind fun v => meets_ok env _

theorem mem_parts_of_refusal {x : Stmt} {status : String → Status} {r : Refusal} (h : x.refusal? status = some r) :
    ∀ operand ∈ r.before, ∃ e ∈ x.expr?, operand ∈ e.parts := by
  cases x with
  | declaration name init? =>
      cases init? with
      | none => exact nomatch h
      | some init => exact fun operand ho => ⟨init, rfl, Expr.mem_parts_of_refusal h operand ho⟩
  | assignment name value =>
      rw [refusal?] at h
      split at h
      · exact Option.some.inj h ▸ fun operand ho => absurd ho List.not_mem_nil
      · exact fun operand ho => ⟨value, rfl, Expr.mem_parts_of_refusal h operand ho⟩
  | expression value => exact fun operand ho => ⟨value, rfl, Expr.mem_parts_of_refusal h operand ho⟩

end Stmt

end IntScript
