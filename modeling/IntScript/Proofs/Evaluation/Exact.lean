import IntScript.Proofs.Evaluation.Run
import IntScript.Proofs.Grammar.Literal

namespace IntScript.Expr

open Number

/-- The value over the unbounded integers. A variable without a value counts as zero, and a quotient
is rounded toward zero. -/
def exact (env : Environment) : Expr → Int
  | .literal text => decimal text
  | .identifier name => (env.slots[name]?.join).elim 0 Int64.toInt
  | .binary .add left right => left.exact env + right.exact env
  | .binary .sub left right => left.exact env - right.exact env
  | .binary .mul left right => left.exact env * right.exact env
  | .binary .div left right => (left.exact env).tdiv (right.exact env)

/-- What there has to be for an expression to have a value. -/
structure Sound (env : Environment) (e : Expr) : Prop where
  literals : ∀ text, .literal text ∈ e.parts → decimal text ≤ maxValue
  identifiers : ∀ name, .identifier name ∈ e.parts → ∃ v, env.slots[name]? = some (some v)
  divisors : ∀ left right, .binary .div left right ∈ e.parts → right.exact env ≠ 0
  values : ∀ x ∈ e.parts, InRange (x.exact env)

/-- The part of this that concerns the last step alone. -/
def Fine (env : Environment) : Expr → Prop
  | .literal text => decimal text ≤ maxValue
  | .identifier name => ∃ v, env.slots[name]? = some (some v)
  | .binary op left right =>
      (op = .div → right.exact env ≠ 0) ∧ InRange ((Expr.binary op left right).exact env)

/-- The error with which the last step fails where the operands have values. -/
inductive Fails (env : Environment) : Expr → EvalError → Prop
  | literal {text} (h : maxValue < decimal text) : Fails env (.literal text) (.invalidLiteral text)
  | undefined {name} (h : env.slots[name]? = none) : Fails env (.identifier name) (.undefinedVariable name)
  | uninitialized {name} (h : env.slots[name]? = some none) :
      Fails env (.identifier name) (.uninitializedVariable name)
  | division {left right} (h : right.exact env = 0) : Fails env (.binary .div left right) .divisionByZero
  | overflow {op left right} {l r : Int64} (hl : l.toInt = left.exact env) (hr : r.toInt = right.exact env)
      (hd : op = .div → right.exact env ≠ 0) (h : ¬ InRange ((Expr.binary op left right).exact env)) :
      Fails env (.binary op left right) (.overflow l op r)

/-- The exact value, or the error of the first part that fails. -/
inductive Answers (env : Environment) (e : Expr) : Except EvalError (Option Int64) → Prop
  | value {v : Int64} (h : ∀ x ∈ e.parts, x.Fine env) (hv : v.toInt = e.exact env) :
      Answers env e (.ok (some v))
  | error {before x after err} (hp : e.parts = before ++ x :: after) (hb : ∀ y ∈ before, y.Fine env)
      (hf : x.Fails env err) : Answers env e (.error err)

variable {env : Environment} {e left right : Expr} {op : Operator}

theorem Answers.of_fine {v : Int64} (hp : e.parts = [e]) (hf : e.Fine env) (hv : v.toInt = e.exact env) :
    Answers env e (.ok (some v)) := by
  refine .value (fun x hx => ?_) hv
  rw [hp, List.mem_singleton] at hx
  rwa [hx]

theorem Answers.of_fails {err : EvalError} (hp : e.parts = [e]) (hf : e.Fails env err) :
    Answers env e (.error err) := by
  refine .error (hp.trans (List.nil_append [e]).symm) ?_ hf
  exact fun _ hy => absurd hy List.not_mem_nil

theorem Fails.not_fine {err : EvalError} (h : e.Fails env err) : ¬ e.Fine env := by
  intro hfine
  cases h with
  | literal h =>
      rw [Fine] at hfine
      omega
  | undefined h =>
      obtain ⟨v, hv⟩ := hfine
      exact nomatch h.symm.trans hv
  | uninitialized h =>
      obtain ⟨v, hv⟩ := hfine
      exact nomatch h.symm.trans hv
  | division h => exact hfine.1 rfl h
  | overflow _ _ _ h => exact h hfine.2

theorem exact_binary {l r : Int64} (hl : l.toInt = left.exact env) (hr : r.toInt = right.exact env) :
    op.exact l.toInt r.toInt = (Expr.binary op left right).exact env := by
  rw [hl, hr]
  cases op <;> rfl

theorem apply_answers (op : Operator) {l r : Int64} (hl : l.toInt = left.exact env) (hr : r.toInt = right.exact env) :
    (∃ v, op.apply l r = .ok v ∧ v.toInt = (Expr.binary op left right).exact env ∧
      (Expr.binary op left right).Fine env) ∨
    ∃ err, op.apply l r = .error err ∧ (Expr.binary op left right).Fails env err := by
  by_cases hd : op = .div ∧ r = 0
  · obtain ⟨rfl, rfl⟩ := hd
    exact .inr ⟨.divisionByZero, rfl, .division (by rw [← hr]; rfl)⟩
  have hne : op = .div → right.exact env ≠ 0 := by
    intro hop hz
    exact hd ⟨hop, Int64.toInt_inj.1 (hr.trans hz)⟩
  rw [Operator.apply, if_neg hd, exact_binary hl hr]
  by_cases hin : InRange ((Expr.binary op left right).exact env)
  · obtain ⟨v, hv, hval⟩ := ofInt?_of_inRange hin
    exact .inl ⟨v, by rw [hv], hval, hne, hin⟩
  · exact .inr ⟨.overflow l op r, by rw [ofInt?_of_not_inRange hin], .overflow hl hr hne hin⟩

theorem get_answers (env : Environment) (name : String) :
    Answers env (.identifier name) ((env.get name).map some) := by
  rw [Environment.get]
  cases h : env.slots[name]? with
  | none => exact .of_fails rfl (.undefined h)
  | some slot =>
      cases slot with
      | none => exact .of_fails rfl (.uninitialized h)
      | some v => exact .of_fine rfl ⟨v, h⟩ (by simp [exact, h])

theorem literal_answers (env : Environment) {text : String} (h : IsDecimal text) :
    (∃ v, literal? text = some v ∧ Answers env (.literal text) (.ok (some v))) ∨
      literal? text = none ∧ Answers env (.literal text) (.error (.invalidLiteral text)) := by
  have hpos : minValue ≤ decimal text := by
    simp only [minValue]
    omega
  rw [literal?_eq h]
  by_cases hle : decimal text ≤ maxValue
  · obtain ⟨v, hv, hval⟩ := ofInt?_of_inRange ⟨hpos, hle⟩
    exact .inl ⟨v, hv, .of_fine rfl hle hval⟩
  · have hlt : maxValue < decimal text := Int.lt_of_not_ge hle
    exact .inr ⟨ofInt?_of_not_inRange fun hin => hle hin.2, .of_fails rfl (.literal hlt)⟩

theorem Answers.left_error {err : EvalError} (h : Answers env left (.error err)) :
    Answers env (.binary op left right) (.error err) := by
  cases h with
  | error hp hb hf => exact .error (by rw [parts, hp, List.append_assoc, List.append_assoc, List.cons_append]) hb hf

theorem Answers.right_error {err : EvalError} (hl : ∀ x ∈ left.parts, x.Fine env)
    (h : Answers env right (.error err)) : Answers env (.binary op left right) (.error err) := by
  cases h with
  | @error before x after _ hp hb hf =>
      have hparts : (binary op left right).parts =
          (left.parts ++ before) ++ x :: (after ++ [binary op left right]) := by
        simp [parts, hp]
      refine .error hparts (fun y hy => ?_) hf
      rcases List.mem_append.1 hy with hy | hy
      · exact hl y hy
      · exact hb y hy

theorem answers_apply {l r : Int64} (hl : Answers env left (.ok (some l))) (hr : Answers env right (.ok (some r))) :
    Answers env (.binary op left right) ((op.apply l r).map some) := by
  cases hl with
  | value hfl hvl =>
      cases hr with
      | value hfr hvr =>
          have hfine : ∀ x ∈ left.parts ++ right.parts, x.Fine env := by
            intro x hx
            rcases List.mem_append.1 hx with hx | hx
            · exact hfl x hx
            · exact hfr x hx
          rcases apply_answers op hvl hvr with ⟨v, hv, hval, hself⟩ | ⟨err, herr, hf⟩
          · rw [hv]
            refine .value (fun x hx => ?_) hval
            rcases List.mem_append.1 hx with hx | hx
            · exact hfine x hx
            · obtain rfl := List.mem_singleton.1 hx
              exact hself
          · rw [herr]
            exact .error rfl hfine hf

open Eval in
theorem plain_answers {a : Arena} (ha : a.Ordered) {id : Nat} (hh : a.Holds id e)
    (hd : ∀ text, .literal text ∈ e.parts → IsDecimal text) (env : Environment) (depth : Nat) :
    ∃ result, Answers env e result ∧ Runs (plain a id depth) env result := by
  -- The operands leave the variables as they are, so that one environment serves for all parts.
  induction e generalizing id depth with
  | literal text =>
      rcases literal_answers env (hd text (mem_parts_self _)) with ⟨v, hv, hans⟩ | ⟨hnone, hans⟩
      · exact ⟨_, hans, runs_literal ha hh hv⟩
      · exact ⟨_, hans, runs_literal_error ha hh hnone⟩
  | identifier name => exact ⟨_, get_answers env name, runs_identifier ha hh⟩
  | binary op left right ihl ihr =>
      obtain ⟨i, j, hn, hl, hr⟩ := hh
      obtain ⟨rl, hal, hrunl⟩ := ihl hl (fun text ht => hd text (by simp [parts, ht])) (depth + 1)
      obtain ⟨rr, har, hrunr⟩ := ihr hr (fun text ht => hd text (by simp [parts, ht])) (depth + 1)
      cases hal with
      | error hp hb hf => exact ⟨_, (Answers.error hp hb hf).left_error, runs_left_error ha hn hrunl⟩
      | value hfl hvl =>
          cases har with
          | error hp hb hf =>
              exact ⟨_, Answers.right_error hfl (.error hp hb hf), runs_right_error ha hn hrunl hrunr⟩
          | value hfr hvr =>
              exact ⟨_, answers_apply (.value hfl hvl) (.value hfr hvr), runs_apply ha hn hrunl hrunr⟩

theorem evaluateNode_answers {a : Arena} (ha : a.Ordered) {id : Nat} (hh : a.Holds id e)
    (hd : ∀ text, .literal text ∈ e.parts → IsDecimal text) (hid : id < a.size) (env : Environment) :
    Answers env e (a.evaluateNode id env).1 := by
  obtain ⟨result, hans, hrun⟩ := plain_answers ha hh hd env 0
  obtain ⟨run, hr, -⟩ := hrun (.start env) rfl
  have he := (Eval.evaluateNode_plain ha hid env).symm.trans hr
  rwa [Option.some.inj he]

theorem Fine.inRange (h : e.Fine env) : InRange (e.exact env) := by
  cases e with
  | literal text =>
      refine ⟨?_, h⟩
      simp only [minValue, exact]
      omega
  | identifier name =>
      obtain ⟨v, hv⟩ := h
      simpa [exact, hv] using inRange_toInt v
  | binary op left right => exact h.2

theorem sound_iff : e.Sound env ↔ ∀ x ∈ e.parts, x.Fine env := by
  constructor
  · intro h x hx
    cases x with
    | literal text => exact h.literals text hx
    | identifier name => exact h.identifiers name hx
    | binary op left right =>
        refine ⟨?_, h.values _ hx⟩
        rintro rfl
        exact h.divisors left right hx
  · intro h
    refine ⟨fun _ ht => h _ ht, fun _ hname => h _ hname, fun _ _ hd => (h _ hd).1 rfl, ?_⟩
    exact fun x hx => (h x hx).inRange

theorem Answers.not_sound {err : EvalError} (h : Answers env e (.error err)) : ¬ e.Sound env := by
  cases h with
  | @error before x after _ hp hb hf =>
      intro hs
      exact hf.not_fine (sound_iff.1 hs x (by simp [hp]))

theorem Fails.quotient {l r : Int64} (h : e.Fails env (.overflow l .div r)) :
    l.toInt = minValue ∧ r.toInt = -1 := by
  cases h with
  | overflow hl hr _ h =>
      rw [exact, ← hl, ← hr] at h
      exact inRange_tdiv (inRange_toInt l) (inRange_toInt r) h

/-- Evaluation is exact: an expression has its value over the unbounded integers if it and all its parts
have one that fits, and otherwise the error of the first part that has none. -/
theorem evaluateNode_exact (source : String) (a : Arena)
    (h : parse source = .ok a ∨ parseExpression source = .ok a) (id : Nat) (n : Node)
    (hn : a.node? id = some n) (hx : n.statementType = .expressionStatement) (env : Environment) :
    ∃ e, a.Holds id e ∧
      ((∃ v, (a.evaluateNode id env).1 = .ok (some v)) ↔ e.Sound env) ∧
      (∀ v, (a.evaluateNode id env).1 = .ok (some v) → v.toInt = e.exact env) ∧
      (¬ e.Sound env → ∃ err before x after, (a.evaluateNode id env).1 = .error err ∧
        e.parts = before ++ x :: after ∧ (∀ y ∈ before, y.Fine env) ∧ x.Fails env err) ∧
      ∀ l r, (a.evaluateNode id env).1 = .error (.overflow l .div r) →
        l.toInt = minValue ∧ r.toInt = -1 := by
  have hs := Grammar.sourced_of_parse h
  obtain ⟨e, hh, hd⟩ := hs.expression id n hn hx
  have hans := evaluateNode_answers hs.ordered hh hd (Arena.lt_size_of_node? hn) env
  refine ⟨e, hh, ?_⟩
  generalize (a.evaluateNode id env).1 = result at hans
  cases hans with
  | @value v hfine hv =>
      have hsound := sound_iff.2 hfine
      refine ⟨⟨fun _ => hsound, fun _ => ⟨v, rfl⟩⟩, fun w hw => ?_, fun hns => absurd hsound hns, nofun⟩
      obtain rfl := Option.some.inj (Except.ok.inj hw)
      exact hv
  | @error before x after err hp hb hf =>
      have hns := (Answers.error hp hb hf).not_sound
      refine ⟨⟨nofun, fun hsound => absurd hsound hns⟩, nofun, fun _ => ⟨err, before, x, after, rfl, hp, hb, hf⟩, ?_⟩
      intro l r he
      rw [Except.error.inj he] at hf
      exact hf.quotient

/-- The tree of `7 / 0 - x;`. -/
def quotientByZero : Arena := Arena.empty.graftProgram []
  [.expression (.binary .sub (.binary .div (.literal "7") (.literal "0")) (.identifier "x"))]

theorem evaluateNode_exact_quotient :
    parse "7/0-x;" = .ok quotientByZero ∧ quotientByZero.node? 4 = some (.binary .sub 2 3) ∧
    (Node.binary .sub 2 3).statementType = .expressionStatement ∧
    ∃ e, quotientByZero.Holds 4 e ∧
      ((∃ v, (quotientByZero.evaluateNode 4 .empty).1 = .ok (some v)) ↔ e.Sound .empty) ∧
      (∀ v, (quotientByZero.evaluateNode 4 .empty).1 = .ok (some v) → v.toInt = e.exact .empty) ∧
      (¬ e.Sound .empty → ∃ err before x after, (quotientByZero.evaluateNode 4 .empty).1 = .error err ∧
        e.parts = before ++ x :: after ∧ (∀ y ∈ before, y.Fine .empty) ∧ x.Fails .empty err) ∧
      ∀ l r, (quotientByZero.evaluateNode 4 .empty).1 = .error (.overflow l .div r) →
        l.toInt = minValue ∧ r.toInt = -1 :=
  ⟨rfl, rfl, rfl, evaluateNode_exact "7/0-x;" quotientByZero (.inl rfl) 4 (.binary .sub 2 3) rfl rfl .empty⟩

end IntScript.Expr
