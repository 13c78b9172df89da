import IntScript.Proofs.Evaluation.Status
import IntScript.Proofs.Session.Stop
import IntScript.Proofs.Session.Whole

namespace IntScript

namespace Execution

variable {env : Environment} {xs : List Stmt} {p : Prediction} {e : EvalError}

theorem error_of_predict (h : predict env.status xs = none) (he : (of env xs).error? = some e) :
    e.aboutVariable = false := by
  induction xs generalizing env with
  | nil => exact nomatch he
  | cons x xs ih =>
      have hmeets := x.meets_effect env
      rw [predict] at h
      cases hr : x.refusal? env.status with
      | some r =>
          rw [hr] at h
          exact nomatch h
      | none =>
          rw [hr] at h hmeets
          cases hx : x.effect env with
          | error e' =>
              rw [of_cons_error hx] at he
              obtain rfl := Option.some.inj he
              exact hmeets e' hx
          | ok result =>
              rw [of_cons_ok hx] at he
              refine ih ?_ he
              rw [Stmt.status_effect hx]
              exact Option.map_eq_none_iff.1 h

/-- The predicted error stops the execution, or one about a number does so before. -/
theorem stopsAt_of_predict (h : predict env.status xs = some p) :
    ∃ k e, StopsAt env xs k e ∧ (k = p.statement ∧ e = p.error ∨ e.aboutVariable = false ∧
      (k < p.statement ∨ k = p.statement ∧ ∃ operand ∈ p.before, operand.value (of env (xs.take k)).env = .error e)) := by
  induction xs generalizing env p with
  | nil => exact nomatch h
  | cons x xs ih =>
      have hmeets := x.meets_effect env
      rw [predict] at h
      cases hr : x.refusal? env.status with
      | some r =>
          rw [hr] at h hmeets
          obtain rfl := Option.some.inj h
          obtain ⟨e, hx, h⟩ := hmeets
          exact ⟨0, e, stopsAt_zero hx, h.imp (⟨rfl, ·⟩) fun h => ⟨h.1, .inr ⟨rfl, h.2⟩⟩⟩
      | none =>
          rw [hr] at h hmeets
          obtain ⟨p, hp, rfl⟩ := Option.map_eq_some_iff.1 h
          -- A statement that succeeds leaves what the pass supposes, so that the rest is predicted from there.
          cases hx : x.effect env with
          | error e => exact ⟨0, e, stopsAt_zero hx, .inr ⟨hmeets e hx, .inl (Nat.succ_pos _)⟩⟩
          | ok result =>
              rw [← Stmt.status_effect hx] at hp
              obtain ⟨k, e, hstops, h⟩ := ih hp
              refine ⟨k + 1, e, (stopsAt_succ hx).2 hstops, ?_⟩
              rw [List.take_succ_cons, of_cons_ok hx]
              rcases h with ⟨rfl, he⟩ | ⟨habout, hlt | ⟨rfl, h⟩⟩
              · exact .inl ⟨rfl, he⟩
              · exact .inr ⟨habout, .inl (Nat.succ_lt_succ hlt)⟩
              · exact .inr ⟨habout, .inr ⟨rfl, h⟩⟩

end Execution

theorem mem_parts_of_predict {status : String → Status} {xs : List Stmt} {p : Prediction}
    (h : predict status xs = some p) :
    ∃ x, xs[p.statement]? = some x ∧ ∀ operand ∈ p.before, ∃ e ∈ x.expr?, operand ∈ e.parts := by
  induction xs generalizing status p with
  | nil => exact nomatch h
  | cons x xs ih =>
      rw [predict] at h
      cases hr : x.refusal? status with
      | some r =>
          rw [hr] at h
          obtain rfl := Option.some.inj h
          exact ⟨x, rfl, Stmt.mem_parts_of_refusal hr⟩
      | none =>
          rw [hr] at h
          obtain ⟨p, hp, rfl⟩ := Option.map_eq_some_iff.1 h
          exact ih hp

theorem Expr.map_value_ne (e : Expr) (env : Environment) : (e.value env).map some ≠ .ok none := by
  cases e.value env with
  | error err => exact nofun
  | ok v => exact nofun

namespace Arena

/-- Answers that evaluation provides for and never gives: an operand without a value, a declared variable that
cannot be set, and a statement without a value that neither declares nor assigns. -/
structure Unneeded (a : Arena) : Prop where
  operand : ∀ id n, a.node? id = some n → n.type ≠ .program → ∀ child ∈ n.children, ∀ budget, child < budget →
    ∀ depth run run', (Eval.within a budget child depth).run.run run ≠ some (.ok none, run')
  assign : ∀ id name child, a.node? id = some (.assignment name child) → ∀ budget, child < budget →
    ∀ depth run run' value?, run.env.isDeclared name = true →
      (Eval.within a budget child depth).run.run run = some (.ok value?, run') →
        ∀ v, ∃ env, run'.env.assign name v = .ok env
  statement : ∀ id ∈ a.statements, ∀ n, a.node? id = some n → n.statementType ≠ .declaration →
    n.statementType ≠ .assignment → ∀ env, (a.evaluateNode id env).1 ≠ .ok none

variable {a : Arena} {id : Nat} {e operand : Expr} {x : Stmt} {xs : List Stmt}

theorem Holds.part (h : a.Holds id e) (hp : operand ∈ e.parts) : ∃ i, a.Holds i operand := by
  induction e generalizing id with
  | literal text | identifier name => exact ⟨id, List.mem_singleton.1 hp ▸ h⟩
  | binary op left right ihl ihr =>
      have hself := h
      obtain ⟨i, j, -, hl, hr⟩ := h
      simp only [Expr.parts, List.mem_append, List.mem_singleton] at hp
      rcases hp with (hp | hp) | rfl
      · exact ihl hl hp
      · exact ihr hr hp
      · exact ⟨id, hself⟩

theorem HoldsStmt.part (h : a.HoldsStmt id x) (he : e ∈ x.expr?) (hp : operand ∈ e.parts) : ∃ i, a.Holds i operand := by
  cases x with
  | declaration name init? =>
      obtain rfl : init? = some e := he
      obtain ⟨i, -, hi⟩ := h
      exact hi.part hp
  | assignment name value =>
      obtain rfl := Option.some.inj he
      obtain ⟨i, -, hi⟩ := h
      exact hi.part hp
  | expression value =>
      obtain rfl := Option.some.inj he
      exact Holds.part h hp

section

variable (ha : a.Ordered)
include ha

theorem run_within_of_holds (h : a.Holds id e) {budget : Nat} (hb : id < budget) (depth : Nat) (run : Run) :
    ∃ run', (Eval.within a budget id depth).run.run run = some ((e.value run.env).map some, run') ∧ run'.env = run.env := by
  rw [Eval.within_plain ha hb]
  exact Eval.runs_value ha h depth run.env run rfl

theorem evaluateNode_value (h : a.Holds id e) (env : Environment) : (a.evaluateNode id env).1 = (e.value env).map some := by
  obtain ⟨n, hn, -⟩ := h.statementType
  obtain ⟨run, hrun, -⟩ := Session.evaluateNode_of_leaves ha (lt_size_of_node? hn) (Eval.runs_value ha h 0 env)
  rw [hrun]

theorem unneeded_of_typed (ht : a.Typed) (h : a.HoldsProgram xs) : a.Unneeded where
  operand id n hn hne child hc budget hb depth run run' hrun := by
    obtain ⟨e, he⟩ := ht id n hn hne child hc
    obtain ⟨run'', hvalue, -⟩ := run_within_of_holds ha he hb depth run
    exact e.map_value_ne run.env (Prod.mk.inj (Option.some.inj (hvalue.symm.trans hrun))).1
  assign id name child hn budget hb depth run run' value? hd hrun v := by
    obtain ⟨e, he⟩ := ht id _ hn nofun child List.mem_cons_self
    obtain ⟨run'', hvalue, henv⟩ := run_within_of_holds ha he hb depth run
    obtain ⟨-, rfl⟩ := Prod.mk.inj (Option.some.inj (hvalue.symm.trans hrun))
    rw [henv, Environment.assign, if_pos hd]
    exact ⟨_, rfl⟩
  statement id hid n hn hd has env henv := by
    obtain ⟨k, hk⟩ := List.getElem?_of_mem hid
    obtain ⟨x, -, hh⟩ := exists_stmt h.statements hk
    obtain ⟨m, hm, hty⟩ := hh.statementType
    obtain rfl := Option.some.inj (hn.symm.trans hm)
    cases x with
    | declaration => exact absurd hty hd
    | assignment => exact absurd hty has
    | expression value =>
        rw [evaluateNode_value ha hh env] at henv
        exact value.map_value_ne env henv

end

end Arena

namespace Session

/-- Evaluation has an error about a variable just where it is predicted, and no error but one about a number
takes its place: from a statement before, or from an operand that is evaluated before. -/
structure Foretold (s : Session) (a : Arena) (xs : List Stmt) : Prop where
  holds : a.HoldsProgram xs
  accepted : predict s.env.status xs = none → ∀ e, (a.evaluate s.env).1 = .error e → e.aboutVariable = false
  refused : ∀ p, predict s.env.status xs = some p → ∃ k e, (a.evaluate s.env).1 = .error e ∧ s.FailsAt a k e ∧
    (k = p.statement ∧ e = p.error ∨ e.aboutVariable = false ∧ (k < p.statement ∨ k = p.statement ∧
      ∃ operand ∈ p.before, ∃ id, a.Holds id operand ∧
        (a.evaluateNode id (s.executeFirst a k).session.env).1 = .error e))

theorem foretold_of_holds {a : Arena} {xs : List Stmt} (ha : a.Ordered) (h : a.HoldsProgram xs) (s : Session) :
    s.Foretold a xs where
  holds := h
  accepted hp e he := by
    rw [(Arena.evaluate_eq ha h s.env).1, Execution.result] at he
    cases hx : (Execution.of s.env xs).error? with
    | none =>
        rw [hx] at he
        cases he
    | some e' =>
        rw [hx] at he
        obtain rfl := Except.error.inj he
        exact Execution.error_of_predict hp hx
  refused p hp := by
    obtain ⟨k, e, hstops, h'⟩ := Execution.stopsAt_of_predict hp
    refine ⟨k, e, ?_, (failsAt_iff ha h).2 hstops, h'.imp_right ?_⟩
    · rw [(Arena.evaluate_eq ha h s.env).1, Execution.result, hstops.of_eq.1]
    · rintro ⟨habout, hlt | ⟨rfl, operand, hmem, hv⟩⟩
      · exact ⟨habout, .inl hlt⟩
      · obtain ⟨x, hx, hparts⟩ := mem_parts_of_predict hp
        obtain ⟨e', he', hpart⟩ := hparts operand hmem
        obtain ⟨i, -, hh⟩ := Arena.exists_place h.statements hx
        obtain ⟨j, hj⟩ := hh.part he' hpart
        refine ⟨habout, .inr ⟨rfl, operand, hmem, j, hj, ?_⟩⟩
        rw [(executeFirst_tells ha h s p.statement).session, Arena.evaluateNode_value ha hj, hv]
        rfl

/-- What is known of the variables without their values is enough to foretell every error about a variable. -/
theorem variables_foretold (c : Cursor) (a : Arena) (h : (parseProgram c).result = .ok a) :
    a.Unneeded ∧ ∃ xs, ∀ s : Session, s.Foretold a xs := by
  obtain ⟨xs, -, rfl⟩ := Grammar.program_of_parseProgram h
  have ha := Arena.ordered_graftProgram xs
  have hholds := Grammar.holdsProgram_empty xs
  exact ⟨Arena.unneeded_of_typed ha (Arena.typed_empty.graftProgram [] xs) hholds, xs, foretold_of_holds ha hholds⟩

def declaredQuotient : List Stmt := [.declaration "x" none, .expression (.binary .div (.identifier "x") (.literal "0"))]

example : predict (fun _ => .undeclared) declaredQuotient = some ⟨⟨[], .uninitializedVariable "x"⟩, 1⟩ := by decide

theorem variables_foretold_quotient :
    (parseProgram (.start (tokenize "int x; x / 0;"))).result = .ok (Arena.empty.graftProgram [] declaredQuotient) ∧
    (Arena.empty.graftProgram [] declaredQuotient).Unneeded ∧
    ∃ xs, ∀ s : Session, s.Foretold (Arena.empty.graftProgram [] declaredQuotient) xs :=
  ⟨rfl, variables_foretold (.start (tokenize "int x; x / 0;")) _ rfl⟩

end Session

end IntScript
