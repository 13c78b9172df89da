import IntScript.Proofs.Evaluation.Meaning
import IntScript.Proofs.Grammar.Join
import IntScript.Session.Basic

namespace IntScript

structure Execution where
  env : Environment
  outcomes : List Outcome
  error? : Option EvalError

namespace Execution

def of (env : Environment) : List Stmt → Execution
  | [] => ⟨env, [], none⟩
  | x :: xs =>
      match x.effect env with
      | .ok (env, outcome) => { of env xs with outcomes := outcome :: (of env xs).outcomes }
      | .error e => ⟨env, [], some e⟩

def andThen (r : Execution) (xs : List Stmt) : Execution :=
  match r.error? with
  | some _ => r
  | none => { of r.env xs with outcomes := r.outcomes ++ (of r.env xs).outcomes }

variable {env env' : Environment} {x : Stmt} {outcome : Outcome} {e : EvalError}

theorem of_cons_ok (h : x.effect env = .ok (env', outcome)) (xs : List Stmt) :
    of env (x :: xs) = { of env' xs with outcomes := outcome :: (of env' xs).outcomes } := by
  rw [of, h]

theorem of_cons_error (h : x.effect env = .error e) (xs : List Stmt) : of env (x :: xs) = ⟨env, [], some e⟩ := by
  rw [of, h]

theorem of_append (env : Environment) (xs ys : List Stmt) : of env (xs ++ ys) = (of env xs).andThen ys := by
  induction xs generalizing env with
  | nil => simp [of, andThen]
  | cons x xs ih =>
      rw [List.cons_append, of, of]
      cases x.effect env with
      | error e => rfl
      | ok result =>
          simp only [ih, andThen]
          split
          · rfl
          · rw [List.cons_append]

end Execution

structure Report.Tells (r : Report) (s : Session) (x : Execution) : Prop where
  session : r.session = { s with env := x.env }
  outcomes : r.outcomes = x.outcomes.toArray
  error? : r.error? = x.error?.map .eval

theorem Report.Tells.error?_eq_none {r : Report} {s : Session} {x : Execution} (h : r.Tells s x)
    (hx : x.error? = none) : r.error? = none := by
  rw [h.error?, hx]
  rfl

theorem Report.Tells.error?_eq_some {r : Report} {s : Session} {x : Execution} {e : EvalError} (h : r.Tells s x)
    (hx : x.error? = some e) : r.error? = some (.eval e) := by
  rw [h.error?, hx]
  rfl

theorem Report.Tells.after {r : Report} {s : Session} {x : Execution} (h : r.Tells s x) (events : Array Event) :
    (r.after events).Tells s x := ⟨h.session, h.outcomes, h.error?⟩

namespace Session

variable {a : Arena} {id : Nat} {x : Stmt} {xs : List Stmt} {source : String}

theorem evaluateNode_of_leaves (ha : a.Ordered) (hid : id < a.size) {env env' : Environment}
    {result : Except EvalError (Option Int64)} (h : Eval.Leaves (Eval.plain a id 0) env result env') :
    ∃ run, a.evaluateNode id env = (result, run) ∧ run.env = env' := by
  obtain ⟨run, hrun, henv⟩ := h (.start env) rfl
  exact ⟨run, Option.some.inj ((Eval.evaluateNode_plain ha hid env).symm.trans hrun), henv⟩

theorem size_of_holdsStmt (h : a.HoldsStmt id x) : id < a.size := by
  obtain ⟨n, hn, -⟩ := h.statementType
  exact Arena.lt_size_of_node? hn

theorem executeFrom_holds (ha : a.Ordered) {ids : List Nat} (h : List.Forall₂ a.HoldsStmt ids xs)
    (r : Report) (hr : r.error? = none) :
    (executeFrom a ids r).session = { r.session with env := (Execution.of r.session.env xs).env } ∧
    (executeFrom a ids r).outcomes = r.outcomes ++ (Execution.of r.session.env xs).outcomes.toArray ∧
    (executeFrom a ids r).error? = (Execution.of r.session.env xs).error?.map .eval := by
  induction h generalizing r with
  | nil => exact ⟨rfl, by simp [executeFrom, Execution.of], hr⟩
  | @cons id x ids xs hx _ ih =>
      obtain ⟨s, outcomes, events, error?⟩ := r
      have hid := size_of_holdsStmt hx
      have heff := Eval.effects_statement ha hx 0 s.env
      rw [executeFrom, Execution.of]
      cases hx : x.effect s.env with
      | error err =>
          rw [hx] at heff
          obtain ⟨run, hrun, henv⟩ := evaluateNode_of_leaves ha hid heff
          rw [hrun]
          exact ⟨by rw [← henv], by simp, rfl⟩
      | ok result =>
          obtain ⟨env', outcome⟩ := result
          rw [hx] at heff
          obtain ⟨value?, hl, htold⟩ := heff
          obtain ⟨run, hrun, rfl⟩ := evaluateNode_of_leaves ha hid hl
          rw [hrun]
          obtain ⟨hs, ho, he⟩ := ih ⟨{ s with env := run.env }, outcomes.push outcome,
            events ++ run.steps.map .step, none⟩ rfl
          rw [Eval.told] at htold
          dsimp only
          rw [htold]
          exact ⟨hs, ho.trans (by simp), he⟩

theorem execute_tells (ha : a.Ordered) (h : a.HoldsProgram xs) (s : Session) :
    (s.execute a).Tells s (Execution.of s.env xs) := by
  obtain ⟨hsession, houtcomes, herror⟩ := executeFrom_holds ha h.statements ⟨s, #[], #[], none⟩ rfl
  exact ⟨hsession, houtcomes.trans (by simp), herror⟩

theorem run_tells (h : Parses source xs) (s : Session) : (s.run source).Tells s (Execution.of s.env xs) := by
  have hp : (parseProgram (.start (tokenize source))).result = .ok (Arena.empty.graftProgram [] xs) := h.parse_eq
  obtain ⟨hs, ho, he⟩ := execute_tells (Arena.ordered_graftProgram xs) (Grammar.holdsProgram_empty xs) s
  rw [run, hp]
  exact ⟨hs, ho, he⟩

end Session

end IntScript
