import IntScript.Proofs.Evaluation.Steps
import IntScript.Proofs.Grammar.Written
import IntScript.Proofs.Session.Atomic
import IntScript.Proofs.Session.Whole

namespace IntScript

def Event.step? : Event → Option Step
  | .step s => some s
  | _ => none

/-- The outcome is of the kind of the statement, and tells what the variable that this sets holds now. -/
def Node.Yields (n : Node) (env : Environment) : Outcome → Prop
  | .binding name value? => n.target? = some name ∧ env.slots[name]? = some value?
  | .value _ => n.statementType = .expressionStatement

def Node.WithoutValue (n : Node) : Prop := ∃ name, n = .declaration name none

namespace Session

structure Evaluates (s : Session) (a : Arena) (r : Report) : Prop where
  session : r.session = { s with env := (a.evaluate s.env).2.env }
  error? : r.error? = match (a.evaluate s.env).1 with
    | .ok _ => none
    | .error e => some (.eval e)
  value : ∀ value?, (a.evaluate s.env).1 = .ok value? → r.outcomes.size = a.statements.length ∧
    value? = r.outcomes.back?.bind Outcome.value? ∧
    (value? = none ↔ ∀ id ∈ a.statements.getLast?, ∃ n ∈ a.node? id, n.WithoutValue)
  outcomes : ∀ k outcome, r.outcomes[k]? = some outcome → ∃ id n run, a.statements[k]? = some id ∧
    a.node? id = some n ∧ a.evaluateNode id (s.executeFirst a k).session.env = (.ok outcome.value?, run) ∧
    n.Yields run.env outcome
  steps : (a.evaluate s.env).2.steps = #[.calculating 0 .program "program"] ++
    (r.events.filterMap Event.step?).map (Step.sink 1) ++
    match (a.evaluate s.env).1 with
    | .ok value? => #[.result 0 value?]
    | .error _ => #[]

variable {a : Arena} {id : Nat} {n : Node} {x : Stmt} {xs : List Stmt} {env env' : Environment} {outcome : Outcome}

theorem executeFrom_steps (ha : a.Ordered) {ids : List Nat} (hids : ∀ id ∈ ids, id < a.size) (r : Report)
    (value? : Option Int64) (steps : Array Step) :
    ∃ (result : Except EvalError (Option Int64)) (env' : Environment) (noted : Array Step),
      (ids.foldlM (fun _ id => Eval.plain a id 1) value?).run.run ⟨r.session.env, steps⟩ =
      some (result, ⟨env', steps ++ noted.map (Step.sink 1)⟩) ∧
      (executeFrom a ids r).events = r.events ++ noted.map .step := by
  -- The steps are noted behind any others, so that the rest of the statements can go on from here.
  induction ids generalizing r value? steps with
  | nil =>
      refine ⟨.ok value?, r.session.env, #[], ?_, by simp [executeFrom]⟩
      rw [Array.map_empty, Array.append_empty]
      rfl
  | cons id ids ih =>
      obtain ⟨s, outcomes, events, error?⟩ := r
      have hid := hids id List.mem_cons_self
      obtain ⟨result, env', noted, hrun, hdeeper⟩ := Eval.deeper_parallel.plain ha hid 0 s.env #[] steps
      have hnode : a.evaluateNode id s.env = (result, ⟨env', noted⟩) := by
        have hplain := Eval.evaluateNode_plain ha hid s.env
        rw [Run.start, hrun, Array.empty_append] at hplain
        exact (Option.some.inj hplain).symm
      rw [List.foldlM_cons, executeFrom, hnode]
      cases result with
      | error e =>
          exact ⟨.error e, env', noted, Eval.run_bind_error hdeeper, rfl⟩
      | ok v? =>
          obtain ⟨result, env'', more, hfold, hevents⟩ := ih (fun i hi => hids i (List.mem_cons_of_mem id hi))
            ⟨{ s with env := env' }, outcomes.push ((a.node? id).elim (.binding "" v?) (.ofStatement · v?)),
              events ++ noted.map .step, none⟩ v? (steps ++ noted.map (Step.sink 1))
          refine ⟨result, env'', noted ++ more, ?_, ?_⟩
          · rw [Eval.run_bind_ok hdeeper, hfold, Array.map_append, Array.append_assoc]
          · rw [hevents, Array.map_append, Array.append_assoc]

theorem evaluate_steps (ha : a.Ordered) (h : a.HoldsProgram xs) (s : Session) :
    (a.evaluate s.env).2.steps = #[.calculating 0 .program "program"] ++
      ((s.execute a).events.filterMap Event.step?).map (Step.sink 1) ++
      match (a.evaluate s.env).1 with
      | .ok value? => #[.result 0 value?]
      | .error _ => #[] := by
  obtain ⟨root, ids, hroot, hn, hids⟩ := id h
  have hs : a.statements = ids := by simp [Arena.statements, hroot, hn]
  have hlt : ∀ id ∈ ids, id < a.size := fun id hid => Nat.lt_trans (Eval.child_lt ha hn hid) (Arena.lt_size_of_node? hn)
  obtain ⟨result, env', noted, hfold, hevents⟩ := executeFrom_steps ha hlt ⟨s, #[], #[], none⟩ none
    #[.calculating 0 .program "program"]
  have hplain := Eval.evaluateNode_plain ha (Arena.lt_size_of_node? hn) s.env
  have hnoted : (s.execute a).events.filterMap Event.step? = noted := by
    rw [execute, hs, hevents, Array.empty_append, Array.filterMap_map]
    exact Array.filterMap_some
  have hbegin : (Eval.begin 0 (.program ids)).run.run (.start s.env) =
      some (.ok (), ⟨s.env, #[.calculating 0 .program "program"]⟩) := rfl
  have hnode : (Eval.plainNode a (Eval.plain a) root 0 (.program ids)).run.run
      ⟨s.env, #[.calculating 0 .program "program"]⟩ = _ := hfold
  rw [Eval.plain_of_node ha hn, Eval.run_bind_ok hbegin] at hplain
  rw [Arena.evaluate, hroot, hnoted]
  dsimp only
  cases result with
  | error e =>
      rw [Eval.run_bind_error hnode] at hplain
      rw [← Option.some.inj hplain]
      exact Array.append_empty.symm
  | ok value? =>
      rw [Eval.run_bind_ok hnode] at hplain
      rw [← Option.some.inj hplain]
      rfl

theorem yields_of_effect (h : a.HoldsStmt id x) (hn : a.node? id = some n) (hx : x.effect env = .ok (env', outcome)) :
    n.Yields env' outcome := by
  obtain ⟨rfl, hname⟩ := Stmt.effect_record hx
  cases outcome with
  | binding name value? =>
      obtain ⟨m, hm, htarget⟩ := h.target?
      obtain rfl := Option.some.inj (hn.symm.trans hm)
      exact ⟨htarget.trans hname.symm, env.slots_declare_self name value?⟩
  | value v =>
      obtain ⟨m, hm, htype⟩ := h.statementType
      obtain rfl := Option.some.inj (hn.symm.trans hm)
      cases x with
      | declaration | assignment => exact nomatch hname
      | expression => exact htype

theorem withoutValue_of_effect (h : a.HoldsStmt id x) (hn : a.node? id = some n)
    (hx : x.effect env = .ok (env', outcome)) : outcome.value? = none ↔ n.WithoutValue := by
  cases Stmt.does_of_effect hx with
  | @declare name =>
      obtain rfl := Option.some.inj (hn.symm.trans h)
      exact iff_of_true rfl ⟨name, rfl⟩
  | define =>
      obtain ⟨i, hi, -⟩ := h
      obtain rfl := Option.some.inj (hn.symm.trans hi)
      exact iff_of_false nofun nofun
  | assign =>
      obtain ⟨i, hi, -⟩ := h
      obtain rfl := Option.some.inj (hn.symm.trans hi)
      exact iff_of_false nofun nofun
  | tell =>
      obtain ⟨m, hm, htype⟩ := h.statementType
      obtain rfl := Option.some.inj (hn.symm.trans hm)
      refine iff_of_false nofun ?_
      rintro ⟨name, rfl⟩
      exact nomatch htype

section

variable (ha : a.Ordered) (h : a.HoldsProgram xs)
include ha h

theorem outcome_of_lt (s : Session) {k : Nat} (hk : (Execution.of s.env xs).outcomes[k]? = some outcome) :
    ∃ id n run, a.statements[k]? = some id ∧ a.node? id = some n ∧
      a.evaluateNode id (s.executeFirst a k).session.env = (.ok outcome.value?, run) ∧ n.Yields run.env outcome ∧
      (outcome.value? = none ↔ n.WithoutValue) := by
  obtain ⟨hlt, -⟩ := List.getElem?_eq_some_iff.1 hk
  obtain ⟨x, outcome', hx, ho, heffect⟩ := Execution.step_of_lt hlt
  obtain rfl := Option.some.inj (hk.symm.trans ho)
  obtain ⟨id, hid, hholds⟩ := Arena.exists_place h.statements hx
  obtain ⟨n, hn, -⟩ := hholds.statementType
  have heffects := Eval.effects_statement ha hholds 0 (Execution.of s.env (xs.take k)).env
  rw [heffect] at heffects
  obtain ⟨value?, hleaves, htold⟩ := heffects
  obtain ⟨run, hrun, henv⟩ := evaluateNode_of_leaves ha (size_of_holdsStmt hholds) hleaves
  obtain rfl : outcome.value? = value? := htold ▸ Eval.value?_told a id value?
  refine ⟨id, n, run, hid, hn, ?_, ?_, withoutValue_of_effect hholds hn heffect⟩
  · rw [(executeFirst_tells ha h s k).session]
    exact hrun
  · rw [henv]
    exact yields_of_effect hholds hn heffect

theorem outcome_getLast? (s : Session) (herror : (Execution.of s.env xs).error? = none) :
    (Execution.of s.env xs).outcomes.getLast?.bind Outcome.value? = none ↔
      ∀ id ∈ a.statements.getLast?, ∃ n ∈ a.node? id, n.WithoutValue := by
  have hlength := (Execution.length_of_none herror).trans h.statements.length_eq.symm
  cases ho : (Execution.of s.env xs).outcomes.getLast? with
  | none =>
      rw [List.getLast?_eq_none_iff.1 ho, List.length_nil] at hlength
      rw [List.eq_nil_of_length_eq_zero hlength.symm]
      exact iff_of_true rfl nofun
  | some outcome =>
      rw [List.getLast?_eq_getElem?, hlength] at ho
      obtain ⟨id, n, run, hid, hn, -, -, hvalue⟩ := outcome_of_lt ha h s ho
      rw [Option.bind_some, hvalue, List.getLast?_eq_getElem?, hid]
      simp [hn]

theorem evaluates_of_tells {s : Session} {r : Report} (hr : r.Tells s (Execution.of s.env xs))
    (hsteps : r.events.filterMap Event.step? = (s.execute a).events.filterMap Event.step?) : s.Evaluates a r where
  session := by rw [hr.session, (Arena.evaluate_eq ha h s.env).2]
  error? := by
    rw [hr.error?, (Arena.evaluate_eq ha h s.env).1, Execution.result]
    cases (Execution.of s.env xs).error? <;> rfl
  value value? hvalue := by
    rw [(Arena.evaluate_eq ha h s.env).1] at hvalue
    cases herror : (Execution.of s.env xs).error? with
    | some e => cases (Execution.result_of_some herror none).symm.trans hvalue
    | none =>
        obtain rfl := Except.ok.inj ((Execution.result_of_none herror).symm.trans hvalue)
        rw [hr.outcomes, List.size_toArray, List.back?_toArray, h.statements.length_eq]
        exact ⟨Execution.length_of_none herror, rfl, outcome_getLast? ha h s herror⟩
  outcomes k outcome hk := by
    rw [hr.outcomes, List.getElem?_toArray] at hk
    obtain ⟨id, n, run, hid, hn, hrun, hyields, -⟩ := outcome_of_lt ha h s hk
    exact ⟨id, n, run, hid, hn, hrun, hyields⟩
  steps := by rw [hsteps, evaluate_steps ha h s]

end

theorem step?_of_mem_readEvents {tokens : Array Token} {parsed : Parsed} {event : Event}
    (h : event ∈ readEvents tokens parsed) : event.step? = none := by
  rcases Array.mem_append.1 h with h | h
  · obtain ⟨t, -, rfl⟩ := Array.mem_map.1 h
    rfl
  · obtain ⟨b, -, rfl⟩ := Array.mem_map.1 h
    rfl

/-- Running a script leaves what evaluating its whole tree leaves. It notes the same steps one level higher, without
those of the program itself. -/
theorem run_evaluates (s : Session) (source : String) (a : Arena) (h : parse source = .ok a) :
    s.Evaluates a (s.run source) := by
  obtain ⟨xs, hxs, rfl⟩ := parses_of_parse h
  have hparsed : (parseProgram (.start (tokenize source))).result = .ok (Arena.empty.graftProgram [] xs) := h
  have hread : ((readEvents (tokenize source) (parseProgram (.start (tokenize source)))).push
      (.parsed (Arena.empty.graftProgram [] xs))).filterMap Event.step? = #[] := by
    apply Array.filterMap_eq_empty_iff.2
    intro event hevent
    rcases Array.mem_push.1 hevent with hevent | rfl
    · exact step?_of_mem_readEvents hevent
    · rfl
  apply evaluates_of_tells (Arena.ordered_graftProgram xs) (Grammar.holdsProgram_empty xs) (run_tells hxs s)
  rw [run, hparsed]
  dsimp only [Report.after]
  rw [Array.filterMap_append Array.size_append, hread, Array.empty_append]

def quotientByZero : List Stmt :=
  [.declaration "x" none, .assignment "x" (.literal "7"), .expression (.binary .div (.identifier "x") (.literal "0"))]

theorem run_evaluates_quotientByZero :
    parse "int x; x = 7; x / 0;" = .ok (Arena.empty.graftProgram [] quotientByZero) ∧
    start.Evaluates (Arena.empty.graftProgram [] quotientByZero) (start.run "int x; x = 7; x / 0;") := by
  have htokens : (tokenize "int x; x = 7; x / 0;").toList = quotientByZero.flatMap Stmt.tokens := rfl
  have hparses : Parses "int x; x = 7; x / 0;" quotientByZero := by
    rw [Parses, htokens]
    exact Grammar.program_tokens (by decide)
  exact ⟨hparses.parse_eq, run_evaluates start _ _ hparses.parse_eq⟩

end Session

end IntScript
