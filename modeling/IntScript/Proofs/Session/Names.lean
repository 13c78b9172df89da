import IntScript.Proofs.Evaluation.Names
import IntScript.Proofs.Session.Join

namespace IntScript

namespace Execution

variable {env env' : Environment} {name : String} {xs : List Stmt}

theorem env_eq (env : Environment) (xs : List Stmt) : (of env xs).env = env.recordAll (of env xs).outcomes := by
  induction xs generalizing env with
  | nil => rfl
  | cons x xs ih =>
      cases hx : x.effect env with
      | error e =>
          rw [of_cons_error hx]
          rfl
      | ok result =>
          obtain ⟨env', outcome⟩ := result
          obtain ⟨rfl, -⟩ := Stmt.effect_record hx
          rw [of_cons_ok hx]
          exact ih (env.record outcome)

/-- The outcomes tell of the targets of the statements that have been completed. -/
theorem map_name? (env : Environment) (xs : List Stmt) :
    (of env xs).outcomes.map (·.name?) = (xs.take (of env xs).outcomes.length).map (·.target?) := by
  induction xs generalizing env with
  | nil => rfl
  | cons x xs ih =>
      cases hx : x.effect env with
      | error e =>
          rw [of_cons_error hx]
          rfl
      | ok result =>
          obtain ⟨env', outcome⟩ := result
          rw [of_cons_ok hx, List.length_cons, List.take_succ_cons, List.map_cons, List.map_cons, ih env',
            (Stmt.effect_record hx).2]

theorem slots_of_untargeted (h : ∀ x ∈ xs.take (of env xs).outcomes.length, x.target? ≠ some name) :
    (of env xs).env.slots[name]? = env.slots[name]? := by
  rw [env_eq]
  refine Environment.slots_recordAll_of_forall (fun outcome hmem ho => ?_) env
  have hname : some name ∈ (of env xs).outcomes.map (·.name?) := List.mem_map.2 ⟨outcome, hmem, ho⟩
  rw [map_name?] at hname
  obtain ⟨x, hx, ht⟩ := List.mem_map.1 hname
  exact h x hx ht

theorem of_congr (h : ∀ name, Free xs name → env.slots[name]? = env'.slots[name]?) :
    (of env xs).outcomes = (of env' xs).outcomes ∧ (of env xs).error? = (of env' xs).error? := by
  -- What the first statement sets is the same on both sides, and what else is free in the others is free in all.
  induction xs generalizing env env' with
  | nil => exact ⟨rfl, rfl⟩
  | cons x xs ih =>
      have heff := Stmt.effect_congr fun name hu => h name (free_head hu xs)
      cases hx : x.effect env with
      | error e =>
          rw [hx] at heff
          rw [of_cons_error hx, of_cons_error heff]
          exact ⟨rfl, rfl⟩
      | ok result =>
          obtain ⟨env₁, outcome⟩ := result
          obtain ⟨rfl, ht⟩ := Stmt.effect_record hx
          have hagree : ∀ name, Free xs name →
              (env.record outcome).slots[name]? = (env'.record outcome).slots[name]? := by
            intro name hfree
            by_cases hn : outcome.name? = some name
            · exact Environment.slots_record_of_eq hn env env'
            · refine Environment.slots_record_congr (h name (hfree.cons fun hd => hn ?_)) outcome
              exact ht.trans (Stmt.target?_of_declared? hd)
          rw [hx] at heff
          rw [of_cons_ok hx, of_cons_ok heff]
          exact ⟨congrArg (outcome :: ·) (ih hagree).1, (ih hagree).2⟩

/-- Afterwards the variables are the same where they were the same before and where one has been set. -/
theorem slots_of_congr (ho : (of env xs).outcomes = (of env' xs).outcomes)
    (h : env.slots[name]? = env'.slots[name]? ∨ ∃ x ∈ xs.take (of env xs).outcomes.length, x.target? = some name) :
    (of env xs).env.slots[name]? = (of env' xs).env.slots[name]? := by
  rw [env_eq, env_eq env', ← ho]
  rcases h with h | ⟨x, hx, ht⟩
  · exact Environment.slots_recordAll_congr h _
  · refine Environment.slots_recordAll_of_exists ?_ env env'
    have hname : some name ∈ (xs.take (of env xs).outcomes.length).map (·.target?) := List.mem_map.2 ⟨x, hx, ht⟩
    rw [← map_name?] at hname
    exact List.mem_map.1 hname

/-- What depends on no variable may be executed again, and nothing changes. -/
theorem of_again (h : ∀ name, ¬ Free xs name) (env : Environment) : of (of env xs).env xs = of env xs := by
  have hagree : ∀ name, Free xs name → (of env xs).env.slots[name]? = env.slots[name]? :=
    fun name hfree => absurd hfree (h name)
  obtain ⟨ho, he⟩ := of_congr hagree
  have henv : (of (of env xs).env xs).env = (of env xs).env := by
    rw [env_eq (of env xs).env, ho, env_eq env, Environment.recordAll_recordAll]
  calc of (of env xs).env xs
    _ = ⟨(of (of env xs).env xs).env, (of (of env xs).env xs).outcomes, (of (of env xs).env xs).error?⟩ := rfl
    _ = of env xs := by rw [henv, ho, he]

end Execution

namespace Session

structure DependsOnFree (a : Arena) (xs : List Stmt) : Prop where
  holds : a.HoldsProgram xs
  congr : ∀ s s' : Session, (∀ name, Free xs name → s.env.slots[name]? = s'.env.slots[name]?) →
    (s.execute a).outcomes = (s'.execute a).outcomes ∧ (s.execute a).error? = (s'.execute a).error? ∧
    ∀ name, (Free xs name ∨ ∃ x ∈ xs.take (s.execute a).outcomes.size, x.declared? = some name) →
      (s.execute a).session.env.slots[name]? = (s'.execute a).session.env.slots[name]?
  frame : ∀ (s : Session) (name : String), (∀ x ∈ xs.take (s.execute a).outcomes.size, x.target? ≠ some name) →
    (s.execute a).session.env.slots[name]? = s.env.slots[name]?
  closed : (∀ name, ¬ Free xs name) → ∀ source, parse source = .ok a →
    (∀ s s' : Session, (s.run source).outcomes = (s'.run source).outcomes ∧ (s.run source).error? = (s'.run source).error?) ∧
    ∀ (s : Session) (file : String), ((s.load file (.ok source)).session.load file (.ok source)).Agrees (s.load file (.ok source))

variable {a : Arena} {source : String} {xs : List Stmt}

theorem load_tells (h : Parses source xs) (s : Session) (file : String) :
    (s.load file (.ok source)).Tells s (Execution.of s.env xs) :=
  (run_tells h s).after _

theorem load_again (h : Parses source xs) (hfree : ∀ name, ¬ Free xs name) (s : Session) (file : String) :
    ((s.load file (.ok source)).session.load file (.ok source)).Agrees (s.load file (.ok source)) := by
  have hfirst := load_tells h s file
  have hsecond := load_tells h (s.load file (.ok source)).session file
  rw [hfirst.session, Execution.of_again hfree] at hsecond
  rw [hfirst.session]
  refine ⟨hsecond.session.trans hfirst.session.symm, ?_, ?_⟩
  · exact hsecond.outcomes.trans hfirst.outcomes.symm
  · exact hsecond.error?.trans hfirst.error?.symm

theorem dependsOnFree (ha : a.Ordered) (h : a.HoldsProgram xs) : DependsOnFree a xs where
  holds := h
  congr s s' hagree := by
    have htells := execute_tells ha h s
    have htells' := execute_tells ha h s'
    obtain ⟨ho, he⟩ := Execution.of_congr hagree
    refine ⟨?_, ?_, fun name hname => ?_⟩
    · rw [htells.outcomes, htells'.outcomes, ho]
    · rw [htells.error?, htells'.error?, he]
    · rw [htells.outcomes, List.size_toArray] at hname
      rw [htells.session, htells'.session]
      refine Execution.slots_of_congr ho (hname.imp (hagree name) ?_)
      exact fun ⟨x, hx, hd⟩ => ⟨x, hx, Stmt.target?_of_declared? hd⟩
  frame s name hname := by
    have htells := execute_tells ha h s
    rw [htells.outcomes, List.size_toArray] at hname
    rw [htells.session]
    exact Execution.slots_of_untargeted hname
  closed hfree source hp := by
    obtain ⟨ys, hys, rfl⟩ := parses_of_parse hp
    obtain rfl := h.unique (Grammar.holdsProgram_empty ys)
    refine ⟨fun s s' => ?_, load_again hys hfree⟩
    have hagree : ∀ name, Free xs name → s.env.slots[name]? = s'.env.slots[name]? :=
      fun name hname => absurd hname (hfree name)
    obtain ⟨ho, he⟩ := Execution.of_congr hagree
    rw [(run_tells hys s).outcomes, (run_tells hys s').outcomes, (run_tells hys s).error?, (run_tells hys s').error?, ho, he]
    exact ⟨rfl, rfl⟩

/-- Two sessions execute a program alike where they agree on its free names. -/
theorem execute_free (c : Cursor) (a : Arena) (h : (parseProgram c).result = .ok a) : ∃ xs, DependsOnFree a xs := by
  obtain ⟨xs, -, rfl⟩ := Grammar.program_of_parseProgram h
  exact ⟨xs, dependsOnFree (Arena.ordered_graftProgram xs) (Grammar.holdsProgram_empty xs)⟩

def selfDeclared : List Stmt := [.declaration "a" (some (.identifier "a"))]

example : Free selfDeclared "a" := free_head (.inl ⟨_, rfl, List.mem_singleton.2 rfl⟩) []

theorem execute_free_selfDeclared :
    (parseProgram (.start (tokenize "int a = a;"))).result = .ok (Arena.empty.graftProgram [] selfDeclared) ∧
    ∃ xs, DependsOnFree (Arena.empty.graftProgram [] selfDeclared) xs :=
  ⟨rfl, execute_free (.start (tokenize "int a = a;")) _ rfl⟩

end Session

end IntScript
