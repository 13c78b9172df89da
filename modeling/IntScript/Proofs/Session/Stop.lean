import IntScript.Proofs.Session.Execution

namespace IntScript

namespace Execution

structure StopsAt (env : Environment) (xs : List Stmt) (k : Nat) (e : EvalError) : Prop where
  before : (of env (xs.take k)).error? = none
  fails : ∃ x, xs[k]? = some x ∧ x.effect (of env (xs.take k)).env = .error e

variable {env env' : Environment} {x : Stmt} {xs : List Stmt} {outcome : Outcome} {k : Nat} {e : EvalError}

theorem length_of_none (h : (of env xs).error? = none) : (of env xs).outcomes.length = xs.length := by
  induction xs generalizing env with
  | nil => rfl
  | cons x xs ih =>
      cases hx : x.effect env with
      | error e =>
          rw [of_cons_error hx] at h
          exact nomatch h
      | ok result =>
          rw [of_cons_ok hx] at h ⊢
          exact congrArg Nat.succ (ih h)

theorem stopsAt_zero (h : x.effect env = .error e) : StopsAt env (x :: xs) 0 e := ⟨rfl, x, rfl, h⟩

theorem stopsAt_succ (h : x.effect env = .ok (env', outcome)) :
    StopsAt env (x :: xs) (k + 1) e ↔ StopsAt env' xs k e := by
  have htake : of env ((x :: xs).take (k + 1)) = _ := of_cons_ok h (xs.take k)
  constructor
  · rintro ⟨hb, y, hy, hf⟩
    rw [htake] at hb hf
    exact ⟨hb, y, hy, hf⟩
  · rintro ⟨hb, y, hy, hf⟩
    exact ⟨htake ▸ hb, y, hy, htake ▸ hf⟩

/-- Where a statement has an error, the ones before it have been executed and nothing else has. -/
theorem StopsAt.of_eq (h : StopsAt env xs k e) :
    of env xs = { of env (xs.take k) with error? := some e } ∧ (of env xs).outcomes.length = k := by
  obtain ⟨hbefore, x, hx, hfails⟩ := h
  obtain ⟨hk, rfl⟩ := List.getElem?_eq_some_iff.1 hx
  have heq : of env xs = { of env (xs.take k) with error? := some e } :=
    calc of env xs = of env (xs.take k ++ xs[k] :: xs.drop (k + 1)) := by
          rw [← List.drop_eq_getElem_cons hk, List.take_append_drop]
      _ = { of env (xs.take k) with error? := some e } := by
          rw [of_append, andThen, hbefore]
          dsimp only
          rw [of_cons_error hfails, List.append_nil]
  refine ⟨heq, ?_⟩
  rw [heq]
  exact (length_of_none hbefore).trans (List.length_take_of_le (Nat.le_of_lt hk))

/-- Every outcome is the effect of one statement where those before it have led. -/
theorem step_of_lt (h : k < (of env xs).outcomes.length) :
    ∃ x outcome, xs[k]? = some x ∧ (of env xs).outcomes[k]? = some outcome ∧
      x.effect (of env (xs.take k)).env = .ok ((of env (xs.take (k + 1))).env, outcome) := by
  induction xs generalizing env k with
  | nil => exact absurd h (Nat.not_lt_zero k)
  | cons x xs ih =>
      cases hx : x.effect env with
      | error e =>
          rw [of_cons_error hx] at h
          exact absurd h (Nat.not_lt_zero k)
      | ok result =>
          obtain ⟨env', outcome⟩ := result
          rw [of_cons_ok hx] at h ⊢
          cases k with
          | zero =>
              refine ⟨x, outcome, rfl, rfl, ?_⟩
              rw [List.take_succ_cons, of_cons_ok hx]
              exact hx
          | succ k =>
              obtain ⟨y, outcome', hy, ho, hstep⟩ := ih (Nat.lt_of_succ_lt_succ h)
              refine ⟨y, outcome', hy, ho, ?_⟩
              rw [List.take_succ_cons, List.take_succ_cons, of_cons_ok hx, of_cons_ok hx]
              exact hstep

end Execution

namespace Session

def executeFirst (s : Session) (tree : Arena) (k : Nat) : Report :=
  executeFrom tree (tree.statements.take k) ⟨s, #[], #[], none⟩

structure FailsAt (s : Session) (tree : Arena) (k : Nat) (e : EvalError) : Prop where
  before : (s.executeFirst tree k).error? = none
  fails : ∃ id, tree.statements[k]? = some id ∧ (tree.evaluateNode id (s.executeFirst tree k).session.env).1 = .error e

variable {a : Arena} {id k : Nat} {x : Stmt} {xs : List Stmt} {s : Session} {env : Environment} {e : EvalError}

theorem evaluateNode_error (ha : a.Ordered) (h : a.HoldsStmt id x) :
    (a.evaluateNode id env).1 = .error e ↔ x.effect env = .error e := by
  have heff := Eval.effects_statement ha h 0 env
  cases hx : x.effect env with
  | error err =>
      rw [hx] at heff
      obtain ⟨run, hrun, -⟩ := evaluateNode_of_leaves ha (size_of_holdsStmt h) heff
      rw [hrun]
      exact ⟨fun h => congrArg _ (Except.error.inj h), fun h => congrArg _ (Except.error.inj h)⟩
  | ok result =>
      rw [hx] at heff
      obtain ⟨value?, hl, -⟩ := heff
      obtain ⟨run, hrun, -⟩ := evaluateNode_of_leaves ha (size_of_holdsStmt h) hl
      rw [hrun]
      exact ⟨nofun, nofun⟩

section

variable (ha : a.Ordered) (h : a.HoldsProgram xs)
include ha h

theorem executeFirst_tells (s : Session) (k : Nat) : (s.executeFirst a k).Tells s (Execution.of s.env (xs.take k)) := by
  obtain ⟨hs, ho, he⟩ := executeFrom_holds ha (List.forall₂_take k h.statements) ⟨s, #[], #[], none⟩ rfl
  exact ⟨hs, ho.trans (by simp), he⟩

theorem failsAt_iff : s.FailsAt a k e ↔ Execution.StopsAt s.env xs k e := by
  have htells := executeFirst_tells ha h s k
  have henv : (s.executeFirst a k).session.env = (Execution.of s.env (xs.take k)).env := by rw [htells.session]
  constructor
  · rintro ⟨hbefore, id, hid, hfails⟩
    obtain ⟨x, hx, hholds⟩ := Arena.exists_stmt h.statements hid
    rw [htells.error?] at hbefore
    rw [henv] at hfails
    exact ⟨Option.map_eq_none_iff.1 hbefore, x, hx, (evaluateNode_error ha hholds).1 hfails⟩
  · rintro ⟨hbefore, x, hx, hfails⟩
    obtain ⟨id, hid, hholds⟩ := Arena.exists_place h.statements hx
    refine ⟨htells.error?_eq_none hbefore, id, hid, ?_⟩
    rw [henv]
    exact (evaluateNode_error ha hholds).2 hfails

end

end Session

end IntScript
