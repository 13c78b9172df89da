import IntScript.Proofs.Session.Execution

namespace IntScript

/-- Statements in pieces, each of which is executed, also after one that stopped with an error. -/
inductive Relays : Session → List (List Stmt) → List Report → Session → Prop
  | nil (s) : Relays s [] [] s
  | cons {s xs xss r rs last} (hr : r.Tells s (Execution.of s.env xs)) (h : Relays r.session xss rs last) :
      Relays s (xs :: xss) (r :: rs) last

namespace Relays

variable {s last : Session} {xss : List (List Stmt)} {rs : List Report} {e : EvalError}

theorem of_ok (h : Relays s xss rs last) (he : (Execution.of s.env xss.flatten).error? = none) :
    last = { s with env := (Execution.of s.env xss.flatten).env } ∧ (∀ r ∈ rs, r.error? = none) ∧
      rs.flatMap (·.outcomes.toList) = (Execution.of s.env xss.flatten).outcomes := by
  induction h with
  | nil s => exact ⟨rfl, fun _ hr => absurd hr List.not_mem_nil, rfl⟩
  | @cons s xs xss r rs last hr _ ih =>
      rw [List.flatten_cons, Execution.of_append] at he ⊢
      cases hx : (Execution.of s.env xs).error? with
      | some e => simp [Execution.andThen, hx] at he
      | none =>
          simp only [Execution.andThen, hx] at he ⊢
          have hs := hr.session
          obtain ⟨hlast, hok, hout⟩ := ih (by rwa [hs])
          rw [hs] at hlast hout
          refine ⟨hlast, ?_, ?_⟩
          · intro r' hr'
            rcases List.mem_cons.1 hr' with rfl | hr'
            · exact hr.error?_eq_none hx
            · exact hok r' hr'
          · rw [List.flatMap_cons, hr.outcomes, hout]

theorem of_error (h : Relays s xss rs last) (he : (Execution.of s.env xss.flatten).error? = some e) :
    ∃ before r after, rs = before ++ r :: after ∧ (∀ b ∈ before, b.error? = none) ∧ r.error? = some (.eval e) ∧
      (before ++ [r]).flatMap (·.outcomes.toList) = (Execution.of s.env xss.flatten).outcomes := by
  induction h with
  | nil s => exact nomatch he
  | @cons s xs xss r rs last hr _ ih =>
      rw [List.flatten_cons, Execution.of_append] at he ⊢
      cases hx : (Execution.of s.env xs).error? with
      | some e' =>
          simp only [Execution.andThen, hx] at he ⊢
          obtain rfl := Option.some.inj he
          exact ⟨[], r, rs, rfl, fun _ hb => absurd hb List.not_mem_nil, hr.error?_eq_some hx, by simp [hr.outcomes]⟩
      | none =>
          simp only [Execution.andThen, hx] at he ⊢
          have hs := hr.session
          obtain ⟨before, r', after, rfl, hok, hr', hout⟩ := ih (by rwa [hs])
          rw [hs] at hout
          refine ⟨r :: before, r', after, rfl, ?_, hr', ?_⟩
          · intro b hb
            rcases List.mem_cons.1 hb with rfl | hb
            · exact hr.error?_eq_none hx
            · exact hok b hb
          · rw [List.cons_append, List.flatMap_cons, hr.outcomes, hout]

end Relays

end IntScript
