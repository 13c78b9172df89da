import Mathlib.Data.List.Basic

namespace IntScript.Text

variable {α : Type} [DecidableEq α]

def cutAfter (mark : α) : List α → List (List α)
  | [] => []
  | a :: as =>
      if a = mark then [a] :: cutAfter mark as
      else
        match cutAfter mark as with
        | [] => [[a]]
        | l :: ls => (a :: l) :: ls

variable {mark : α} {l : List α}

theorem cutAfter_append (h : mark ∉ l) (rest : List α) :
    cutAfter mark (l ++ mark :: rest) = (l ++ [mark]) :: cutAfter mark rest := by
  induction l with
  | nil => simp [cutAfter]
  | cons a l ih =>
      simp only [List.mem_cons, not_or] at h
      rw [List.cons_append, cutAfter, if_neg (Ne.symm h.1), ih h.2]
      rfl

theorem cutAfter_last (h : mark ∉ l) (hne : l ≠ []) : cutAfter mark l = [l] := by
  induction l with
  | nil => exact absurd rfl hne
  | cons a l ih =>
      simp only [List.mem_cons, not_or] at h
      rw [cutAfter, if_neg (Ne.symm h.1)]
      cases l with
      | nil => rfl
      | cons b l => rw [ih h.2 (List.cons_ne_nil b l)]

/-- A list is empty, or one last line, or a line and a list. -/
theorem cut_induction {motive : List α → Prop} (mark : α) (nil : motive [])
    (last : ∀ l ≠ [], mark ∉ l → motive l)
    (line : ∀ l rest, mark ∉ l → motive rest → motive (l ++ mark :: rest)) (as : List α) : motive as := by
  induction hn : as.length using Nat.strongRecOn generalizing as with
  | _ n ih =>
      by_cases hm : mark ∈ as
      · obtain ⟨l, rest, rfl, hl⟩ := List.eq_append_cons_of_mem hm
        refine line l rest hl (ih rest.length ?_ rest rfl)
        simp only [List.length_append, List.length_cons] at hn
        omega
      · by_cases hne : as = []
        · exact hne ▸ nil
        · exact last as hne hm

theorem flatten_cutAfter (mark : α) (as : List α) : (cutAfter mark as).flatten = as := by
  induction as using cut_induction mark with
  | nil => rfl
  | last l hne hl => simp [cutAfter_last hl hne]
  | line l rest hl ih => simp [cutAfter_append hl, ih]

/-- What stands before the first mark is told by the whole. -/
theorem append_mark_inj {l' rest rest' : List α} (h : mark ∉ l) (h' : mark ∉ l')
    (heq : l ++ mark :: rest = l' ++ mark :: rest') : l = l' ∧ rest = rest' := by
  have hcut := congrArg (cutAfter mark) heq
  rw [cutAfter_append h, cutAfter_append h'] at hcut
  obtain rfl := List.append_cancel_right (List.cons.inj hcut).1
  exact ⟨rfl, List.tail_eq_of_cons_eq (List.append_cancel_left heq)⟩

/-- A list that is put together from lines falls into them again. -/
theorem cutAfter_flatMap {β : Type} {f : β → List α} {xs : List β} (h : ∀ x ∈ xs, mark ∉ f x) :
    cutAfter mark (xs.flatMap fun x => f x ++ [mark]) = xs.map fun x => f x ++ [mark] := by
  induction xs with
  | nil => rfl
  | cons x xs ih =>
      obtain ⟨hx, hxs⟩ := List.forall_mem_cons.1 h
      rw [List.flatMap_cons, List.append_assoc, List.singleton_append, cutAfter_append hx, ih hxs, List.map_cons]

end IntScript.Text
