import IntScript.Text.Offset

namespace IntScript.Text

variable {before after : List Char} {n : Nat}

theorem width_from (n : Nat) (cs : List Char) : cs.foldl (fun n c => n + c.utf8Size) n = n + width cs := by
  induction cs generalizing n with
  | nil => rfl
  | cons c cs ih => rw [width, List.foldl_cons, List.foldl_cons, ih, ih, Nat.zero_add, Nat.add_assoc]

@[simp]
theorem width_nil : width [] = 0 := rfl

@[simp]
theorem width_cons (c : Char) (cs : List Char) : width (c :: cs) = c.utf8Size + width cs := by
  rw [width, List.foldl_cons, width_from, Nat.zero_add]

@[simp]
theorem width_append (as bs : List Char) : width (as ++ bs) = width as + width bs := by
  rw [width, List.foldl_append, width_from]
  rfl

@[simp]
theorem width_reverse (cs : List Char) : width cs.reverse = width cs := by
  induction cs with
  | nil => rfl
  | cons c cs ih => rw [List.reverse_cons, width_append, ih, width_cons, width_cons, width_nil, Nat.add_zero, Nat.add_comm]

theorem width_toList (text : String) : width text.toList = text.utf8ByteSize := by
  have h (cs : List Char) : (String.ofList cs).utf8ByteSize = width cs := by
    induction cs with
    | nil => rfl
    | cons c cs ih =>
        rw [String.ofList_cons, String.utf8ByteSize_append, String.utf8ByteSize_singleton, ih, width_cons]
  rw [← h, String.ofList_toList]

theorem length_le_width (cs : List Char) : cs.length ≤ width cs := by
  induction cs with
  | nil => exact Nat.le_refl 0
  | cons c cs ih =>
      have hc := c.utf8Size_pos
      rw [List.length_cons, width_cons]
      omega

theorem cutFrom?_append (seen as bs : List Char) :
    cutFrom? seen (as ++ bs) (width as) = some (as.reverse ++ seen, bs) := by
  induction as generalizing seen with
  | nil =>
      rw [List.nil_append, width_nil, cutFrom?]
      rfl
  | cons c as ih =>
      obtain ⟨n, hn⟩ := Nat.exists_eq_add_one_of_ne_zero (Nat.ne_of_gt c.utf8Size_pos)
      have hwidth : width (c :: as) = n + width as + 1 := by
        rw [width_cons, hn]
        omega
      have hleft : n + width as + 1 - c.utf8Size = width as := by omega
      rw [hwidth, List.cons_append, cutFrom?, if_pos (by omega), hleft, ih, List.reverse_cons, List.append_assoc]
      rfl

theorem exists_of_cutFrom? {seen cs : List Char} (h : cutFrom? seen cs n = some (before, after)) :
    ∃ as, cs = as ++ after ∧ before = as.reverse ++ seen ∧ width as = n := by
  induction cs generalizing seen n with
  | nil =>
      cases n with
      | zero =>
          obtain ⟨rfl, rfl⟩ := Prod.mk.inj (Option.some.inj h)
          exact ⟨[], rfl, rfl, rfl⟩
      | succ n => exact nomatch h
  | cons c cs ih =>
      cases n with
      | zero =>
          obtain ⟨rfl, rfl⟩ := Prod.mk.inj (Option.some.inj h)
          exact ⟨[], rfl, rfl, rfl⟩
      | succ n =>
          by_cases hc : c.utf8Size ≤ n + 1
          · rw [cutFrom?, if_pos hc] at h
            obtain ⟨as, rfl, rfl, hwidth⟩ := ih h
            refine ⟨c :: as, rfl, by simp, ?_⟩
            rw [width_cons, hwidth]
            omega
          · rw [cutFrom?, if_neg hc] at h
            exact absurd h.symm (Option.some_ne_none _)

/-- A cut between two characters. -/
theorem cut?_append (as bs : List Char) : cut? (as ++ bs) (width as) = some (as.reverse, bs) := by
  rw [cut?, cutFrom?_append, List.append_nil]

theorem cut?_eq_some_iff {cs : List Char} :
    cut? cs n = some (before, after) ↔ cs = before.reverse ++ after ∧ width before = n := by
  constructor
  · intro h
    obtain ⟨as, rfl, rfl, hwidth⟩ := exists_of_cutFrom? h
    rw [List.append_nil, List.reverse_reverse, width_reverse]
    exact ⟨rfl, hwidth⟩
  · rintro ⟨rfl, rfl⟩
    have h := cut?_append before.reverse after
    rwa [width_reverse, List.reverse_reverse] at h

/-- A text can be cut where one of its characters begins, and at its end. -/
theorem isSome_cut?_iff {text : String} : (cut? text.toList n).isSome ↔ String.Pos.Raw.IsValid text ⟨n⟩ := by
  rw [String.Pos.Raw.isValid_iff_exists_append, Option.isSome_iff_exists]
  constructor
  · rintro ⟨⟨before, after⟩, h⟩
    obtain ⟨htext, rfl⟩ := cut?_eq_some_iff.1 h
    refine ⟨String.ofList before.reverse, String.ofList after, ?_, ?_⟩
    · rw [← String.ofList_append, ← htext, String.ofList_toList]
    · rw [String.Pos.Raw.ext_iff, String.byteIdx_rawEndPos, ← width_toList, String.toList_ofList, width_reverse]
  · rintro ⟨before, after, rfl, h⟩
    obtain rfl : n = before.utf8ByteSize := congrArg String.Pos.Raw.byteIdx h
    rw [String.toList_append, ← width_toList]
    exact ⟨_, cut?_append _ _⟩

end IntScript.Text
