import IntScript.Proofs.Tree.Forest

namespace IntScript.Arena

def Linked (a : Arena) : Prop := ∀ id p, a.parent? id = some p → p < a.size

def Untouched (a b : Arena) : Prop := ∀ id < a.size, b.slots[id]? = a.slots[id]?

variable {a b c : Arena} {n : Node} {id : Nat}

theorem linked_empty : empty.Linked := fun _ _ h => nomatch h

theorem Linked.push (h : a.Linked) (hn : ∀ child ∈ n.children, child < a.size) : (a.push n).Linked := by
  intro id p hp
  rw [parent?_push hn] at hp
  rw [size_push]
  split_ifs at hp
  · exact Option.some.inj hp ▸ Nat.lt_succ_self a.size
  · exact Nat.lt_succ_of_lt (h id p hp)

theorem slots_truncate (a : Arena) (size id : Nat) : (a.truncate size).slots[id]? =
    if id < size then a.slots[id]?.map fun slot => { slot with parent? := slot.parent?.filter (· < size) } else none := by
  rw [truncate, Array.getElem?_map, Array.take_eq_extract, Array.getElem?_extract, Nat.sub_zero, Nat.zero_add]
  by_cases hid : id < size
  · by_cases hlt : id < a.slots.size
    · rw [if_pos (Nat.lt_min.2 ⟨hid, hlt⟩), if_pos hid]
    · rw [if_neg fun h => hlt (Nat.lt_min.1 h).2, if_pos hid, Array.getElem?_eq_none (Nat.le_of_not_lt hlt)]
  · rw [if_neg fun h => hid (Nat.lt_min.1 h).1, if_neg hid, Option.map_none]

theorem parent?_truncate {size p : Nat} (h : (a.truncate size).parent? id = some p) : a.parent? id = some p ∧ p < size := by
  rw [parent?, slots_truncate] at h
  split_ifs at h
  · rw [parent?]
    cases hs : a.slots[id]? with
    | none => simp [hs] at h
    | some slot => simpa [hs, Option.filter_eq_some_iff] using h
  · exact absurd h.symm (Option.some_ne_none p)

theorem Linked.truncate (h : a.Linked) (size : Nat) : (a.truncate size).Linked := by
  intro id p hp
  obtain ⟨hparent, hlt⟩ := parent?_truncate hp
  have hsize : (a.truncate size).size = min size a.size := by simp [Arena.size, Arena.truncate]
  exact hsize ▸ Nat.lt_min.2 ⟨hlt, h id p hparent⟩

theorem Linked.truncate_size (h : a.Linked) : a.truncate a.size = a := by
  refine ext_slots fun id => ?_
  rw [slots_truncate]
  cases hs : a.slots[id]? with
  | none => exact ite_self _
  | some slot =>
      have hlt : id < a.size := (Array.getElem?_eq_some_iff.1 hs).1
      have hkept : slot.parent?.filter (· < a.size) = slot.parent? := by
        cases hp : slot.parent? with
        | none => rfl
        | some p => simpa using h id p (by rw [parent?, hs, Option.bind_some, hp])
      rw [if_pos hlt, Option.map_some, hkept]

theorem Untouched.refl (a : Arena) : a.Untouched a := fun _ _ => rfl

theorem Untouched.size_le (h : a.Untouched b) : a.size ≤ b.size := by
  by_contra hlt
  have hnone : b.slots[b.size]? = none := Array.getElem?_eq_none (Nat.le_refl b.slots.size)
  exact hlt (Array.getElem?_eq_none_iff.1 ((h b.size (Nat.lt_of_not_le hlt)).symm.trans hnone))

theorem Untouched.trans (hab : a.Untouched b) (hbc : b.Untouched c) : a.Untouched c := fun id hid =>
  (hbc id (Nat.lt_of_lt_of_le hid hab.size_le)).trans (hab id hid)

/-- A node touches nothing but its children. -/
theorem Untouched.push (h : a.Untouched b) (hn : ∀ child ∈ n.children, a.size ≤ child) : a.Untouched (b.push n) := by
  intro id hid
  have hlt : id < b.size := Nat.lt_of_lt_of_le hid h.size_le
  have hnot : id ∉ n.children := fun hc => Nat.not_lt.2 (hn id hc) hid
  rw [slots_push, if_neg (Nat.ne_of_lt hlt), if_neg hnot, h id hid]

/-- What came after an arena that was left untouched can be taken away again. -/
theorem Untouched.truncate (ha : a.Linked) (h : a.Untouched b) : b.truncate a.size = a := by
  have hsame : b.truncate a.size = a.truncate a.size := by
    refine ext_slots fun id => ?_
    rw [slots_truncate, slots_truncate]
    split_ifs with hid
    · rw [h id hid]
    · rfl
  exact hsame.trans ha.truncate_size

end IntScript.Arena
