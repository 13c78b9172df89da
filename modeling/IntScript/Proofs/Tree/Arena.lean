import IntScript.Tree.Arena

namespace IntScript.Arena

def last (a : Arena) : Nat := a.size - 1

def Within (a b : Arena) : Prop := ∀ id n, a.node? id = some n → b.node? id = some n

def Ordered (a : Arena) : Prop := ∀ id < a.size, ∀ n ∈ a.node? id, ∀ child ∈ n.children, child < id

instance (a : Arena) : Decidable a.Ordered :=
  inferInstanceAs (Decidable (∀ id < a.size, ∀ n ∈ a.node? id, ∀ child ∈ n.children, child < id))

theorem adopt_cons (slots : Array Slot) (parent child : Nat) (children : List Nat) :
    adopt slots parent (child :: children) =
      adopt (slots.modify child ({ · with parent? := some parent })) parent children := rfl

@[simp] theorem size_adopt (slots : Array Slot) (parent : Nat) (children : List Nat) :
    (adopt slots parent children).size = slots.size := by
  induction children generalizing slots with
  | nil => rfl
  | cons child children ih => rw [adopt_cons, ih, Array.size_modify]

theorem slots_adopt (slots : Array Slot) (parent : Nat) (children : List Nat) (id : Nat) :
    (adopt slots parent children)[id]? =
      if id ∈ children then slots[id]?.map ({ · with parent? := some parent }) else slots[id]? := by
  induction children generalizing slots with
  | nil => rfl
  | cons child children ih =>
      rw [adopt_cons, ih, Array.getElem?_modify]
      by_cases hid : child = id
      · subst hid
        rw [if_pos rfl, if_pos List.mem_cons_self, Option.map_map]
        exact ite_self _
      · rw [if_neg hid]
        simp only [List.mem_cons, Ne.symm hid, false_or]

theorem ext_slots {a b : Arena} (h : ∀ id : Nat, a.slots[id]? = b.slots[id]?) : a = b :=
  congrArg Arena.mk (Array.ext_getElem? h)

@[simp] theorem size_empty : empty.size = 0 := rfl

@[simp] theorem size_push (a : Arena) (n : Node) : (a.push n).size = a.size + 1 := by
  simp [push, size]

@[simp] theorem last_push (a : Arena) (n : Node) : (a.push n).last = a.size := by
  simp [last]

/-- A node is added without a parent, and its children have it as theirs. Nothing else is touched. -/
theorem slots_push (a : Arena) (n : Node) (id : Nat) : (a.push n).slots[id]? =
    if id = a.size then some ⟨n, none⟩
    else if id ∈ n.children then a.slots[id]?.map ({ · with parent? := some a.size })
    else a.slots[id]? := by
  rw [push, Array.getElem?_push, slots_adopt, size_adopt]
  rfl

theorem node?_push (a : Arena) (n : Node) (id : Nat) :
    (a.push n).node? id = if id = a.size then some n else a.node? id := by
  rw [node?, slots_push]
  by_cases h : id = a.size
  · rw [if_pos h, if_pos h, Option.map_some]
  · rw [if_neg h, if_neg h, node?]
    split
    · exact Option.map_map ..
    · rfl

theorem node?_push_size (a : Arena) (n : Node) : (a.push n).node? a.size = some n := by
  rw [node?_push, if_pos rfl]

theorem node?_push_of_lt {a : Arena} {id : Nat} (n : Node) (h : id < a.size) :
    (a.push n).node? id = a.node? id := by
  rw [node?_push, if_neg (Nat.ne_of_lt h)]

theorem lt_size_of_node? {a : Arena} {id : Nat} {n : Node} (h : a.node? id = some n) :
    id < a.size := by
  obtain ⟨slot, hs, -⟩ := Option.map_eq_some_iff.1 h
  exact (Array.getElem?_eq_some_iff.1 hs).1

theorem node?_of_lt_size {a : Arena} {id : Nat} (h : id < a.size) : ∃ n, a.node? id = some n := by
  have hs : id < a.slots.size := h
  exact ⟨a.slots[id].node, by simp [node?, hs]⟩

theorem Within.refl (a : Arena) : a.Within a := fun _ _ h => h

theorem Within.trans {a b c : Arena} (hab : a.Within b) (hbc : b.Within c) : a.Within c :=
  fun id n h => hbc id n (hab id n h)

theorem within_push (a : Arena) (n : Node) : a.Within (a.push n) := fun _ _ h =>
  (node?_push_of_lt n (lt_size_of_node? h)).trans h

theorem ordered_empty : empty.Ordered := fun _ h => absurd h (Nat.not_lt_zero _)

theorem Ordered.push {a : Arena} (h : a.Ordered) {n : Node} (hn : ∀ child ∈ n.children, child < a.size) :
    (a.push n).Ordered := by
  intro id hid m hm
  rw [node?_push] at hm
  split at hm
  · next he =>
      obtain rfl := Option.some.inj hm
      exact he ▸ hn
  · exact h id (lt_size_of_node? hm) m hm

end IntScript.Arena
