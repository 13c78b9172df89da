import IntScript.Proofs.Tree.Linked

namespace IntScript.Arena

def release (a : Arena) (ids : List Nat) : Arena :=
  ⟨a.slots.mapIdx fun id slot => if id ∈ ids then { slot with parent? := none } else slot⟩

def pushAll (a : Arena) (nodes : List Node) : Arena := nodes.foldl push a

/-- Whenever one of the nodes is added its children are there. -/
def Accepts (a : Arena) : List Node → Prop
  | [] => True
  | n :: nodes => (∀ child ∈ n.children, child < a.size) ∧ (a.push n).Accepts nodes

instance decidableAccepts : (a : Arena) → (nodes : List Node) → Decidable (a.Accepts nodes)
  | _, [] => inferInstanceAs (Decidable True)
  | a, n :: nodes =>
      have := decidableAccepts (a.push n) nodes
      inferInstanceAs (Decidable ((∀ child ∈ n.children, child < a.size) ∧ (a.push n).Accepts nodes))

variable {a : Arena} {n : Node} {nodes : List Node} {size : Nat}

theorem slots_release (a : Arena) (ids : List Nat) (id : Nat) : (a.release ids).slots[id]? =
    if id ∈ ids then a.slots[id]?.map ({ · with parent? := none }) else a.slots[id]? := by
  rw [release, Array.getElem?_mapIdx]
  split_ifs
  · rfl
  · rw [Option.map_id']

@[simp] theorem release_nil (a : Arena) : a.release [] = a := ext_slots fun id => by
  rw [slots_release, if_neg List.not_mem_nil]

theorem release_append (a : Arena) (ids ids' : List Nat) : a.release (ids ++ ids') = (a.release ids).release ids' := by
  refine ext_slots fun id => ?_
  rw [slots_release, slots_release, slots_release]
  by_cases hid : id ∈ ids
  · rw [if_pos (List.mem_append_left ids' hid), if_pos hid, Option.map_map]
    exact (ite_self _).symm
  · simp only [List.mem_append, hid, false_or, if_false]

theorem release_eq_self_iff {ids : List Nat} : a.release ids = a ↔ ∀ id ∈ ids, a.parent? id = none := by
  constructor
  · intro h id hid
    rw [← h, parent?, slots_release, if_pos hid]
    cases a.slots[id]? <;> rfl
  · refine fun h => ext_slots fun id => ?_
    rw [slots_release]
    split_ifs with hid
    · have hparent := h id hid
      rw [parent?] at hparent
      cases hs : a.slots[id]? with
      | none => rfl
      | some slot =>
          rw [hs, Option.bind_some] at hparent
          rw [Option.map_some, ← hparent]
    · rfl

/-- A node that is cut off leaves its children behind without a parent. -/
theorem truncate_push (h : size ≤ a.size) (n : Node) :
    (a.push n).truncate size = (a.truncate size).release n.children := by
  refine ext_slots fun id => ?_
  rw [slots_release, slots_truncate, slots_truncate, slots_push]
  by_cases hid : id < size
  · -- The new node stands at the end or after it, so that a link to it is always cut.
    have hnew : (some a.size).filter (· < size) = none := by simp [h]
    rw [if_pos hid, if_pos hid, if_neg (Nat.ne_of_lt (Nat.lt_of_lt_of_le hid h))]
    split_ifs
    · simp only [Option.map_map, Function.comp_def, hnew]
    · rfl
  · rw [if_neg hid, if_neg hid, Option.map_none, ite_self]

/-- However many nodes are cut off, all that is left of them is that their children have no parent. -/
theorem truncate_pushAll_eq_release (h : size ≤ a.size) (nodes : List Node) :
    (a.pushAll nodes).truncate size = (a.truncate size).release (nodes.flatMap Node.children) := by
  induction nodes generalizing a with
  | nil => exact (release_nil _).symm
  | cons n nodes ih =>
      have hpush : size ≤ (a.push n).size := size_push a n ▸ Nat.le_succ_of_le h
      calc ((a.push n).pushAll nodes).truncate size
          = ((a.push n).truncate size).release (nodes.flatMap Node.children) := ih hpush
        _ = ((a.truncate size).release n.children).release (nodes.flatMap Node.children) := by rw [truncate_push h]
        _ = (a.truncate size).release ((n :: nodes).flatMap Node.children) := by rw [List.flatMap_cons, release_append]

def product : Arena := empty.pushAll [.literal "2", .literal "3", .binary .mul 0 1]

/-- The first factor does not come back to its product. -/
example : (product.pushAll [.assignment "x" 0]).truncate product.size = product.release [0] := by cbv

theorem truncate_pushAll_eq_self_iff (h : a.Linked) : (a.pushAll nodes).truncate a.size = a ↔
    ∀ n ∈ nodes, ∀ child ∈ n.children, a.parent? child = none := by
  rw [truncate_pushAll_eq_release (Nat.le_refl _), h.truncate_size, release_eq_self_iff, List.forall_mem_flatMap]

theorem Linked.pushAll (h : a.Linked) (hn : a.Accepts nodes) : (a.pushAll nodes).Linked := by
  induction nodes generalizing a with
  | nil => exact h
  | cons n nodes ih => exact ih (h.push hn.1) hn.2

/-- What was added can be cut off again with nothing changed, if of the nodes before it only those without a parent were
adopted. The links of the larger arena lead into it as well, so that more can be added and cut off in the meantime. -/
theorem truncate_pushAll (h : a.Linked) (hn : a.Accepts nodes)
    (hfree : ∀ n ∈ nodes, ∀ child ∈ n.children, child < a.size → a.parent? child = none) :
    (a.pushAll nodes).Linked ∧ (a.pushAll nodes).truncate a.size = a := by
  refine ⟨h.pushAll hn, (truncate_pushAll_eq_self_iff h).2 fun n hmem child hc => ?_⟩
  rcases Nat.lt_or_ge child a.size with hold | hnew
  · exact hfree n hmem child hc hold
  · exact parent?_of_le hnew

/-- The product is adopted twice. -/
def adopters : List Node := [.literal "4", .binary .add 2 3, .declaration "x" (some 2), .program [4, 5]]

theorem truncate_pushAll_product : product.Linked ∧ product.Accepts adopters ∧
    (∀ n ∈ adopters, ∀ child ∈ n.children, child < product.size → product.parent? child = none) ∧
    (product.pushAll adopters).Linked ∧ (product.pushAll adopters).truncate product.size = product := by
  have hlinked : product.Linked := linked_empty.pushAll (by decide)
  have haccepts : product.Accepts adopters := by decide
  have hfree : ∀ n ∈ adopters, ∀ child ∈ n.children, child < product.size → product.parent? child = none := by decide
  exact ⟨hlinked, haccepts, hfree, truncate_pushAll hlinked haccepts hfree⟩

end IntScript.Arena
