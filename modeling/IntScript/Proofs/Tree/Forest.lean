import IntScript.Proofs.Tree.Nodes
import Mathlib.Data.List.Nodup

namespace IntScript

def Node.Admits : Node → Node → Prop
  | .program _, child => child.statementType ∈ [.declaration, .assignment, .expressionStatement]
  | _, child => child.statementType = .expressionStatement

namespace Arena

def children (a : Arena) (id : Nat) : List Nat := (a.node? id).elim [] Node.children

/-- The places of a tree, each after those of its children. Children are only looked for before their parent. -/
def postorder (a : Arena) (id : Nat) : List Nat :=
  (a.children id).flatMap (fun child => if child < id then a.postorder child else []) ++ [id]
termination_by id

variable {a : Arena} {id p : Nat} {n : Node} {roots kept : List Nat}

theorem children_of_node (h : a.node? id = some n) : a.children id = n.children := by
  rw [children, h, Option.elim_some]

theorem children_of_le (h : a.size ≤ id) : a.children id = [] := by
  cases hn : a.node? id with
  | none => rw [children, hn, Option.elim_none]
  | some n => exact absurd (lt_size_of_node? hn) (Nat.not_lt.2 h)

theorem parent?_of_le (h : a.size ≤ id) : a.parent? id = none := by
  have hslot : a.slots[id]? = none := Array.getElem?_eq_none h
  rw [parent?, hslot, Option.bind_none]

theorem child_lt_of_mem (ha : a.Ordered) {child : Nat} (h : child ∈ a.children id) : child < id := by
  cases hn : a.node? id with
  | none => simp [children, hn] at h
  | some n =>
      rw [children_of_node hn] at h
      exact ha id (lt_size_of_node? hn) n hn child h

theorem postorder_eq (ha : a.Ordered) (id : Nat) :
    a.postorder id = (a.children id).flatMap a.postorder ++ [id] := by
  rw [postorder]
  congr 1
  apply List.flatMap_congr
  intro child hc
  rw [if_pos (child_lt_of_mem ha hc)]

theorem self_mem_postorder (a : Arena) (id : Nat) : id ∈ a.postorder id := by
  rw [postorder]
  exact List.mem_append_right _ List.mem_cons_self

theorem children_push_size (a : Arena) (n : Node) : (a.push n).children a.size = n.children :=
  children_of_node (node?_push_size a n)

theorem children_push_of_ne (n : Node) (h : id ≠ a.size) : (a.push n).children id = a.children id := by
  rw [children, node?_push, if_neg h, children]

/-- What is pushed leaves the trees alone that were there before. -/
theorem postorder_push (ha : a.Ordered) (n : Node) (hid : id < a.size) : (a.push n).postorder id = a.postorder id := by
  induction id using Nat.strongRecOn with
  | _ id ih =>
      rw [postorder, postorder, children_push_of_ne n (Nat.ne_of_lt hid)]
      congr 1
      apply List.flatMap_congr
      intro child hc
      have hlt := child_lt_of_mem ha hc
      rw [if_pos hlt, if_pos hlt, ih child hlt (Nat.lt_trans hlt hid)]

theorem parent?_push (h : ∀ child ∈ n.children, child < a.size) (id : Nat) :
    (a.push n).parent? id = if id ∈ n.children then some a.size else a.parent? id := by
  rw [parent?, slots_push]
  by_cases hid : id = a.size
  · have hnot : id ∉ n.children := fun hmem => Nat.ne_of_lt (h id hmem) hid
    rw [if_pos hid, if_neg hnot, parent?_of_le (Nat.le_of_eq hid.symm), Option.bind_some]
  · rw [if_neg hid]
    split_ifs with hmem
    · rw [Array.getElem?_eq_getElem (h id hmem), Option.map_some, Option.bind_some]
    · rfl

/-- The arena lists the trees with these roots one after the other, each in post-order. -/
structure Forest (a : Arena) (roots : List Nat) : Prop where
  ordered : a.Ordered
  parent (id p : Nat) : a.parent? id = some p ↔ id ∈ a.children p
  root (id : Nat) (hid : id < a.size) : id ∈ roots ↔ a.parent? id = none
  once (id : Nat) : (a.children id).Nodup
  walk : roots.flatMap a.postorder = List.range a.size

theorem forest_empty : empty.Forest [] where
  ordered := ordered_empty
  parent id p := by
    rw [children_of_le (Nat.zero_le p)]
    exact iff_of_false nofun List.not_mem_nil
  root id hid := absurd hid (Nat.not_lt_zero id)
  once id := by
    rw [children_of_le (Nat.zero_le id)]
    exact List.nodup_nil
  walk := rfl

namespace Forest

theorem lt_size (h : a.Forest roots) (hid : id ∈ roots) : id < a.size := by
  rw [← List.mem_range, ← h.walk]
  exact List.mem_flatMap.2 ⟨id, hid, self_mem_postorder a id⟩

theorem nodup (h : a.Forest roots) : roots.Nodup := by
  have hwalk : (roots.flatMap a.postorder).Nodup := h.walk ▸ List.nodup_range
  refine (List.nodup_flatMap.1 hwalk).2.imp ?_
  rintro i j hdisjoint rfl
  exact hdisjoint (self_mem_postorder a i) (self_mem_postorder a i)

section

variable (h : a.Forest (kept ++ n.children))
include h

theorem child_lt_size : ∀ child ∈ n.children, child < a.size := fun _ hc => h.lt_size (List.mem_append_right kept hc)

theorem parent_push (id p : Nat) : (a.push n).parent? id = some p ↔ id ∈ (a.push n).children p := by
  rw [parent?_push h.child_lt_size]
  -- Only the children of the new node get a parent. They were roots, and so nobody's children before.
  by_cases hp : p = a.size
  · subst hp
    rw [children_push_size]
    split_ifs with hid
    · exact iff_of_true rfl hid
    · refine iff_of_false (fun hparent => ?_) hid
      rw [h.parent, children_of_le (Nat.le_refl _)] at hparent
      exact List.not_mem_nil hparent
  · rw [children_push_of_ne n hp, ← h.parent]
    split_ifs with hid
    · refine iff_of_false (fun hsize => hp (Option.some.inj hsize).symm) fun hparent => ?_
      rw [(h.root id (h.child_lt_size id hid)).1 (List.mem_append_right kept hid)] at hparent
      exact nomatch hparent
    · exact Iff.rfl

theorem root_push (hid : id < (a.push n).size) : id ∈ kept ++ [a.size] ↔ (a.push n).parent? id = none := by
  rw [parent?_push h.child_lt_size]
  rw [size_push] at hid
  rcases Nat.lt_succ_iff_lt_or_eq.1 hid with hid | rfl
  · obtain ⟨-, -, hdisjoint⟩ := List.nodup_append.1 h.nodup
    rw [List.mem_append, List.mem_singleton, or_iff_left (Nat.ne_of_lt hid)]
    split_ifs with hmem
    · exact iff_of_false (fun hkept => hdisjoint id hkept id hmem rfl) nofun
    · rw [← h.root id hid, List.mem_append, or_iff_left hmem]
  · refine iff_of_true (List.mem_append_right kept List.mem_cons_self) ?_
    rw [if_neg fun hmem => Nat.lt_irrefl _ (h.child_lt_size _ hmem), parent?_of_le (Nat.le_refl _)]

theorem walk_push : (kept ++ [a.size]).flatMap (a.push n).postorder = List.range (a.push n).size := by
  have hsame (ids : List Nat) (hids : ∀ id ∈ ids, id < a.size) :
      ids.flatMap (a.push n).postorder = ids.flatMap a.postorder :=
    List.flatMap_congr fun id hid => postorder_push h.ordered n (hids id hid)
  have hkept : ∀ id ∈ kept, id < a.size := fun id hid => h.lt_size (List.mem_append_left _ hid)
  calc (kept ++ [a.size]).flatMap (a.push n).postorder
      = kept.flatMap (a.push n).postorder ++ (n.children.flatMap (a.push n).postorder ++ [a.size]) := by
        rw [List.flatMap_append, List.flatMap_singleton, postorder_eq (h.ordered.push h.child_lt_size), children_push_size]
    _ = (kept ++ n.children).flatMap a.postorder ++ [a.size] := by
        rw [hsame kept hkept, hsame n.children h.child_lt_size, ← List.append_assoc, ← List.flatMap_append]
    _ = List.range (a.push n).size := by rw [h.walk, size_push, List.range_succ]

/-- The last trees become the children of a new root. -/
theorem push : (a.push n).Forest (kept ++ [a.size]) where
  ordered := h.ordered.push h.child_lt_size
  parent := h.parent_push
  root _ := h.root_push
  once id := by
    by_cases hid : id = a.size
    · rw [hid, children_push_size]
      exact (List.nodup_append.1 h.nodup).2.1
    · rw [children_push_of_ne n hid]
      exact h.once id
  walk := h.walk_push

end

theorem push_leaf (h : a.Forest roots) (hn : n.children = []) : (a.push n).Forest (roots ++ [(a.push n).last]) := by
  rw [last_push]
  apply push
  rwa [hn, List.append_nil]

theorem graft (h : a.Forest roots) (e : Expr) : (a.graft e).Forest (roots ++ [(a.graft e).last]) := by
  induction e generalizing a roots with
  | literal text | identifier name => exact h.push_leaf rfl
  | binary op left right ihl ihr =>
      have hoperands := ihr (ihl h)
      rw [List.append_assoc] at hoperands
      rw [Arena.graft, last_push]
      exact push hoperands

theorem graftStmt (h : a.Forest roots) (x : Stmt) : (a.graftStmt x).Forest (roots ++ [(a.graftStmt x).last]) := by
  cases x with
  | declaration name init? =>
      cases init? with
      | none => exact h.push_leaf rfl
      | some init =>
          rw [Arena.graftStmt, last_push]
          exact push (h.graft init)
  | assignment name value =>
      rw [Arena.graftStmt, last_push]
      exact push (h.graft value)
  | expression value => exact h.graft value

/-- The roots of the statements are those that the program takes as its children, so that one tree is left. -/
theorem graftProgram {ids : List Nat} (h : a.Forest ids.reverse) (xs : List Stmt) :
    (a.graftProgram ids xs).Forest [(a.graftProgram ids xs).last] := by
  induction xs generalizing a ids with
  | nil =>
      have hids : a.Forest ([] ++ (Node.program ids.reverse).children) := h
      rw [Arena.graftProgram, last_push]
      exact hids.push
  | cons x xs ih =>
      have hx := h.graftStmt x
      rw [← List.reverse_cons] at hx
      exact ih hx

end Forest

def Unfinished (a : Arena) : Prop := ∀ id n, a.node? id = some n → n.type ≠ .program

theorem unfinished_empty : empty.Unfinished := fun _ _ h => nomatch h

namespace Unfinished

theorem push (h : a.Unfinished) (hn : n.type ≠ .program) : (a.push n).Unfinished := by
  intro id m hm
  rw [node?_push] at hm
  split_ifs at hm with hid
  · exact Option.some.inj hm ▸ hn
  · exact h id m hm

theorem graftStmt (h : a.Unfinished) (x : Stmt) : (a.graftStmt x).Unfinished :=
  graftStmt_induction (fun _ _ hb ht _ => hb.push ht) h x

theorem graftProgram (h : a.Unfinished) (ids : List Nat) (xs : List Stmt)
    (hn : (a.graftProgram ids xs).node? id = some n) : n.type = .program ↔ id = (a.graftProgram ids xs).last := by
  induction xs generalizing a ids with
  | nil =>
      rw [Arena.graftProgram, node?_push] at hn
      rw [Arena.graftProgram, last_push]
      split_ifs at hn with hid
      · obtain rfl := Option.some.inj hn
        exact iff_of_true rfl hid
      · exact iff_of_false (h id n hn) hid
  | cons x xs ih => exact ih (h.graftStmt x) _ hn

end Unfinished

/-- The arena is what a walk through one tree meets, in post-order and with nothing else between. -/
structure PostOrder (a : Arena) (root : Nat) : Prop where
  rooted : a.root? = some root
  last : a.size = root + 1
  walk : a.postorder root = List.range a.size
  program (id : Nat) (n : Node) (hn : a.node? id = some n) : n.type = .program ↔ id = root
  orphan (id : Nat) (hid : id < a.size) : a.parent? id = none ↔ id = root
  child (id : Nat) (hid : id < root) : ∃ p n, a.node? p = some n ∧ a.parent? id = some p ∧ id < p ∧
    n.children.count id = 1 ∧ ∀ q m, a.node? q = some m → id ∈ m.children → q = p
  admits (id : Nat) (n : Node) (hn : a.node? id = some n) :
    ∀ child ∈ n.children, ∃ m, a.node? child = some m ∧ n.Admits m

theorem Forest.exists_parent {root : Nat} (h : a.Forest [root]) (hid : id < a.size) (hne : id ≠ root) :
    ∃ p n, a.node? p = some n ∧ a.parent? id = some p ∧ id < p ∧ n.children.count id = 1 ∧
      ∀ q m, a.node? q = some m → id ∈ m.children → q = p := by
  cases hp : a.parent? id with
  | none => exact absurd (List.mem_singleton.1 ((h.root id hid).2 hp)) hne
  | some p =>
      have hmem := (h.parent id p).1 hp
      cases hn : a.node? p with
      | none => simp [children, hn] at hmem
      | some n =>
          have honce := h.once p
          have hlt := child_lt_of_mem h.ordered hmem
          rw [children_of_node hn] at hmem honce
          refine ⟨p, n, hn, rfl, hlt, List.count_eq_one_of_mem honce hmem, fun q m hm hq => ?_⟩
          rw [← children_of_node hm, ← h.parent, hp] at hq
          exact (Option.some.inj hq).symm

theorem HoldsStmt.admitted {x : Stmt} (h : a.HoldsStmt id x) (ids : List Nat) :
    ∃ m, a.node? id = some m ∧ (Node.program ids).Admits m := by
  obtain ⟨m, hm, htype⟩ := h.statementType
  refine ⟨m, hm, ?_⟩
  rw [Node.Admits, htype]
  cases x <;> simp [Stmt.nodeType]

theorem admits_of_typed (h : a.Typed) (hn : a.node? id = some n) (ht : n.type ≠ .program) :
    ∀ child ∈ n.children, ∃ m, a.node? child = some m ∧ n.Admits m := by
  intro child hc
  obtain ⟨e, he⟩ := h id n hn ht child hc
  obtain ⟨m, hm, htype⟩ := he.statementType
  refine ⟨m, hm, ?_⟩
  cases n with
  | program => exact absurd rfl ht
  | declaration | assignment | binary | identifier | literal => exact htype

theorem size_of_root? {root : Nat} (h : a.root? = some root) : a.size = root + 1 := by
  rw [root?] at h
  split_ifs at h with hsize
  have hroot := Option.some.inj h
  omega

theorem Forest.postOrder {root : Nat} {xs : List Stmt} (h : a.Forest [root])
    (hprogram : ∀ id n, a.node? id = some n → (n.type = .program ↔ id = root)) (htyped : a.Typed)
    (hxs : a.HoldsProgram xs) : a.PostOrder root := by
  obtain ⟨root', ids, hroot, hn, hids⟩ := hxs
  obtain rfl : root' = root := (hprogram root' _ hn).1 rfl
  refine ⟨hroot, size_of_root? hroot, ?_, hprogram, ?_, ?_, ?_⟩
  · rw [← h.walk, List.flatMap_singleton]
  · intro id hid
    rw [← h.root id hid, List.mem_singleton]
  · intro id hid
    exact h.exists_parent (Nat.lt_trans hid (lt_size_of_node? hn)) (Nat.ne_of_lt hid)
  · intro id n hm child hc
    by_cases ht : n.type = .program
    · obtain rfl := (hprogram id n hm).1 ht
      obtain rfl := Option.some.inj (hn.symm.trans hm)
      obtain ⟨k, hk⟩ := List.mem_iff_getElem?.1 hc
      obtain ⟨x, -, hx⟩ := exists_stmt hids hk
      exact hx.admitted ids
    · exact admits_of_typed htyped hm ht child hc

theorem postOrder_graftProgram (xs : List Stmt) : (empty.graftProgram [] xs).PostOrder (empty.graftProgram [] xs).last := by
  have hforest : (empty.graftProgram [] xs).Forest [(empty.graftProgram [] xs).last] := forest_empty.graftProgram xs
  apply hforest.postOrder
  · exact fun id n hn => unfinished_empty.graftProgram [] xs hn
  · exact typed_empty.graftProgram [] xs
  · exact holdsProgram_graftProgram [] .nil xs

end Arena

end IntScript
