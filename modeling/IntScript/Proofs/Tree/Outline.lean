import IntScript.Proofs.Tree.Forest
import IntScript.Tree.Listing
import Mathlib.Data.List.Perm.Basic

namespace IntScript.Arena

/-- The places of a tree with their depths, each before those of its children. -/
def preorder (a : Arena) (id depth : Nat) : List (Nat × Nat) :=
  (id, depth) :: (a.children id).flatMap fun child => if child < id then a.preorder child (depth + 1) else []
termination_by id

def line? (a : Arena) (place : Nat × Nat) : Option Line :=
  (a.node? place.1).map fun n => ⟨place.2, n.type, n.text⟩

def outline (a : Arena) (pending : List (Nat × Nat)) : List (Nat × Nat) :=
  pending.flatMap fun place => a.preorder place.1 place.2

variable {a : Arena} {id root : Nat} {n : Node}

theorem preorder_eq (ha : a.Ordered) (id depth : Nat) :
    a.preorder id depth = (id, depth) :: (a.children id).flatMap (a.preorder · (depth + 1)) := by
  rw [preorder]
  congr 1
  apply List.flatMap_congr
  intro child hc
  rw [if_pos (child_lt_of_mem ha hc)]

/-- Both walks meet the same places. -/
theorem preorder_perm (ha : a.Ordered) (id depth : Nat) : ((a.preorder id depth).map Prod.fst).Perm (a.postorder id) := by
  induction id using Nat.strongRecOn generalizing depth with
  | _ id ih =>
      rw [preorder_eq ha, postorder_eq ha, List.map_cons, List.map_flatMap]
      have hchildren : ((a.children id).flatMap fun child => (a.preorder child (depth + 1)).map Prod.fst).Perm
          ((a.children id).flatMap a.postorder) := by
        apply List.Perm.flatMap_left
        intro child hc
        exact ih child (child_lt_of_mem ha hc) (depth + 1)
      exact (hchildren.cons id).trans (List.perm_append_singleton id _).symm

theorem outline_cons (ha : a.Ordered) (id depth : Nat) (pending : List (Nat × Nat)) :
    a.outline ((id, depth) :: pending) =
      (id, depth) :: a.outline ((a.children id).map (·, depth + 1) ++ pending) := by
  rw [outline, outline, List.flatMap_cons, List.flatMap_append, List.flatMap_map, preorder_eq ha, List.cons_append]

/-- The walk over the pending nodes lists their trees, as long as it may take a step for each place. -/
theorem listFrom_outline (ha : a.Ordered) (fuel : Nat) {pending : List (Nat × Nat)} (lines : Array Line)
    (hlt : ∀ place ∈ pending, place.1 < a.size) (hfuel : (a.outline pending).length ≤ fuel) :
    (a.listFrom fuel pending lines).toList.map some = lines.toList.map some ++ (a.outline pending).map a.line? := by
  -- Each step takes one place off what is left to list, so that the fuel lasts.
  induction fuel generalizing pending lines with
  | zero =>
      rw [List.eq_nil_of_length_eq_zero (Nat.eq_zero_of_le_zero hfuel), listFrom, List.map_nil, List.append_nil]
  | succ fuel ih =>
      cases pending with
      | nil => exact (List.append_nil _).symm
      | cons place pending =>
          obtain ⟨id, depth⟩ := place
          obtain ⟨hid, hpending⟩ := List.forall_mem_cons.1 hlt
          obtain ⟨n, hn⟩ := node?_of_lt_size hid
          have hchildren := children_of_node hn
          rw [outline_cons ha, List.length_cons] at hfuel
          have hnext : ∀ place ∈ (a.children id).map (·, depth + 1) ++ pending, place.1 < a.size := by
            intro place hp
            rcases List.mem_append.1 hp with hp | hp
            · obtain ⟨child, hc, rfl⟩ := List.mem_map.1 hp
              exact Nat.lt_trans (child_lt_of_mem ha hc) hid
            · exact hpending place hp
          have hline : a.line? (id, depth) = some ⟨depth, n.type, n.text⟩ := by rw [line?, hn, Option.map_some]
          rw [listFrom, hn]
          dsimp only
          rw [← hchildren, ih _ hnext (Nat.le_of_succ_le_succ hfuel), outline_cons ha, Array.toList_push, List.map_append,
            List.append_assoc, List.map_cons, List.map_cons, hline]
          rfl

/-- Listing a tree is walking through it in pre-order, with a line for every node. -/
structure Listed (a : Arena) (root : Nat) : Prop where
  rooted : a.root? = some root
  lines : a.lines.toList.map some = (a.preorder root 0).map a.line?
  once : ((a.preorder root 0).map Prod.fst).Perm (List.range a.size)
  size : a.lines.size = a.size

theorem PostOrder.listed (h : a.PostOrder root) (ha : a.Ordered) : a.Listed root := by
  have honce : ((a.preorder root 0).map Prod.fst).Perm (List.range a.size) := h.walk ▸ preorder_perm ha root 0
  have hlength : (a.preorder root 0).length = a.size := by
    simpa using honce.length_eq
  have houtline : a.outline [(root, 0)] = a.preorder root 0 := List.flatMap_singleton _ _
  have hlt : ∀ place ∈ [(root, 0)], place.1 < a.size := by
    rintro place hp
    obtain rfl := List.mem_singleton.1 hp
    rw [h.last]
    exact Nat.lt_succ_self root
  have hlines : a.lines.toList.map some = (a.preorder root 0).map a.line? := by
    rw [Arena.lines, h.rooted]
    rw [← houtline] at hlength ⊢
    exact listFrom_outline ha a.size #[] hlt (Nat.le_of_eq hlength)
  refine ⟨h.rooted, hlines, honce, ?_⟩
  rw [← hlength, ← Array.length_toList, ← List.length_map some, hlines, List.length_map]

end IntScript.Arena
