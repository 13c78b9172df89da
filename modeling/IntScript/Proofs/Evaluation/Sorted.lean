import IntScript.Evaluation.Environment
import Mathlib.Data.List.Sort
import Mathlib.Data.String.Basic

namespace IntScript.Environment

variable {env : Environment} {stem name : String}

theorem mem_namesFrom : name ∈ env.namesFrom stem ↔ env.isDeclared name = true ∧ stem.toList <+: name.toList := by
  rw [namesFrom, List.mem_filter, List.isPrefixOf_iff_prefix, Std.ExtTreeMap.mem_keys]
  rfl

theorem sorted_namesFrom (env : Environment) (stem : String) : (env.namesFrom stem).Pairwise (· < ·) := by
  apply List.Pairwise.filter
  exact env.slots.ordered_keys.imp fun h => compareOfLessAndEq_eq_lt.1 h

theorem sorted_bindings (env : Environment) : env.bindings.Pairwise fun p q => p.1 < q.1 :=
  env.slots.ordered_keys_toList.imp fun h => compareOfLessAndEq_eq_lt.1 h

/-- Whatever the order in which the names are kept, those that begin with the text come out sorted. -/
theorem mergeSort_keys {keys : List String} (h : keys.Perm env.slots.keys) (stem : String) :
    (keys.filter fun name => stem.toList.isPrefixOf name.toList).mergeSort = env.namesFrom stem := by
  have hperm : ((keys.filter fun name => stem.toList.isPrefixOf name.toList).mergeSort).Perm (env.namesFrom stem) :=
    (List.mergeSort_perm _ _).trans (h.filter _)
  exact hperm.eq_of_pairwise' (List.pairwise_mergeSort' (· ≤ ·) _) ((env.sorted_namesFrom stem).imp le_of_lt)

theorem eq_of_mem_bindings {p q : String × Option Int64} (hp : p ∈ env.bindings) (hq : q ∈ env.bindings)
    (h : p.1 = q.1) : p = q := by
  have hget {p : String × Option Int64} (hp : p ∈ env.bindings) : env.slots[p.1]? = some p.2 :=
    Std.ExtTreeMap.mem_toList_iff_getElem?_eq_some.1 hp
  have hvalue : some p.2 = some q.2 := by rw [← hget hp, ← hget hq, h]
  exact Prod.ext h (Option.some.inj hvalue)

/-- Any order that compares the names first sorts the variables in the same way, as no two have the same name. -/
theorem mergeSort_entries {entries : List (String × Option Int64)} (h : entries.Perm env.bindings)
    (le : String × Option Int64 → String × Option Int64 → Bool)
    (htrans : ∀ p q r, le p q → le q r → le p r) (htotal : ∀ p q, le p q || le q p)
    (hname : ∀ p q, le p q → p.1 ≤ q.1) : entries.mergeSort le = env.bindings := by
  have hperm : (entries.mergeSort le).Perm env.bindings := (List.mergeSort_perm _ _).trans h
  have hsorted : (entries.mergeSort le).Pairwise fun p q => p.1 ≤ q.1 :=
    (List.pairwise_mergeSort htrans htotal entries).imp (hname _ _)
  have hbindings : env.bindings.Pairwise fun p q => p.1 ≤ q.1 := env.sorted_bindings.imp le_of_lt
  refine hperm.eq_of_pairwise (fun p q hp hq hle hge => ?_) hsorted hbindings
  exact eq_of_mem_bindings (hperm.mem_iff.1 hp) hq (le_antisymm hle hge)

end IntScript.Environment
