import Mathlib.Data.List.Infix

namespace IntScript.Text

def OpensAtMost (n : Nat) (cs : List Char) : Prop := ∀ p, p <+: cs → p.count '(' ≤ p.count ')' + n

def Balanced (cs : List Char) : Prop := cs.count '(' = cs.count ')'

def Plain (cs : List Char) : Prop := '(' ∉ cs ∧ ')' ∉ cs

variable {n : Nat} {a b cs : List Char}

theorem Balanced.append (ha : Balanced a) (hb : Balanced b) : Balanced (a ++ b) := by
  rw [Balanced, List.count_append, List.count_append, ha, hb]

theorem Balanced.group (ha : Balanced a) : Balanced ('(' :: (a ++ [')'])) := by
  rw [Balanced] at ha
  simp [Balanced, ha]

theorem Plain.append (ha : Plain a) (hb : Plain b) : Plain (a ++ b) :=
  ⟨List.not_mem_append ha.1 hb.1, List.not_mem_append ha.2 hb.2⟩

theorem Plain.balanced (h : Plain cs) : Balanced cs := by
  rw [Balanced, List.count_eq_zero_of_not_mem h.1, List.count_eq_zero_of_not_mem h.2]

theorem opensAtMost_append (ha : Balanced a) (b : List Char) :
    OpensAtMost n (a ++ b) ↔ OpensAtMost n a ∧ OpensAtMost n b := by
  rw [Balanced] at ha
  constructor
  · intro h
    refine ⟨fun p hp => h p (hp.trans (List.prefix_append a b)), fun p hp => ?_⟩
    have hc := h (a ++ p) ((List.prefix_append_right_inj a).2 hp)
    rw [List.count_append, List.count_append] at hc
    omega
  · rintro ⟨h, h'⟩ p ⟨q, hq⟩
    rcases List.append_eq_append_iff.1 hq with ⟨c, rfl, rfl⟩ | ⟨c, rfl, rfl⟩
    · exact h p (List.prefix_append p c)
    · have hc := h' c (List.prefix_append c q)
      rw [List.count_append, List.count_append]
      omega

theorem opensAtMost_group (n : Nat) (a : List Char) : OpensAtMost (n + 1) ('(' :: (a ++ [')'])) ↔ OpensAtMost n a := by
  constructor
  · intro h p hp
    have hc := h ('(' :: p) (List.cons_prefix_cons.2 ⟨rfl, hp.trans (List.prefix_append a _)⟩)
    simp at hc
    omega
  · intro h p hp
    cases p with
    | nil => simp
    | cons c p =>
        obtain ⟨rfl, hq⟩ := List.cons_prefix_cons.1 hp
        rcases List.prefix_concat_iff.1 hq with rfl | hq
        · have hc := h a (List.prefix_refl a)
          simp
          omega
        · have hc := h p hq
          simp
          omega

theorem not_opensAtMost_zero (a : List Char) : ¬ OpensAtMost 0 ('(' :: a) := by
  intro h
  have hc := h ['('] (List.prefix_append ['('] a)
  simp at hc

theorem Plain.opensAtMost (h : Plain cs) (n : Nat) : OpensAtMost n cs := by
  intro p hp
  rw [List.count_eq_zero_of_not_mem fun hm => h.1 (hp.subset hm)]
  exact Nat.zero_le _

/-- What has no parentheses changes nothing around the rest. -/
theorem opensAtMost_between (ha : Plain a) (hb : Plain b) (hcs : Balanced cs) :
    OpensAtMost n (a ++ (cs ++ b)) ↔ OpensAtMost n cs := by
  rw [opensAtMost_append ha.balanced, opensAtMost_append hcs]
  constructor
  · exact fun h => h.2.1
  · exact fun h => ⟨ha.opensAtMost n, h, hb.opensAtMost n⟩

end IntScript.Text
