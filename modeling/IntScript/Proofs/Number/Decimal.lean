import IntScript.Number.Literal
import Mathlib.Data.Nat.Digits.Defs

namespace IntScript.Number

def InRange (n : Int) : Prop := minValue ≤ n ∧ n ≤ maxValue

instance (n : Int) : Decidable (InRange n) := inferInstanceAs (Decidable (minValue ≤ n ∧ n ≤ maxValue))

theorem inRange_toInt (v : Int64) : InRange v.toInt := by
  have hl := v.le_toInt
  have hu := v.toInt_lt
  constructor <;> simp only [minValue, maxValue] <;> omega

theorem ofInt?_of_inRange {n : Int} (h : InRange n) : ∃ v, ofInt? n = some v ∧ v.toInt = n := by
  refine ⟨Int64.ofInt n, if_pos h, ?_⟩
  obtain ⟨hl, hu⟩ := h
  simp only [minValue, maxValue] at hl hu
  exact Int64.toInt_ofInt_of_le (by omega) (by omega)

theorem ofInt?_of_not_inRange {n : Int} (h : ¬ InRange n) : ofInt? n = none := if_neg h

/-- A quotient of words is out of range only in one case. -/
theorem inRange_tdiv {m n : Int} (hm : InRange m) (hn : InRange n) (h : ¬ InRange (m.tdiv n)) :
    m = minValue ∧ n = -1 := by
  have hq : (m.tdiv n).natAbs = m.natAbs / n.natAbs := Int.natAbs_tdiv m n
  simp only [InRange, minValue, maxValue] at *
  by_cases hone : n = 1
  · rw [hone, Int.tdiv_one] at h
    omega
  by_cases hneg : n = -1
  · rw [hneg, Int.tdiv_neg, Int.tdiv_one] at h
    omega
  have hle : m.natAbs / n.natAbs ≤ m.natAbs / 2 := by
    by_cases hz : n.natAbs = 0
    · simp [hz]
    · exact Nat.div_le_div_left (by omega) (by omega)
  omega

def digit (c : Char) : Nat := c.toNat - '0'.toNat

def decimal (text : String) : Nat := Nat.ofDigits 10 (text.toList.map digit).reverse

def IsDecimal (text : String) : Prop := text.toList ≠ [] ∧ ∀ c ∈ text.toList, c.isDigit = true

def readFrom (n : Nat) (cs : List Char) : Nat := cs.foldl (fun n c => 10 * n + digit c) n

theorem decimal_eq (text : String) : decimal text = readFrom 0 text.toList := by
  rw [decimal, Nat.ofDigits_eq_foldr, List.foldr_reverse, List.foldl_map, readFrom]
  simp only [Nat.cast_id, Nat.add_comm]

theorem le_readFrom (n : Nat) (cs : List Char) : n ≤ readFrom n cs := by
  induction cs generalizing n with
  | nil => exact Nat.le_refl n
  | cons c cs ih =>
      have h := ih (10 * n + digit c)
      change n ≤ readFrom (10 * n + digit c) cs
      omega

theorem digitsFrom?_eq {limit : Nat} (n : Nat) {cs : List Char} (hc : ∀ c ∈ cs, c.isDigit = true)
    (hn : n ≤ limit) :
    digitsFrom? limit n cs = if readFrom n cs ≤ limit then some (readFrom n cs) else none := by
  induction cs generalizing n with
  | nil => exact (if_pos hn).symm
  | cons c cs ih =>
      have hs : readFrom n (c :: cs) = readFrom (10 * n + digit c) cs := rfl
      rw [digitsFrom?, if_pos (hc c List.mem_cons_self), hs]
      by_cases hl : 10 * n + digit c ≤ limit
      · rw [← ih _ (fun d hd => hc d (List.mem_cons_of_mem c hd)) hl]
        exact if_pos hl
      · have hle := le_readFrom (10 * n + digit c) cs
        rw [if_neg (fun h => hl (Nat.le_trans hle h))]
        exact if_neg hl

theorem digits?_eq (limit : Nat) {text : String} (h : IsDecimal text) :
    digits? limit text.toList = if decimal text ≤ limit then some (decimal text) else none := by
  rw [digits?, decimal_eq, if_neg (by simpa using h.1)]
  exact digitsFrom?_eq 0 h.2 (Nat.zero_le limit)

theorem literal?_eq {text : String} (h : IsDecimal text) : literal? text = ofInt? (decimal text) := by
  have hd := digits?_eq maxValue.natAbs h
  rw [literal?]
  split
  · next cs hs => exact absurd (h.2 '-' (by simp [hs])) (by decide)
  · next cs hs => exact absurd (h.2 '+' (by simp [hs])) (by decide)
  · rw [hd]
    by_cases hl : decimal text ≤ maxValue.natAbs
    · have hr : InRange (decimal text) := by
        simp only [InRange, minValue, maxValue] at *
        omega
      rw [if_pos hl]
      exact (if_pos hr).symm
    · have hr : ¬ InRange (decimal text) := by
        simp only [InRange, minValue, maxValue] at *
        omega
      rw [if_neg hl]
      exact (if_neg hr).symm

end IntScript.Number
