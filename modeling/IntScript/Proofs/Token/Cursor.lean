import IntScript.Token.Cursor
import Mathlib.Logic.Function.Iterate

namespace IntScript.Cursor

def skip (c : Cursor) (n : Nat) : Cursor := advance^[n] c

theorem rest_start (tokens : Array Token) : (start tokens).rest = tokens.toList := rfl

theorem rest_start_toArray (ts : List Token) : (start ts.toArray).rest = ts := rfl

theorem skip_succ (c : Cursor) (n : Nat) : c.skip (n + 1) = c.advance.skip n := rfl

theorem advance_skip (c : Cursor) (n : Nat) : (c.skip n).advance = c.skip (n + 1) :=
  (Function.iterate_succ_apply' advance n c).symm

theorem skip_skip (c : Cursor) (m n : Nat) : (c.skip m).skip n = c.skip (m + n) := by
  rw [skip, skip, ← Function.iterate_add_apply, Nat.add_comm n m, skip]

theorem remaining_eq_length (c : Cursor) : c.remaining = c.rest.length := by
  simp [remaining, rest]

theorem peek?_eq_head? (c : Cursor) : c.peek? = c.rest.head? := by
  simp [peek?, rest, List.head?_drop]

theorem rest_advance (c : Cursor) : c.advance.rest = c.rest.tail := by
  by_cases h : c.position < c.tokens.size
  · simp [advance, rest, h]
  · have hs : c.rest = [] := List.drop_eq_nil_of_le (by simpa using h)
    simp [advance, h, hs]

theorem rest_skip (c : Cursor) (n : Nat) : (c.skip n).rest = c.rest.drop n := by
  induction n generalizing c with
  | zero => rfl
  | succ n ih => rw [skip_succ, ih, rest_advance, List.drop_tail]

theorem position_advance {c : Cursor} (h : c.rest ≠ []) : c.advance.position = c.position + 1 := by
  have hlt : c.position < c.tokens.size := by
    by_contra hn
    exact h (List.drop_eq_nil_of_le (by simpa using hn))
  simp [advance, hlt]

theorem position_skip {c : Cursor} {n : Nat} (h : n ≤ c.rest.length) :
    (c.skip n).position = c.position + n := by
  induction n generalizing c with
  | zero => rfl
  | succ n ih =>
      have hne : c.rest ≠ [] := by
        intro he
        simp [he] at h
      have hl : n ≤ c.advance.rest.length := by
        rw [rest_advance, List.length_tail]
        omega
      rw [skip_succ, ih hl, position_advance hne]
      omega

theorem tokens_skip (c : Cursor) (n : Nat) : (c.skip n).tokens = c.tokens := by
  induction n generalizing c with
  | zero => rfl
  | succ n ih =>
      rw [skip_succ, ih, advance]
      split <;> rfl

theorem tokens_advance (c : Cursor) : c.advance.tokens = c.tokens := tokens_skip c 1

theorem position_le_advance (c : Cursor) : c.position ≤ c.advance.position := by
  rw [advance]
  split
  · exact Nat.le_succ c.position
  · exact Nat.le_refl c.position

theorem position_lt_advance {c : Cursor} {t : Token} (h : c.peek? = some t) : c.position < c.advance.position := by
  obtain ⟨us, hs⟩ := List.head?_eq_some_iff.1 (c.peek?_eq_head?.symm.trans h)
  rw [position_advance (by rw [hs]; exact List.cons_ne_nil t us)]
  exact Nat.lt_succ_self c.position

theorem unread_advance {c : Cursor} {t : Token} (h : c.peek? = some t) : c.advance.unread = c := by
  have hlt : c.position < c.tokens.size := (Array.getElem?_eq_some_iff.1 h).1
  rw [advance, dif_pos hlt, unread]
  rfl

theorem moveTo_position {c d : Cursor} (h : d.tokens = c.tokens) : d.moveTo c.position = c := by
  obtain ⟨tokens, position, hle⟩ := c
  obtain ⟨tokens', position', hle'⟩ := d
  obtain rfl : tokens' = tokens := h
  exact dif_pos hle

theorem skip_moveTo (c : Cursor) (n : Nat) : (c.skip n).moveTo c.position = c := moveTo_position (tokens_skip c n)

variable {c : Cursor} {ts us : List Token}

theorem rest_skip_append (h : c.rest = ts ++ us) : (c.skip ts.length).rest = us := by
  rw [rest_skip, h, List.drop_left]

theorem position_skip_append (h : c.rest = ts ++ us) :
    (c.skip ts.length).position = c.position + ts.length :=
  position_skip (by simp [h])

end IntScript.Cursor
