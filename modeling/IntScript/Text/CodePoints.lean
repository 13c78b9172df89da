namespace IntScript.Text

/-- The ranges are ascending, and none touches the next. -/
def apart : List (Nat × Nat) → Bool
  | [] => true
  | [r] => r.1 ≤ r.2
  | r :: s :: rs => r.1 ≤ r.2 && r.2 + 1 < s.1 && apart (s :: rs)

/-- Code points, as ranges with their first and their last one. The properties are those of
Unicode 17. -/
structure CodePoints where
  ranges : List (Nat × Nat)
  apart_ranges : apart ranges = true

namespace CodePoints

def contains (s : CodePoints) (c : Char) : Bool :=
  s.ranges.any fun r => r.1 ≤ c.toNat && c.toNat ≤ r.2

def count (s : CodePoints) : Nat := s.ranges.foldl (fun n r => n + (r.2 + 1 - r.1)) 0

end CodePoints

end IntScript.Text
