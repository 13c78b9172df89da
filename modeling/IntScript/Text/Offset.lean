namespace IntScript.Text

def cutFrom? (before : List Char) : List Char → Nat → Option (List Char × List Char)
  | cs, 0 => some (before, cs)
  | [], _ + 1 => none
  | c :: cs, n + 1 =>
      if c.utf8Size ≤ n + 1 then cutFrom? (c :: before) cs (n + 1 - c.utf8Size) else none

/-- Cuts a text at an offset counted in bytes of its UTF-8 form. The first part comes reversed, so
that it can be searched back from the cut. There is no answer when the offset lies inside a
character or beyond the end. -/
def cut? (cs : List Char) (offset : Nat) : Option (List Char × List Char) := cutFrom? [] cs offset

/-- The bytes that a text takes in UTF-8. -/
def width (cs : List Char) : Nat := cs.foldl (fun n c => n + c.utf8Size) 0

end IntScript.Text
