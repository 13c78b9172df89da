namespace IntScript.Text

/-- The characters with the Unicode property White_Space. -/
def isBlank (c : Char) : Bool :=
  ('\t' ≤ c && c ≤ '\r') || c == ' ' || c == '\u0085' || c == '\u00a0' || c == '\u1680' ||
    ('\u2000' ≤ c && c ≤ '\u200a') || c == '\u2028' || c == '\u2029' || c == '\u202f' ||
    c == '\u205f' || c == '\u3000'

def trimStart (cs : List Char) : List Char := cs.dropWhile isBlank

def trimEnd (cs : List Char) : List Char := (cs.reverse.dropWhile isBlank).reverse

def trim (cs : List Char) : List Char := trimEnd (trimStart cs)

def lastVisible? (text : String) : Option Char :=
  text.toList.reverse.find? (!isBlank ·)

theorem lastVisible?_append (a b : String) :
    lastVisible? (a ++ b) = (lastVisible? b).or (lastVisible? a) := by
  simp [lastVisible?, List.find?_append]

end IntScript.Text
