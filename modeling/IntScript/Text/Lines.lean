namespace IntScript.Text

def rawLinesFrom (bytes : ByteArray) : Nat → Nat → Nat → List ByteArray → List ByteArray
  | 0, start, here, lines =>
      (if start < here then bytes.extract start here :: lines else lines).reverse
  | fuel + 1, start, here, lines =>
      if bytes[here]? = some 10 then
        rawLinesFrom bytes fuel (here + 1) (here + 1) (bytes.extract start (here + 1) :: lines)
      else rawLinesFrom bytes fuel start (here + 1) lines

/-- The lines with their endings. The last one may have none. -/
def rawLines (bytes : ByteArray) : List ByteArray := rawLinesFrom bytes bytes.size 0 0 []

def dropEnding (line : String) : String :=
  match line.toList.reverse with
  | '\n' :: '\r' :: cs => String.ofList cs.reverse
  | '\n' :: cs => String.ofList cs.reverse
  | _ => line

end IntScript.Text
