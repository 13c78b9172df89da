import IntScript.Number.Range

namespace IntScript.Number

/-- Reads decimal digits from the left. There is no answer once the number passes the limit. -/
def digitsFrom? (limit : Nat) : Nat → List Char → Option Nat
  | n, [] => some n
  | n, c :: cs =>
      if c.isDigit then
        let next := 10 * n + (c.toNat - '0'.toNat)
        if next ≤ limit then digitsFrom? limit next cs else none
      else none

def digits? (limit : Nat) (cs : List Char) : Option Nat :=
  if cs.isEmpty then none else digitsFrom? limit 0 cs

def literal? (text : String) : Option Int64 :=
  match text.toList with
  | '-' :: cs => (digits? minValue.natAbs cs).map fun n => Int64.ofInt (-n)
  | '+' :: cs => (digits? maxValue.natAbs cs).map fun n => Int64.ofInt n
  | cs => (digits? maxValue.natAbs cs).map fun n => Int64.ofInt n

end IntScript.Number
