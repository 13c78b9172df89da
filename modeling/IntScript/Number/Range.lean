namespace IntScript.Number

def minValue : Int := -9223372036854775808

def maxValue : Int := 9223372036854775807

def ofInt? (n : Int) : Option Int64 :=
  if minValue ≤ n ∧ n ≤ maxValue then some (Int64.ofInt n) else none

def render (v : Int64) : String := toString v.toInt

end IntScript.Number
