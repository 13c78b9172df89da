import IntScript.Number.Range
import IntScript.Tree.Operator

namespace IntScript

inductive EvalError where
  | undefinedVariable (name : String)
  | uninitializedVariable (name : String)
  | unknownVariable (name : String)
  | divisionByZero
  | overflow (left : Int64) (op : Operator) (right : Int64)
  | invalidLiteral (text : String)
  deriving DecidableEq, Repr

def EvalError.message : EvalError → String
  | undefinedVariable name => "undefined variable: " ++ name
  | uninitializedVariable name => "variable " ++ name ++ " has not been set any value"
  | unknownVariable name => "unknown variable: " ++ name
  | divisionByZero => "division by zero"
  | overflow left op right =>
      "integer overflow in " ++ Number.render left ++ " " ++ op.symbol ++ " " ++
        Number.render right
  | invalidLiteral text => "integer literal out of range: " ++ text

namespace Operator

/-- The result over the unbounded integers. A quotient is rounded toward zero. -/
def exact : Operator → Int → Int → Int
  | add, m, n => m + n
  | sub, m, n => m - n
  | mul, m, n => m * n
  | div, m, n => m.tdiv n

def apply (op : Operator) (left right : Int64) : Except EvalError Int64 :=
  if op = .div ∧ right = 0 then .error .divisionByZero
  else
    match Number.ofInt? (op.exact left.toInt right.toInt) with
    | some v => .ok v
    | none => .error (.overflow left op right)

end Operator

end IntScript
