import IntScript.Number.Range
import IntScript.Tree.Node

namespace IntScript

inductive Outcome where
  | binding (name : String) (value? : Option Int64)
  | value (v : Int64)
  deriving DecidableEq, Repr

namespace Outcome

def render : Outcome → String
  | binding name (some v) => name ++ ": " ++ Number.render v
  | binding name none => name ++ ": uninitialized"
  | value v => Number.render v

def ofStatement (node : Node) (value? : Option Int64) : Outcome :=
  match node.statementType, value? with
  | .expressionStatement, some v | .program, some v => value v
  | _, _ => binding node.text value?

end Outcome

end IntScript
