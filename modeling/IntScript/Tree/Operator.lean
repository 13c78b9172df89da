import IntScript.Token.Basic

namespace IntScript

inductive Operator where
  | add | sub | mul | div
  deriving DecidableEq, Repr

namespace Operator

def symbol : Operator → String
  | add => "+"
  | sub => "-"
  | mul => "*"
  | div => "/"

def additive? : Token.Kind → Option Operator
  | .plus => some add
  | .minus => some sub
  | _ => none

def multiplicative? : Token.Kind → Option Operator
  | .star => some mul
  | .slash => some div
  | _ => none

end Operator

end IntScript
