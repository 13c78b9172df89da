import IntScript.Proofs.Number.Decimal
import IntScript.Proofs.Token.Lexical
import IntScript.Proofs.Tree.Expression

namespace IntScript

def IsName (text : String) : Prop := Token.IsWord text ∧ text ≠ "int" ∧ text ≠ "if" ∧ text ≠ "else"

def Operator.rank : Operator → Nat
  | add | sub => 0
  | mul | div => 1

def parenthesize (needed : Bool) (text : String) : String := if needed then "(" ++ text ++ ")" else text

namespace Expr

def rank : Expr → Nat
  | .binary op _ _ => op.rank
  | _ => 2

def write : Expr → String
  | .literal text => text
  | .identifier name => name
  | .binary op left right =>
      parenthesize (left.rank < op.rank) left.write ++ op.symbol ++
        parenthesize (right.rank ≤ op.rank) right.write

def WellNamed : Expr → Prop
  | .literal text => Number.IsDecimal text
  | .identifier name => IsName name
  | .binary _ left right => left.WellNamed ∧ right.WellNamed

def writeAt (k : Nat) (e : Expr) : String := parenthesize (e.rank < k) e.write

theorem write_binary (op : Operator) (left right : Expr) :
    (binary op left right).write = left.writeAt op.rank ++ op.symbol ++ right.writeAt (op.rank + 1) := by
  simp only [write, writeAt, Nat.lt_succ_iff]

/-- How many parentheses of the text are open at some point, at most. -/
def depth : Expr → Nat
  | .binary op left right =>
      max (if left.rank < op.rank then left.depth + 1 else left.depth)
        (if right.rank < op.rank + 1 then right.depth + 1 else right.depth)
  | _ => 0

def depthAt (k : Nat) (e : Expr) : Nat := if e.rank < k then e.depth + 1 else e.depth

theorem depth_binary (op : Operator) (left right : Expr) :
    (binary op left right).depth = max (left.depthAt op.rank) (right.depthAt (op.rank + 1)) := rfl

end Expr

namespace Stmt

def write : Stmt → String
  | .declaration name none => "int " ++ name ++ ";"
  | .declaration name (some init) => "int " ++ name ++ "=" ++ init.write ++ ";"
  | .assignment name value => name ++ "=" ++ value.write ++ ";"
  | .expression value => value.write ++ ";"

def WellNamed : Stmt → Prop
  | .declaration name init? => IsName name ∧ ∀ e ∈ init?, e.WellNamed
  | .assignment name value => IsName name ∧ value.WellNamed
  | .expression value => value.WellNamed

def depth (x : Stmt) : Nat := x.expr?.elim 0 Expr.depth

end Stmt

def writeProgram (xs : List Stmt) : String := String.join (xs.map Stmt.write)

end IntScript
