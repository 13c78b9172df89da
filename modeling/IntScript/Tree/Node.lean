import IntScript.Tree.Operator

namespace IntScript

/-- A node names its children by their places in the arena that holds it. -/
inductive Node where
  | program (statements : List Nat)
  | declaration (name : String) (init? : Option Nat)
  | assignment (name : String) (value : Nat)
  | binary (op : Operator) (left right : Nat)
  | identifier (name : String)
  | literal (text : String)
  deriving DecidableEq, Repr

inductive NodeType where
  | program | declaration | expressionStatement | assignment
  | additive | multiplicative | identifier | literal
  deriving DecidableEq, Repr

def NodeType.name : NodeType → String
  | program => "Program"
  | declaration => "IntDeclaration"
  | expressionStatement => "ExpressionStmt"
  | assignment => "AssignmentStmt"
  | additive => "Additive"
  | multiplicative => "Multiplicative"
  | identifier => "Identifier"
  | literal => "IntLiteral"

namespace Node

def type : Node → NodeType
  | program _ => .program
  | declaration _ _ => .declaration
  | assignment _ _ => .assignment
  | binary .add _ _ | binary .sub _ _ => .additive
  | binary .mul _ _ | binary .div _ _ => .multiplicative
  | identifier _ => .identifier
  | literal _ => .literal

/-- The same, but an expression counts as the statement that it may be. -/
def statementType (n : Node) : NodeType :=
  match n.type with
  | .additive | .multiplicative | .identifier | .literal => .expressionStatement
  | type => type

def text : Node → String
  | program _ => "program"
  | declaration name _ | assignment name _ | identifier name => name
  | binary op _ _ => op.symbol
  | literal text => text

/-- The children, in the order in which they are evaluated. -/
def children : Node → List Nat
  | program statements => statements
  | declaration _ init? => init?.toList
  | assignment _ value => [value]
  | binary _ left right => [left, right]
  | identifier _ | literal _ => []

end Node

end IntScript
