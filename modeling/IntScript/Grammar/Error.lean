import IntScript.Token.Cursor
import IntScript.Tree.Operator

namespace IntScript

def maxNesting : Nat := 100

inductive ParseError.Reason where
  | unknownStatement
  | missingSemicolon
  | missingVariableName
  | missingInitializer (name : String)
  | missingAssignedValue (name : String)
  | missingRightOperand (op : Operator)
  | emptyParens
  | missingClosingParen
  | nestingTooDeep
  | missingExpression
  | trailingTokens
  deriving DecidableEq, Repr

structure ParseError where
  reason : ParseError.Reason
  position : Nat
  token? : Option Token
  deriving DecidableEq, Repr

namespace ParseError

def Reason.message : Reason → String
  | unknownStatement => "unknown statement"
  | missingSemicolon => "invalid statement, expecting semicolon"
  | missingVariableName => "variable name expected"
  | missingInitializer name =>
      "invalid initialization of variable '" ++ name ++ "', expecting an expression"
  | missingAssignedValue name => "invalid assignment to '" ++ name ++ "', expecting an expression"
  | missingRightOperand op =>
      "invalid expression after '" ++ op.symbol ++ "', expecting the right part"
  | emptyParens => "expecting an additive expression inside parenthesis"
  | missingClosingParen => "expecting right parenthesis"
  | nestingTooDeep => "parentheses nested deeper than " ++ toString maxNesting ++ " levels"
  | missingExpression => "expecting an expression"
  | trailingTokens => "unexpected token after expression"

def found (e : ParseError) : String :=
  match e.token? with
  | some token => "'" ++ token.text ++ "'"
  | none => "end of input"

def message (e : ParseError) : String :=
  e.reason.message ++ " at token " ++ toString e.position ++ " (" ++ e.found ++ ")"

end ParseError

def Cursor.fault (c : Cursor) (reason : ParseError.Reason) : ParseError :=
  ⟨reason, c.position, c.peek?⟩

end IntScript
