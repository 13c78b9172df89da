namespace IntScript

inductive Token.Kind where
  | plus | minus | star | slash
  | ge | gt | eq | le | lt
  | semicolon | leftParen | rightParen | assign
  | keywordInt | keywordIf | keywordElse
  | identifier | intLiteral | stringLiteral
  deriving DecidableEq, Repr

structure Token where
  kind : Token.Kind
  text : String
  deriving DecidableEq, Repr

namespace Token

def Kind.name : Kind → String
  | plus => "Plus"
  | minus => "Minus"
  | star => "Star"
  | slash => "Slash"
  | ge => "GE"
  | gt => "GT"
  | eq => "EQ"
  | le => "LE"
  | lt => "LT"
  | semicolon => "SemiColon"
  | leftParen => "LeftParen"
  | rightParen => "RightParen"
  | assign => "Assignment"
  | keywordInt => "KeywordInt"
  | keywordIf => "KeywordIf"
  | keywordElse => "KeywordElse"
  | identifier => "Identifier"
  | intLiteral => "IntLiteral"
  | stringLiteral => "StringLiteral"

end Token

end IntScript
