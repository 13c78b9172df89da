import IntScript.Grammar.State

namespace IntScript.Grammar

/-- A rule with a bound on the depth of its recursion. It has no reply when the bound is passed. -/
abbrev Rule := State → Option Reply

/-- Reads operators and operands from the left. Each operator takes all that stands before it as
its left child. The fuel is the number of tokens that remain. -/
def chainFrom (operator? : Token.Kind → Option Operator) (operand : Rule) :
    Nat → Nat → State → Option Reply
  | 0, left, s => some (.node left s)
  | fuel + 1, left, s =>
      match s.peekKind?.bind operator? with
      | none => some (.node left s)
      | some op =>
          match operand s.advance with
          | some (.node right s) =>
              chainFrom operator? operand fuel s.arena.size
                { s with arena := s.arena.push (.binary op left right) }
          | some (.absent s) => some (s.fail (.missingRightOperand op))
          | reply => reply

def chain (operator? : Token.Kind → Option Operator) (operand : Rule) : Rule := fun s =>
  match operand s with
  | some (.node left s) => chainFrom operator? operand s.cursor.remaining left s
  | reply => reply

def group (inner : Rule) : Rule := fun s =>
  match inner { s with nesting := s.nesting + 1 } with
  | some (.node id s) =>
      let s := { s with nesting := s.nesting - 1 }
      if s.peekKind? = some .rightParen then some (.node id s.advance)
      else some (s.fail .missingClosingParen)
  | some (.absent s) =>
      let s := { s with nesting := s.nesting - 1 }
      some (s.fail .emptyParens)
  | some (.error e s) => some (.error e { s with nesting := s.nesting - 1 })
  | none => none

def primary (inner : Rule) : Rule := fun s =>
  match s.cursor.peek? with
  | some ⟨.intLiteral, text⟩ => some (s.advance.build (.literal text))
  | some ⟨.identifier, name⟩ => some (s.advance.build (.identifier name))
  | some ⟨.leftParen, _⟩ =>
      if s.nesting = maxNesting then some (s.fail .nestingTooDeep) else group inner s.advance
  | _ => some (.absent s)

def multiplicative (inner : Rule) : Rule := chain Operator.multiplicative? (primary inner)

/-- An expression, where at most the given number of expressions stand inside each other. -/
def additive : Nat → Rule
  | 0 => fun _ => none
  | depth + 1 => chain Operator.additive? (multiplicative (additive depth))

end IntScript.Grammar
