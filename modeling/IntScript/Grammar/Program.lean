import IntScript.Grammar.Statement

namespace IntScript

structure Parsed where
  result : Except ParseError Arena
  backtracks : Array Grammar.Backtrack

namespace Grammar

def State.succeed (s : State) (statements : List Nat) : Parsed :=
  ⟨.ok (s.arena.push (.program statements)), s.backtracks⟩

def State.stop (s : State) (e : ParseError) : Parsed := ⟨.error e, s.backtracks⟩

/-- Reads statements up to the end. The fuel is the number of tokens that remain. -/
def statementsFrom (rule : Rule) : Nat → List Nat → State → Option Parsed
  | 0, statements, s => some (s.succeed statements.reverse)
  | fuel + 1, statements, s =>
      match s.cursor.peek? with
      | none => some (s.succeed statements.reverse)
      | some _ =>
          match rule s with
          | some (.node id s) => statementsFrom rule fuel (id :: statements) s
          | some (.absent s) => some (s.stop (s.cursor.fault .unknownStatement))
          | some (.error e s) => some (s.stop e)
          | none => none

def programWithin (depth : Nat) (c : Cursor) : Option Parsed :=
  statementsFrom (statement (additive depth)) c.remaining [] (.start c)

def calculationWithin (depth : Nat) (c : Cursor) : Option Parsed :=
  match additive depth (.start c) with
  | some (.node id s) =>
      if s.cursor.peek?.isNone then some (s.succeed [id])
      else some (s.stop (s.cursor.fault .trailingTokens))
  | some (.absent s) => some (s.stop (s.cursor.fault .missingExpression))
  | some (.error e s) => some (s.stop e)
  | none => none

end Grammar

end IntScript
