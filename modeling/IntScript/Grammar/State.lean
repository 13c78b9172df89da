import IntScript.Grammar.Error
import IntScript.Tree.Arena

namespace IntScript.Grammar

inductive Backtrack where
  | notAssignment (position : Nat)
  | noSemicolon (checkpoint : Nat)
  deriving DecidableEq, Repr

structure State where
  cursor : Cursor
  arena : Arena
  nesting : Nat
  backtracks : Array Backtrack

/-- A rule builds a node, finds that the tokens do not begin with what it reads, or fails. -/
inductive Reply where
  | node (id : Nat) (s : State)
  | absent (s : State)
  | error (e : ParseError) (s : State)

namespace State

def start (c : Cursor) : State := ⟨c, .empty, 0, #[]⟩

def advance (s : State) : State := { s with cursor := s.cursor.read.2 }

def unread (s : State) : State := { s with cursor := s.cursor.unread }

def peekKind? (s : State) : Option Token.Kind := s.cursor.peekKind?

def fail (s : State) (reason : ParseError.Reason) : Reply := .error (s.cursor.fault reason) s

/-- Adds a node whose children are in the arena. -/
def build (s : State) (node : Node) : Reply :=
  .node s.arena.size { s with arena := s.arena.push node }

def note (s : State) (b : Backtrack) : State := { s with backtracks := s.backtracks.push b }

end State

end IntScript.Grammar
