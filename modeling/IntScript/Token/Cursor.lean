import IntScript.Token.Basic

namespace IntScript

structure Cursor where
  tokens : Array Token
  position : Nat
  position_le : position ≤ tokens.size

namespace Cursor

def start (tokens : Array Token) : Cursor := ⟨tokens, 0, Nat.zero_le _⟩

def peek? (c : Cursor) : Option Token := c.tokens[c.position]?

def peekKind? (c : Cursor) : Option Token.Kind := c.peek?.map (·.kind)

/-- Moves past the token under the cursor. Stays at the end. -/
def advance (c : Cursor) : Cursor :=
  if h : c.position < c.tokens.size then ⟨c.tokens, c.position + 1, h⟩ else c

def read (c : Cursor) : Option Token × Cursor := (c.peek?, c.advance)

/-- Steps back one token. Stays at the start. -/
def unread (c : Cursor) : Cursor :=
  ⟨c.tokens, c.position - 1, Nat.le_trans (Nat.sub_le _ _) c.position_le⟩

/-- Moves to any position up to the end. A position beyond it is ignored. -/
def moveTo (c : Cursor) (position : Nat) : Cursor :=
  if h : position ≤ c.tokens.size then ⟨c.tokens, position, h⟩ else c

def remaining (c : Cursor) : Nat := c.tokens.size - c.position

def rest (c : Cursor) : List Token := c.tokens.toList.drop c.position

end Cursor

end IntScript
