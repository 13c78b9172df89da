import IntScript.Grammar.Expression

namespace IntScript.Grammar

def finish (s : State) (node : Node) : Reply :=
  if s.peekKind? = some .semicolon then s.advance.build node else s.fail .missingSemicolon

def finishWith (expression : Rule) (missing : ParseError.Reason) (node : Nat → Node) : Rule :=
  fun s =>
    match expression s with
    | some (.node id s) => some (finish s (node id))
    | some (.absent s) => some (s.fail missing)
    | reply => reply

def declaration (expression : Rule) : Rule := fun s =>
  if s.peekKind? = some .keywordInt then
    let s := s.advance
    match s.cursor.peek? with
    | some ⟨.identifier, name⟩ =>
        let s := s.advance
        if s.peekKind? = some .assign then
          finishWith expression (.missingInitializer name) (.declaration name ∘ some) s.advance
        else some (finish s (.declaration name none))
    | _ => some (s.fail .missingVariableName)
  else some (.absent s)

/-- A name, an equals sign and a value. A name without the sign is given back, as it may begin an expression. -/
def assignment (expression : Rule) : Rule := fun s =>
  match s.cursor.peek? with
  | some ⟨.identifier, name⟩ =>
      if s.advance.peekKind? = some .assign then
        finishWith expression (.missingAssignedValue name) (.assignment name) s.advance.advance
      else
        some (.absent (s.advance.unread.note (.notAssignment s.advance.unread.cursor.position)))
  | _ => some (.absent s)

/-- Ends an expression statement with a semicolon. Without one nothing is kept of what was read
since the checkpoint, when the arena had the given size. -/
@[noinline] def settle (checkpoint size : Nat) : Option Reply → Option Reply
  | some (.node id s) =>
      if s.peekKind? = some .semicolon then some (.node id s.advance)
      else
        let s := s.note (.noSemicolon checkpoint)
        some (.absent { s with
          cursor := s.cursor.moveTo checkpoint, arena := s.arena.truncate size })
  | reply => reply

def expressionStatement (expression : Rule) : Rule := fun s =>
  settle s.cursor.position s.arena.size (expression s)

def orElse (first second : Rule) : Rule := fun s =>
  match first s with
  | some (.absent s) => second s
  | reply => reply

def statement (expression : Rule) : Rule :=
  orElse (declaration expression)
    (orElse (assignment expression) (expressionStatement expression))

end IntScript.Grammar
