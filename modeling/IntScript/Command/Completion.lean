import IntScript.Command.Basic
import IntScript.Editor.Basic
import IntScript.Evaluation.Environment
import IntScript.Text.Offset

namespace IntScript

namespace Completion

def nothing : Completion := ⟨0, []⟩

def wordBefore (before : List Char) (offset : Nat) : Nat × String :=
  let word := before.takeWhile Char.isAlphanum
  (offset - Text.width word, String.ofList word.reverse)

def wordStart? (line : String) (cursor : Nat) : Option Nat :=
  (Text.cut? line.toList cursor).map fun (before, _) => (wordBefore before cursor).1

def variableNames (env : Environment) (before : List Char) (cursor : Nat) : Completion :=
  let (start, word) := wordBefore before cursor
  ⟨start, (env.namesFrom word).map .word⟩

variable [LineEditor]

/-- Completes a command from what follows the colon up to the cursor. The name ends at the first
space, whose place is counted in characters and taken as an offset. -/
def command? (env : Environment) (d : Directory) (line : String) (before after : List Char) (cursor : Nat) :
    Option Completion :=
  if after.contains ' ' then
    (Text.cut? after (after.idxOf ' ')).map fun (name, _) =>
      match Command.ofName? (String.ofList name.reverse) with
      | some .load => LineEditor.fileNames d line cursor
      | some c => if c.takesArgument then variableNames env before cursor else nothing
      | none => nothing
  else
    some <|
      match Command.ofStem? (String.ofList after) with
      | some c => ⟨1, [.word c.longName]⟩
      | none => nothing

/-- What may stand at the cursor of a line. There is no answer when a cut falls inside a
character or beyond the end. -/
def complete? (env : Environment) (d : Directory) (line : String) (cursor : Nat) :
    Option Completion :=
  if cursor = 0 then some nothing
  else
    match line.toList with
    | [] => some nothing
    | ':' :: cs => do
        let (after, _) ← Text.cut? cs (cursor - 1)
        command? env d line (after ++ [':']) after.reverse cursor
    | cs => do
        let (before, _) ← Text.cut? cs cursor
        some (variableNames env before cursor)

end Completion

end IntScript
