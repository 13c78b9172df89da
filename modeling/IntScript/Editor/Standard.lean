import IntScript.Editor.FileName
import IntScript.Text.Lines

namespace IntScript

namespace History

def capacity : Nat := 100

/-- Adds a line that is neither empty nor the same as the one before. The oldest lines go. -/
def add (h : History) (line : String) : History :=
  if line.isEmpty || h.entries.getLast? == some line then h
  else ⟨(h.entries ++ [line]).drop (h.entries.length + 1 - capacity)⟩

/-- The lines of a file. Without one there are none, and a line that is not text ends the list. -/
def load (content? : Option ByteArray) : History :=
  let lines := (Text.rawLines (content?.getD .empty)).map fun line => (String.fromUTF8? line).map Text.dropEnding
  (lines.takeWhile (·.isSome)).foldl (fun h line => line.elim h h.add) empty

def content? (h : History) : Option String :=
  if h.entries.isEmpty then none else some (String.join (h.entries.map (· ++ "\n")))

end History

def plainTerminals : List String := ["dumb", "cons25", "emacs"]

/-- The editor that the program comes with. It shows prompts on terminals, and where the terminal is said to be a plain
one. -/
instance : LineEditor where
  fileNames := FileName.complete
  remember := History.add
  restore := History.load
  content? := History.content?
  showsPrompts isTerminal terminal? := isTerminal || terminal?.any (plainTerminals.contains ·.toLower)

end IntScript
