import IntScript.Session.Files

namespace IntScript

structure Directory where
  path : String
  files : Files

structure Candidate where
  shown : String
  written : String
  deriving DecidableEq, Repr

def Candidate.word (text : String) : Candidate := ⟨text, text⟩

structure Completion where
  start : Nat
  candidates : List Candidate
  deriving DecidableEq, Repr

structure History where
  entries : List String
  deriving DecidableEq, Repr

def History.empty : History := ⟨[]⟩

/-- What is left to the editor of the lines: the files that may be named at the cursor of a line, the lines that it
remembers, how these are restored and kept, and whether it shows a prompt on a terminal or elsewhere. -/
class LineEditor where
  fileNames (d : Directory) (line : String) (cursor : Nat) : Completion
  remember (h : History) (text : String) : History
  restore (content? : Option ByteArray) : History
  content? (h : History) : Option String
  showsPrompts (isTerminal : Bool) (terminal? : Option String) : Bool

end IntScript
