import IntScript.Shell.Basic
import IntScript.Shell.Options
import IntScript.Text.Lines

namespace IntScript

inductive Cache where
  | missing
  | empty
  | file (content : ByteArray)

def Cache.content? : Cache → Option ByteArray
  | missing | empty => none
  | file content => some content

structure Setting where
  arguments : List String
  input : ByteArray
  files : Files
  cache : Cache
  prompts : Bool
  filter? : Option String

structure Ending where
  output : Output
  history? : Option ByteArray

def Options.readsInput (o : Options) : Bool := !o.help && o.nonInteractive && o.files.isEmpty

namespace Setting

/-- The input line by line. After the last line it stays at its end, which closes a pending script
first and then the prompt. -/
def inputs (bytes : ByteArray) : List Input :=
  (Text.rawLines bytes).map .ofLine ++ [.interrupted .ended, .interrupted .ended]

def saveError : String := "failed to save history file\n"

def keep [LineEditor] (s : Setting) (h : History) : Ending :=
  match LineEditor.content? h, s.cache with
  | none, cache => ⟨.empty, cache.content?⟩
  | some _, .missing => ⟨.tell saveError, none⟩
  | some text, _ => ⟨.empty, some text.toUTF8⟩

end Setting

end IntScript
