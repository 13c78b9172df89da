import IntScript.Evaluation.Step
import IntScript.Grammar.State
import IntScript.Tree.Listing

namespace IntScript

inductive Level where
  | error | warn | info | debug | trace
  deriving DecidableEq, Repr

def Level.name : Level → String
  | error => "ERROR"
  | warn => "WARN"
  | info => "INFO"
  | debug => "DEBUG"
  | trace => "TRACE"

def Level.rank : Level → Nat
  | error => 0
  | warn => 1
  | info => 2
  | debug => 3
  | trace => 4

inductive Event where
  | token (token : Token)
  | backtrack (b : Grammar.Backtrack)
  | parsed (tree : Arena)
  | step (step : Step)
  | loading (file : String) (bytes : Nat)

structure Event.Field where
  name : String
  text : String
  quoted : Bool
  deriving DecidableEq, Repr

namespace Event

def plain (name text : String) : Field := ⟨name, text, false⟩

def quoted (name text : String) : Field := ⟨name, text, true⟩

def level : Event → Level
  | token _ => .trace
  | backtrack _ | parsed _ | step _ => .debug
  | loading _ _ => .info

def message : Event → String
  | token _ => "token"
  | backtrack (.notAssignment _) => "not an assignment, backtracking"
  | backtrack (.noSemicolon _) => "expression without semicolon, backtracking"
  | parsed tree => "parsed program:\n" ++ tree.render
  | step (.calculating _ _ _) => "calculating"
  | step (.result _ _) => "result"
  | loading _ _ => "loading script"

def resultText : Option Int64 → String
  | some v => "Some(" ++ Number.render v ++ ")"
  | none => "None"

def fields : Event → List Field
  | token t => [plain "kind" t.kind.name, plain "text" t.text]
  | backtrack (.notAssignment position) => [plain "position" (toString position)]
  | backtrack (.noSemicolon checkpoint) => [plain "checkpoint" (toString checkpoint)]
  | parsed _ => []
  | step (.calculating depth type text) =>
      [plain "depth" (toString depth), plain "node" type.name, quoted "text" text]
  | step (.result depth value?) =>
      [plain "depth" (toString depth), plain "result" (resultText value?)]
  | loading file bytes => [quoted "file" file, plain "bytes" (toString bytes)]

end Event

end IntScript
