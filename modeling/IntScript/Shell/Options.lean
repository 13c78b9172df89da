import IntScript.Session.Output

namespace IntScript

structure Options where
  help : Bool
  verbose : Bool
  nonInteractive : Bool
  files : List String
  deriving DecidableEq, Repr

namespace Options

def empty : Options := ⟨false, false, false, []⟩

def add (o : Options) (argument : String) : Options :=
  if argument = "-h" ∨ argument = "--help" then { o with help := true }
  else if argument = "-v" ∨ argument = "--verbose" then { o with verbose := true }
  else if argument = "-n" ∨ argument = "--no-interactive" then { o with nonInteractive := true }
  else { o with files := o.files ++ [argument] }

def parse (arguments : List String) : Options := arguments.foldl add empty

def usage : String :=
  "usage: simple_script [-v] [FILE...]\n" ++
  "       simple_script [-v] -n [FILE]\n" ++
  "\n" ++
  "  -h, --help            print this message.\n" ++
  "  -v, --verbose         print the AST of each statement and trace its evaluation.\n" ++
  "  -n, --no-interactive  run FILE (or stdin) and exit.\n" ++
  "\n" ++
  "Files given without -n are run before the interactive prompt starts.\n"

structure Effect where
  session : Session
  output : Output
  promptOpen : Bool

def loadError (name : String) (e : ScriptError) : String :=
  "failed to load file '" ++ name ++ "': " ++ e.message ++ "\n"

variable [Subscriber]

def load (t : Threshold) (s : Session) (name : String) (content : Except ReadError String) :
    Effect :=
  let r := s.load name content
  ⟨r.session, r.output t (loadError name), r.error?.isNone⟩

def loadAll (t : Threshold) (files : Files) : List String → Effect → Effect
  | [], e => e
  | name :: names, e =>
      let next := load t e.session name (files.read name)
      let next := { next with output := e.output ++ next.output }
      if next.promptOpen then loadAll t files names next else next

/-- Prints the usage, runs one script, or loads files before the prompt. The input is what a
script without a file consists of. -/
def apply (o : Options) (t : Threshold) (files : Files) (input : ByteArray) (s : Session) :
    Effect :=
  if o.help then ⟨s, .print usage, false⟩
  else
    let s := { s with verbose := o.verbose }
    if o.nonInteractive then
      let e :=
        match o.files with
        | [] => load t s "stdin" (decode input)
        | name :: _ => load t s name (files.read name)
      { e with promptOpen := false }
    else loadAll t files o.files ⟨s, .empty, true⟩

end Options

end IntScript
