import IntScript.Command.Run
import IntScript.Shell.History
import IntScript.Shell.Reader

namespace IntScript

structure Shell where
  session : Session
  history : History
  fixed? : Option Threshold
  pending? : Option String
  running : Bool

/-- An unreadable line is told about. The end of the input is not. -/
def Interruption.output : Interruption → Output
  | ended => .empty
  | unreadable => .tell
      "error: Io(Error \x7b kind: InvalidData, message: \"stream did not contain valid UTF-8\" \x7d)\n"

namespace Shell

def welcome : String :=
  "Simple script language! Type :help for help, " ++ Reader.exitStatement ++ " to quit.\n"

def start (session : Session) (history : History) (fixed? : Option Threshold) : Shell :=
  ⟨session, history, fixed?, none, true⟩

def threshold (sh : Shell) : Threshold := Log.threshold sh.fixed? sh.session.verbose

variable [LineEditor] [Subscriber]

def remember (sh : Shell) (text : String) : Shell := { sh with history := LineEditor.remember sh.history text }

/-- Runs a command. What it logs is told before its messages. -/
def command (files : Files) (sh : Shell) (line : CommandLine) : Shell × Output :=
  match line with
  | .unknown name => (sh, .tell ("unknown command ':" ++ name ++ "', see :help\n"))
  | .known c argument? =>
      let e := c.run argument? files sh.fixed?.isSome sh.session
      ({ sh with session := e.session }, .tell (Subscriber.render sh.threshold e.events) ++ e.output)

def script (sh : Shell) (text : String) : Shell × Output :=
  let r := sh.session.run text
  ({ sh with session := r.session }, r.output sh.threshold ScriptError.line)

/-- Commands and scripts are remembered before they are run. -/
def perform (files : Files) (sh : Shell) (action : Action) : Shell × Output :=
  match action with
  | .wait | .skip => (sh, .empty)
  | .command text line => command files (sh.remember text) line
  | .script text => script (sh.remember text) text
  | .drop reason => (sh, reason.output)
  | .stop reason => ({ sh with running := false }, reason.output)
  | .exit => ({ sh with running := false }, .print "good bye!\n")

def step (files : Files) (sh : Shell) (input : Input) : Shell × Output :=
  if sh.running then
    let (action, pending?) := Reader.next sh.pending? input
    perform files { sh with pending? } action
  else (sh, .empty)

def prompt (sh : Shell) : String :=
  if sh.running then if sh.pending?.isSome then "& " else "> " else ""

def run (files : Files) (prompts : Bool) (sh : Shell) (inputs : List Input) : Shell × Output :=
  inputs.foldl (fun (sh, output) input =>
    let shown := if prompts then .print sh.prompt else .empty
    let (next, more) := step files sh input
    (next, output ++ shown ++ more)) (sh, .empty)

end Shell

end IntScript
