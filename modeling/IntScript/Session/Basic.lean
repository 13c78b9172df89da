import IntScript.Evaluation.Basic
import IntScript.Grammar.Parse
import IntScript.Log.Event
import IntScript.Session.Error
import IntScript.Session.Outcome

namespace IntScript

structure Session where
  env : Environment
  verbose : Bool

structure Report where
  session : Session
  outcomes : Array Outcome
  events : Array Event
  error? : Option ScriptError

/-- The events came before those of the report. -/
def Report.after (r : Report) (events : Array Event) : Report :=
  { r with events := events ++ r.events }

namespace Session

def start : Session := ⟨.empty, false⟩

def fail (s : Session) (e : ScriptError) (events : Array Event) : Report :=
  ⟨s, #[], events, some e⟩

def executeFrom (tree : Arena) : List Nat → Report → Report
  | [], r => r
  | id :: ids, ⟨s, outcomes, events, _⟩ =>
      match tree.evaluateNode id s.env with
      | (.ok value?, run) =>
          let outcome := (tree.node? id).elim (.binding "" value?) (.ofStatement · value?)
          executeFrom tree ids
            ⟨{ s with env := run.env }, outcomes.push outcome, events ++ run.steps.map .step, none⟩
      | (.error e, run) =>
          ⟨{ s with env := run.env }, outcomes, events ++ run.steps.map .step, some (.eval e)⟩

/-- Executes the statements of a program. Those before an error keep their effects. -/
def execute (s : Session) (tree : Arena) : Report :=
  executeFrom tree tree.statements ⟨s, #[], #[], none⟩

def readEvents (tokens : Array Token) (parsed : Parsed) : Array Event :=
  tokens.map .token ++ parsed.backtracks.map .backtrack

/-- Parses a script and executes it. Nothing is executed when it does not parse. -/
def run (s : Session) (source : String) : Report :=
  let tokens := tokenize source
  let parsed := parseProgram (.start tokens)
  let events := readEvents tokens parsed
  match parsed.result with
  | .ok tree => (s.execute tree).after (events.push (.parsed tree))
  | .error e => s.fail (.parse e) events

def runExpression (s : Session) (source : String) : Report :=
  let tokens := tokenize source
  let parsed := parseCalculation (.start tokens)
  let events := readEvents tokens parsed
  match parsed.result with
  | .ok tree => (s.execute tree).after events
  | .error e => s.fail (.parse e) events

def load (s : Session) (name : String) (content : Except ReadError String) : Report :=
  match content with
  | .ok source => (s.run source).after #[.loading name source.utf8ByteSize]
  | .error e => s.fail (.file name e) #[]

def runFile (s : Session) (files : Files) (name : String) : Report := s.load name (files.read name)

end Session

def Report.value (r : Report) : Int64 :=
  r.outcomes.foldl (fun last outcome =>
    match outcome with
    | .value v => v
    | .binding _ _ => last) 0

def Report.result (r : Report) : Except ScriptError Int64 :=
  match r.error? with
  | some e => .error e
  | none => .ok r.value

end IntScript
