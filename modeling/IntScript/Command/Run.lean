import IntScript.Command.Line
import IntScript.Session.Output

namespace IntScript

structure Command.Effect where
  session : Session
  events : Array Event
  output : Output

namespace Command

def tokenLine (t : Token) : String := t.text ++ "\t\t" ++ t.kind.name ++ "\n"

def listTokens (s : Session) (text : String) : Effect :=
  let tokens := tokenize text
  ⟨s, tokens.map .token,
    .print (tokens.foldl (fun lines t => lines ++ tokenLine t) "text\t\ttype\n")⟩

def toggleVerbose (s : Session) (fixedFilter : Bool) : Effect :=
  if fixedFilter then
    ⟨s, #[], .print
      ("verbose mode unchanged: the log filter is set by " ++ Log.variableName ++ "\n")⟩
  else
    let verbose := !s.verbose
    ⟨{ s with verbose }, #[], .print ("verbose mode " ++ (if verbose then "on" else "off") ++ "\n")⟩

def listVariables (s : Session) : Effect :=
  let outcomes := s.env.bindings.map fun (name, value?) => Outcome.binding name value?
  ⟨s, #[], .print (renderOutcomes outcomes.toArray)⟩

def runCalculation (s : Session) (source : String) : Effect :=
  let r := s.runExpression source
  match r.result with
  | .ok v => ⟨r.session, r.events, .print (Number.render v ++ "\n")⟩
  | .error e => ⟨r.session, r.events, .tell e.line⟩

def loadFile (s : Session) (files : Files) (name : String) : Effect :=
  let r := s.runFile files name
  ⟨r.session, r.events, ⟨renderOutcomes r.outcomes, r.error?.elim "" ScriptError.line⟩⟩

def run (command : Command) (argument? : Option String) (files : Files) (fixedFilter : Bool)
    (s : Session) : Effect :=
  match command, argument? with
  | help, _ => ⟨s, #[], .print usage⟩
  | load, none => ⟨s, #[], .tell "usage: :load FILE\n"⟩
  | load, some name => loadFile s files name
  | verbose, _ => toggleVerbose s fixedFilter
  | tokens, text? => listTokens s (text?.getD "")
  | calculate, none => ⟨s, #[], .tell "usage: :calc EXPRESSION\n"⟩
  | calculate, some source => runCalculation s source
  | env, _ => listVariables s

end Command

end IntScript
