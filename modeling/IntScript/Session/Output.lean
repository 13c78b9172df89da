import IntScript.Log.Filter
import IntScript.Session.Basic

namespace IntScript

structure Output where
  results : String
  messages : String
  deriving DecidableEq, Repr

namespace Output

def empty : Output := ⟨"", ""⟩

def append (o p : Output) : Output := ⟨o.results ++ p.results, o.messages ++ p.messages⟩

instance : Append Output := ⟨append⟩

def print (text : String) : Output := ⟨text, ""⟩

def tell (text : String) : Output := ⟨"", text⟩

end Output

def renderOutcomes (outcomes : Array Outcome) : String :=
  outcomes.foldl (fun text o => text ++ o.render ++ "\n") ""

def Report.output [Subscriber] (r : Report) (t : Threshold) (tell : ScriptError → String) : Output :=
  ⟨renderOutcomes r.outcomes, Subscriber.render t r.events ++ r.error?.elim "" tell⟩

def ScriptError.line (e : ScriptError) : String := e.message ++ "\n"

end IntScript
