import IntScript.Evaluation.Error
import IntScript.Grammar.Error
import IntScript.Session.Files

namespace IntScript

inductive ScriptError where
  | parse (e : ParseError)
  | eval (e : EvalError)
  | file (name : String) (e : ReadError)
  deriving DecidableEq, Repr

def ScriptError.message : ScriptError → String
  | parse e => "syntax error: " ++ e.message
  | eval e => "error: " ++ e.message
  | file name e => "failed to read '" ++ name ++ "': " ++ e.reason

end IntScript
