import IntScript.Command.Basic
import IntScript.Text.Blank

namespace IntScript

inductive CommandLine where
  | known (command : Command) (argument? : Option String)
  | unknown (name : String)
  deriving DecidableEq, Repr

namespace CommandLine

/-- The argument of a command that takes one. Blanks alone are no argument. -/
def argument? (command : Command) (cs : List Char) : Option String :=
  let text := Text.trim cs
  if command.takesArgument && !text.isEmpty then some (String.ofList text) else none

def parse? (line : String) : Option CommandLine :=
  match Text.trim line.toList with
  | ':' :: cs =>
      let name := String.ofList (cs.takeWhile (!Text.isBlank ·))
      match Command.ofName? name with
      | some command => some (known command (argument? command (cs.dropWhile (!Text.isBlank ·))))
      | none => some (unknown name)
  | _ => none

end CommandLine

end IntScript
