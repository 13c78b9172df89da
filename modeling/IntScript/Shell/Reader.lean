import IntScript.Command.Line

namespace IntScript

inductive Interruption where
  | ended
  | unreadable
  deriving DecidableEq, Repr

inductive Input where
  | line (text : String)
  | interrupted (reason : Interruption)
  deriving DecidableEq, Repr

def Input.ofLine (bytes : ByteArray) : Input :=
  (String.fromUTF8? bytes).elim (.interrupted .unreadable) .line

inductive Action where
  | wait
  | skip
  | command (text : String) (line : CommandLine)
  | script (text : String)
  | drop (reason : Interruption)
  | stop (reason : Interruption)
  | exit
  deriving DecidableEq, Repr

/-- A script is complete once it ends with a semicolon. Blanks alone are complete. -/
def needsMore (text : String) : Bool := (Text.lastVisible? text).any (· != ';')

namespace Reader

def exitStatement : String := "exit();"

def begin (text : String) : Action × Option String :=
  if needsMore text then (.wait, some text)
  else if (Text.lastVisible? text).isNone then (.skip, none)
  else (.script text, none)

def first (text : String) : Action × Option String :=
  match CommandLine.parse? text with
  | some line => (.command text line, none)
  | none =>
      if Text.trim text.toList = exitStatement.toList then (.exit, none) else begin text

/-- A line that is added to a pending script. As this one still needs more, the last line alone
tells whether all of it does. -/
def extend (text more : String) : Action × Option String :=
  let text := text ++ "\n" ++ more
  if Text.lastVisible? more = some ';' then (.script text, none) else (.wait, some text)

theorem extend_eq_begin {text : String} (h : needsMore text = true) (more : String) :
    extend text more = begin (text ++ "\n" ++ more) := by
  have hn : Text.lastVisible? "\n" = none := by decide
  cases ht : Text.lastVisible? text with
  | none => simp [needsMore, ht] at h
  | some c =>
      have hc : c ≠ ';' := by simpa [needsMore, ht] using h
      cases hm : Text.lastVisible? more with
      | none => simp [extend, begin, needsMore, Text.lastVisible?_append, hn, ht, hm, hc]
      | some d =>
          by_cases hd : d = ';' <;>
            simp [extend, begin, needsMore, Text.lastVisible?_append, hm, hd]

def next (pending? : Option String) (input : Input) : Action × Option String :=
  match pending?, input with
  | none, .line text => first text
  | some text, .line more => extend text more
  | none, .interrupted reason => (.stop reason, none)
  | some _, .interrupted reason => (.drop reason, none)

end Reader

end IntScript
