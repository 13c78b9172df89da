import IntScript.Log.Filter
import IntScript.Text.Quoted

namespace IntScript

def Threshold.admits (t : Threshold) (level : Level) : Bool :=
  t.any fun highest => level.rank ≤ highest.rank

def Level.ofName? : String → Option Level
  | "error" => some error
  | "warn" => some warn
  | "info" => some info
  | "debug" => some debug
  | "trace" => some trace
  | _ => none

namespace Log

def target : String := "simple_script="

/-- Reads a level, for all programs or for this one. Any other filter shows nothing. -/
def parseThreshold (text : String) : Threshold :=
  let cs := text.toList
  let own := target.toList
  let name := if own.isPrefixOf cs then cs.drop own.length else cs
  Level.ofName? (String.ofList name)

def paddedName (level : Level) : String :=
  "".pushn ' ' (5 - level.name.length) ++ level.name

def fieldText (f : Event.Field) : String :=
  " " ++ f.name ++ "=" ++ if f.quoted then Text.quote f.text else f.text

def line (e : Event) : String :=
  paddedName e.level ++ " " ++ e.message ++
    e.fields.foldl (fun text f => text ++ fieldText f) "" ++ "\n"

def render (t : Threshold) (events : Array Event) : String :=
  events.foldl (fun text e => if t.admits e.level then text ++ line e else text) ""

end Log

instance : Subscriber where
  threshold := Log.parseThreshold
  render := Log.render

end IntScript
