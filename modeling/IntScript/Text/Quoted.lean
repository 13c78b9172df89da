import IntScript.Text.Blank
import IntScript.Text.Property.DefaultIgnorable
import IntScript.Text.Property.GraphemeExtend
import IntScript.Text.Property.Other

namespace IntScript.Text

/-- The halfwidth sound marks. They follow the character that they belong to, but take a place of
their own. -/
def isSoundMark (c : Char) : Bool := c == '\uff9e' || c == '\uff9f'

def isJoined (c : Char) : Bool := Property.graphemeExtend.contains c && !isSoundMark c

/-- The characters that can be told by their looks: no blanks but the space, and none that is not
seen or that changes the character before it. -/
def isDistinct (c : Char) : Bool :=
  (' ' ≤ c && c ≤ '~') ||
    !(isBlank c || isJoined c || Property.other.contains c || Property.defaultIgnorable.contains c)

def codePoint (c : Char) : String :=
  "\\u\x7b" ++ String.ofList (Nat.toDigits 16 c.toNat) ++ "\x7d"

def escape (c : Char) : String :=
  if c == '"' then "\\\""
  else if c == '\\' then "\\\\"
  else if c == '\n' then "\\n"
  else if c == '\r' then "\\r"
  else if c == '\t' then "\\t"
  else if c == '\x00' then "\\0"
  else if isDistinct c then String.singleton c
  else codePoint c

def quote (text : String) : String :=
  text.toList.foldl (fun quoted c => quoted ++ escape c) "\"" ++ "\""

end IntScript.Text
