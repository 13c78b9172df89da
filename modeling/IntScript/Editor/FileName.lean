import IntScript.Editor.Basic
import IntScript.Text.Offset

namespace IntScript

inductive Quotation where
  | bare | single | double
  deriving DecidableEq, Repr

namespace Quotation

def special : Quotation → List Char
  | bare =>
      [' ', '\t', '\n', '"', '\\', '\'', '`', '@', '$', '>', '<', '=', ';', '|', '&', '\x7b', '(',
        '\x00']
  | single => []
  | double => ['"', '$', '\\', '`']

def escape (q : Quotation) : List Char → List Char
  | [] => []
  | c :: cs => if q.special.contains c then '\\' :: c :: q.escape cs else c :: q.escape cs

/-- Takes away the backslashes, but not one that stands after another. -/
def unescape : List Char → List Char
  | [] => []
  | ['\\'] => []
  | '\\' :: c :: cs => c :: unescape cs
  | c :: cs => c :: unescape cs

def meaning (q : Quotation) (cs : List Char) : List Char := if q = single then cs else unescape cs

end Quotation

namespace FileName

/-- What has been seen of a line: text, or what stands after a quotation mark that is still open.
That comes reversed. -/
inductive Scan where
  | text (escaped : Bool)
  | single (word : List Char)
  | double (word : List Char) (escaped : Bool)
  deriving DecidableEq, Repr

namespace Scan

def step : Scan → Char → Scan
  | text true, _ => text false
  | text false, c =>
      if c = '\'' then single [] else if c = '"' then double [] false else text (c == '\\')
  | single word, c => if c = '\'' then text false else single (c :: word)
  | double word true, c => double (c :: word) false
  | double word false, c => if c = '"' then text false else double (c :: word) (c == '\\')

end Scan

/-- The end of a text up to a character that has to be escaped and is not. Both the text and its
end are reversed. -/
def bareWord : List Char → List Char
  | [] => []
  | c :: cs =>
      if Quotation.bare.special.contains c then
        match cs with
        | '\\' :: cs => c :: '\\' :: bareWord cs
        | _ => []
      else c :: bareWord cs

/-- The word at the end of a text, with the way it is written. It starts after a quotation mark
that is still open. Both the text and the word are reversed. -/
def wordBefore (before : List Char) : Quotation × List Char :=
  match before.reverse.foldl Scan.step (.text false) with
  | .text _ => (.bare, bareWord before)
  | .single word => (.single, word)
  | .double word _ => (.double, word)

def splitPath (path : List Char) : List Char × List Char :=
  let name := (path.reverse.takeWhile (· != '/')).reverse
  (path.take (path.length - name.length), name)

end FileName

namespace Directory

/-- A path leads back to the directory that it starts from. The empty path does not leave it. -/
def isHere (d : Directory) (path : String) : Bool :=
  if path.isEmpty then true
  else
    match d.files.follow path with
    | .ok .here => true
    | _ => false

def reach (d : Directory) (path name : String) : Nat :=
  d.path.utf8ByteSize + 1 + path.utf8ByteSize + name.utf8ByteSize

def namesBehind (d : Directory) (path : String) : List String :=
  if d.isHere path then
    (d.files.contents.map (·.1)).filter fun name => d.reach path name ≤ Files.maxPath
  else []

end Directory

def FileName.complete (d : Directory) (line : String) (cursor : Nat) : Completion :=
  match Text.cut? line.toList cursor with
  | none => ⟨0, []⟩
  | some (before, _) =>
      let (quotation, word) := wordBefore before
      let (path, stem) := splitPath (quotation.meaning word.reverse)
      let names := (d.namesBehind (String.ofList path)).filter (stem.isPrefixOf ·.toList)
      ⟨cursor - Text.width word, names.mergeSort.map fun name =>
        ⟨name, String.ofList (quotation.escape (path ++ name.toList))⟩⟩

end IntScript
