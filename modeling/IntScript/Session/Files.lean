namespace IntScript

inductive ReadError where
  | missing
  | notDirectory
  | directory
  | nameTooLong
  | nulInName
  | notText
  deriving DecidableEq, Repr

def ReadError.reason : ReadError → String
  | missing => "No such file or directory (os error 2)"
  | notDirectory => "Not a directory (os error 20)"
  | directory => "Is a directory (os error 21)"
  | nameTooLong => "File name too long (os error 36)"
  | nulInName => "file name contained an unexpected NUL byte"
  | notText => "stream did not contain valid UTF-8"

def decode (content : ByteArray) : Except ReadError String :=
  match String.fromUTF8? content with
  | some text => .ok text
  | none => .error .notText

/-- The files of a directory by their names, with what reading them gives. -/
structure Files where
  contents : List (String × Except ReadError ByteArray)

namespace Files

inductive Place where
  | here
  | outside
  | file (content : Except ReadError ByteArray)

def maxName : Nat := 255

def maxPath : Nat := 4095

def parts : List Char → List (List Char)
  | [] => [[]]
  | c :: cs =>
      if c = '/' then [] :: parts cs
      else
        match parts cs with
        | [] => [[c]]
        | part :: rest => (c :: part) :: rest

/-- Follows one name of a path. Outside of the directory only directories further out are known. -/
def enter (files : Files) (place : Place) (name : String) : Except ReadError Place :=
  match place with
  | .file _ => .error .notDirectory
  | place =>
      if name = "" ∨ name = "." then .ok place
      else if name = ".." then .ok .outside
      else if maxName < name.utf8ByteSize then .error .nameTooLong
      else
        match place, files.contents.lookup name with
        | .here, some content => .ok (.file content)
        | _, _ => .error .missing

def follow (files : Files) (path : String) : Except ReadError Place :=
  if path.isEmpty then .error .missing
  else if path.toList.contains '\x00' then .error .nulInName
  else if maxPath < path.utf8ByteSize then .error .nameTooLong
  else
    let root := if path.toList.head? = some '/' then .outside else .here
    (parts path.toList).foldlM (fun place part => files.enter place (String.ofList part)) root

/-- The text of a file. Its name may be a path, unless it is known as it is. -/
def read (files : Files) (name : String) : Except ReadError String := do
  match files.contents.lookup name with
  | some content => decode (← content)
  | none =>
      match ← files.follow name with
      | .file content => decode (← content)
      | _ => throw .directory

end Files

end IntScript
