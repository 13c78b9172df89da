namespace IntScript

inductive Command where
  | help | load | verbose | tokens | calculate | env
  deriving DecidableEq, Repr

namespace Command

def all : List Command := [help, load, verbose, tokens, calculate, env]

def shortName : Command → String
  | help => "h"
  | load => "l"
  | verbose => "v"
  | tokens => "t"
  | calculate => "c"
  | env => "e"

def longName : Command → String
  | help => "help"
  | load => "load"
  | verbose => "verbose"
  | tokens => "tokens"
  | calculate => "calc"
  | env => "env"

def takesArgument : Command → Bool
  | load | tokens | calculate => true
  | help | verbose | env => false

def description : Command → String
  | help => "print this message."
  | load => "run all statements from a file."
  | verbose => "toggle verbose mode, which prints the AST and traces each evaluation step."
  | tokens => "print the tokens of the rest of the line."
  | calculate => "evaluate a single expression, no semicolon needed."
  | env => "list declared variables and their values."

def ofName? (name : String) : Option Command :=
  all.find? fun c => name == c.shortName || name == c.longName

def ofStem? (stem : String) : Option Command :=
  all.find? fun c => stem.toList.isPrefixOf c.longName.toList

def usage : String :=
  "A simple script language: integer variables and arithmetic.\n" ++
  "\n" ++
  "    > int age = 10;\n" ++
  "    > age = age * 2 + 1;\n" ++
  "    > exit();\n" ++
  "\n" ++
  "Available commands:\n" ++
  String.join (all.map fun c =>
    ":" ++ c.shortName ++ ", :" ++ c.longName ++ "\t" ++ c.description ++ "\n")

end Command

end IntScript
