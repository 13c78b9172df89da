import IntScript.Grammar.Nesting
import IntScript.Token.Automaton

namespace IntScript

def parseProgram (c : Cursor) : Parsed :=
  (Grammar.programWithin (maxNesting + 1) c).get (Grammar.programWithin_isSome c)

def parseCalculation (c : Cursor) : Parsed :=
  (Grammar.calculationWithin (maxNesting + 1) c).get (Grammar.calculationWithin_isSome c)

def parse (source : String) : Except ParseError Arena :=
  (parseProgram (.start (tokenize source))).result

def parseExpression (source : String) : Except ParseError Arena :=
  (parseCalculation (.start (tokenize source))).result

end IntScript
