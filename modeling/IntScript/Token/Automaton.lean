import IntScript.Token.Basic

namespace IntScript

namespace Token

def keywordTable : List (String × Kind) := [("int", .keywordInt), ("if", .keywordIf), ("else", .keywordElse)]

def keyword? (word : String) : Option Kind := (keywordTable.find? (·.1 = word)).map (·.2)

def isKeywordPrefix (word : String) : Bool := keywordTable.any fun entry => word.toList.isPrefixOf entry.1.toList

end Token

/-- What a deterministic automaton writes while it reads a text: the tokens that are closed, and the kind and the
characters of the one being read. -/
structure Automaton where
  kind : Token.Kind
  text : String
  tokens : Array Token
  deriving DecidableEq, Repr

namespace Automaton

/-- The states of the automaton. A text in `keywordPrefix` begins a keyword and may be a whole one, and a token in
`single` is closed by any character. -/
inductive State where
  | initial | keywordPrefix | word | greater | less | number | single
  deriving DecidableEq, Repr

def start : Automaton := ⟨.identifier, "", #[]⟩

def push (a : Automaton) (c : Char) : Automaton := { a with text := a.text.push c }

def commitKeyword (a : Automaton) : Automaton :=
  match Token.keyword? a.text with
  | some kind => { a with kind }
  | none => a

def closeToken (a : Automaton) : Automaton :=
  if a.text = "" then a else ⟨.identifier, "", a.tokens.push ⟨a.kind, a.text⟩⟩

/-- The kind and the state that a character begins. Characters that begin none are skipped. -/
def begins? (c : Char) : Option (Token.Kind × State) :=
  if c.isAlpha then
    some (.identifier, if Token.isKeywordPrefix (String.singleton c) then .keywordPrefix else .word)
  else if c.isDigit then some (.intLiteral, .number)
  else
    match c with
    | '>' => some (.gt, .greater)
    | '<' => some (.lt, .less)
    | '+' => some (.plus, .single)
    | '-' => some (.minus, .single)
    | '*' => some (.star, .single)
    | '/' => some (.slash, .single)
    | ';' => some (.semicolon, .single)
    | '(' => some (.leftParen, .single)
    | ')' => some (.rightParen, .single)
    | '=' => some (.assign, .single)
    | _ => none

def initToken (a : Automaton) (c : Char) : State × Automaton :=
  match begins? c with
  | some (kind, state) => (state, { a.closeToken with kind }.push c)
  | none => (.initial, a.closeToken)

def step : State × Automaton → Char → State × Automaton
  | (.initial, a), c => a.initToken c
  | (.word, a), c => if c.isAlphanum then (.word, a.push c) else a.initToken c
  | (.keywordPrefix, a), c =>
      if c.isAlphanum then
        -- Whatever is no longer the beginning of a keyword is an identifier from now on.
        (if Token.isKeywordPrefix (a.push c).text then .keywordPrefix else .word, a.push c)
      else a.commitKeyword.initToken c
  | (.greater, a), c => if c = '=' then (.single, { a with kind := .ge }.push c) else a.initToken c
  | (.less, a), c => if c = '=' then (.single, { a with kind := .le }.push c) else a.initToken c
  | (.number, a), c => if c.isDigit then (.number, a.push c) else a.initToken c
  | (.single, a), c => a.initToken c

def finish : State × Automaton → Array Token
  | (.keywordPrefix, a) => a.commitKeyword.closeToken.tokens
  | (_, a) => a.closeToken.tokens

end Automaton

def tokenize (text : String) : Array Token :=
  Automaton.finish (text.toList.foldl Automaton.step (.initial, .start))

end IntScript
