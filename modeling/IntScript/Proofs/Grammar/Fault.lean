import IntScript.Proofs.Grammar.Phrase

namespace IntScript.Grammar

/-- The tokens that were read, the next one (none at the end), and what is wrong with that one. -/
abbrev Fault := List Token → Option Token → ParseError.Reason → Prop

def startsOperand : Token.Kind → Bool
  | .intLiteral | .identifier | .leftParen => true
  | _ => false

def isOperator (kind : Token.Kind) : Bool :=
  (Operator.multiplicative? kind).isSome || (Operator.additive? kind).isSome

def Stops (kinds : Token.Kind → Bool) (next : Option Token) : Prop := ∀ t ∈ next, kinds t.kind = false

inductive ChainFault (operator? : Token.Kind → Option Operator) (operand : Phrase) (fault : Fault) : Fault
  | first {ts next reason} (h : fault ts next reason) :
      ChainFault operator? operand fault ts next reason
  | missing {ts e kind op next} (text : String) (hl : Chain operator? operand ts e)
      (hop : operator? kind = some op) (hn : Stops startsOperand next) :
      ChainFault operator? operand fault (ts ++ [⟨kind, text⟩]) next (.missingRightOperand op)
  | right {ts us e kind op next reason} (text : String) (hl : Chain operator? operand ts e)
      (hop : operator? kind = some op) (hr : fault us next reason) :
      ChainFault operator? operand fault (ts ++ ⟨kind, text⟩ :: us) next reason

inductive PrimaryFault (n : Nat) (inner : Phrase) (fault : Fault) : Fault
  | tooDeep (l : String) (hn : n = 0) :
      PrimaryFault n inner fault [] (some ⟨.leftParen, l⟩) .nestingTooDeep
  | empty {next} (l : String) (hn : n ≠ 0) (h : Stops startsOperand next) :
      PrimaryFault n inner fault [⟨.leftParen, l⟩] next .emptyParens
  | inside {ts next reason} (l : String) (hn : n ≠ 0) (h : fault ts next reason) :
      PrimaryFault n inner fault (⟨.leftParen, l⟩ :: ts) next reason
  | unclosed {ts e next} (l : String) (hn : n ≠ 0) (h : inner ts e) (ho : Stops isOperator next)
      (hc : Stops (· == .rightParen) next) :
      PrimaryFault n inner fault (⟨.leftParen, l⟩ :: ts) next .missingClosingParen

def MultiplicativeFault (n : Nat) (inner : Phrase) (fault : Fault) : Fault :=
  ChainFault Operator.multiplicative? (Primary inner) (PrimaryFault n inner fault)

def NestedFault : Nat → Fault
  | 0 => fun _ _ _ => False
  | n + 1 => ChainFault Operator.additive? (Multiplicative (Nested n))
      (MultiplicativeFault n (Nested n) (NestedFault n))

def AdditiveFault (n : Nat) : Fault :=
  ChainFault Operator.additive? (Multiplicative (Nested n))
    (MultiplicativeFault n (Nested n) (NestedFault n))

inductive ValueFault (n : Nat) (missing : ParseError.Reason) : Fault
  | absent {next} (h : Stops startsOperand next) : ValueFault n missing [] next missing
  | inside {ts next reason} (h : AdditiveFault n ts next reason) :
      ValueFault n missing ts next reason
  | unended {ts e next} (h : Additive n ts e) (ho : Stops isOperator next)
      (hs : Stops (· == .semicolon) next) : ValueFault n missing ts next .missingSemicolon

/-- Where a statement goes wrong after it has been told from the other kinds of statements. -/
inductive StatementFault (n : Nat) : Fault
  | unnamed {next} (int : String) (h : Stops (· == .identifier) next) :
      StatementFault n [⟨.keywordInt, int⟩] next .missingVariableName
  | bare {next} (int name : String) (ha : Stops (· == .assign) next)
      (hs : Stops (· == .semicolon) next) :
      StatementFault n [⟨.keywordInt, int⟩, ⟨.identifier, name⟩] next .missingSemicolon
  | define {ts next reason} (int name equals : String)
      (h : ValueFault n (.missingInitializer name) ts next reason) :
      StatementFault n (⟨.keywordInt, int⟩ :: ⟨.identifier, name⟩ :: ⟨.assign, equals⟩ :: ts) next reason
  | assign {ts next reason} (name equals : String)
      (h : ValueFault n (.missingAssignedValue name) ts next reason) :
      StatementFault n (⟨.identifier, name⟩ :: ⟨.assign, equals⟩ :: ts) next reason
  | expression {ts next reason} (h : AdditiveFault n ts next reason) : StatementFault n ts next reason

def BeginsAssignment (ts : List Token) (next : Option Token) : Prop :=
  ∃ name equals, ts = [⟨.identifier, name⟩] ∧ next = some ⟨.assign, equals⟩

/-- What is taken back: nothing that begins a statement, or an expression without a semicolon. -/
inductive Unfinished (n : Nat) : List Token → Option Token → Prop
  | nothing {next} (hi : Stops (· == .keywordInt) next) (ho : Stops startsOperand next) :
      Unfinished n [] next
  | expression {ts e next} (h : Additive n ts e) (ho : Stops isOperator next)
      (hs : Stops (· == .semicolon) next) (ha : ¬ BeginsAssignment ts next) : Unfinished n ts next

end IntScript.Grammar
