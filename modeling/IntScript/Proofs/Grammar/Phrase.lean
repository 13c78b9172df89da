import IntScript.Grammar.Error
import IntScript.Proofs.Tree.Expression

namespace IntScript.Grammar

abbrev Phrase := List Token → Expr → Prop

/-- `operand (operator operand)*`, where each operator takes all that stands before it as its left
operand and the single next operand as its right one. -/
inductive Chain (operator? : Token.Kind → Option Operator) (operand : Phrase) : Phrase
  | one {ts e} (h : operand ts e) : Chain operator? operand ts e
  | more {ts us left right kind op} (text : String) (hl : Chain operator? operand ts left)
      (hop : operator? kind = some op) (hr : operand us right) :
      Chain operator? operand (ts ++ ⟨kind, text⟩ :: us) (.binary op left right)

/-- `INT_LITERAL | IDENT | '(' inner ')'`. Parentheses leave no trace in the expression. -/
inductive Primary (inner : Phrase) : Phrase
  | literal (text) : Primary inner [⟨.intLiteral, text⟩] (.literal text)
  | identifier (name) : Primary inner [⟨.identifier, name⟩] (.identifier name)
  | group {ts e} (l r : String) (h : inner ts e) :
      Primary inner (⟨.leftParen, l⟩ :: (ts ++ [⟨.rightParen, r⟩])) e

/-- `primary (('*' | '/') primary)*` -/
def Multiplicative (inner : Phrase) : Phrase := Chain Operator.multiplicative? (Primary inner)

/-- The expressions in which fewer than `n` parentheses are open at any point. -/
def Nested : Nat → Phrase
  | 0 => fun _ _ => False
  | n + 1 => Chain Operator.additive? (Multiplicative (Nested n))

/-- `multiplicative (('+' | '-') multiplicative)*`, where at most `n` parentheses are open at any
point. -/
def Additive (n : Nat) : Phrase := Chain Operator.additive? (Multiplicative (Nested n))

theorem Chain.ne_nil {operator? : Token.Kind → Option Operator} {operand : Phrase} {ts : List Token} {e : Expr}
    (ho : ∀ ts e, operand ts e → ts ≠ []) (h : Chain operator? operand ts e) : ts ≠ [] := by
  cases h with
  | one h => exact ho _ _ h
  | more => simp

theorem additive_ne_nil {n : Nat} {ts : List Token} {e : Expr} (h : Additive n ts e) : ts ≠ [] := by
  refine Chain.ne_nil (fun _ _ hm => ?_) h
  refine Chain.ne_nil (fun _ _ hp => ?_) hm
  cases hp <;> simp

/-- `'int' IDENT ('=' additive)? ';' | IDENT '=' additive ';' | additive ';'` -/
inductive Statement (n : Nat) : List Token → Stmt → Prop
  | declare (int name semicolon : String) :
      Statement n [⟨.keywordInt, int⟩, ⟨.identifier, name⟩, ⟨.semicolon, semicolon⟩]
        (.declaration name none)
  | define {ts e} (int name equals semicolon : String) (h : Additive n ts e) :
      Statement n (⟨.keywordInt, int⟩ :: ⟨.identifier, name⟩ :: ⟨.assign, equals⟩ ::
        (ts ++ [⟨.semicolon, semicolon⟩])) (.declaration name (some e))
  | assign {ts e} (name equals semicolon : String) (h : Additive n ts e) :
      Statement n (⟨.identifier, name⟩ :: ⟨.assign, equals⟩ :: (ts ++ [⟨.semicolon, semicolon⟩]))
        (.assignment name e)
  | expression {ts e} (semicolon : String) (h : Additive n ts e) :
      Statement n (ts ++ [⟨.semicolon, semicolon⟩]) (.expression e)

/-- `statement*`, where at most `n` parentheses are open at any point. -/
inductive Program (n : Nat) : List Token → List Stmt → Prop
  | nil : Program n [] []
  | cons {ts us x xs} (hx : Statement n ts x) (hxs : Program n us xs) : Program n (ts ++ us) (x :: xs)

end IntScript.Grammar
