import IntScript.Proofs.Grammar.Level

namespace IntScript.Grammar

inductive Context : List Token → List Token → Expr → Stmt → Prop
  | define (int name equals semicolon : String) (e : Expr) :
      Context [⟨.keywordInt, int⟩, ⟨.identifier, name⟩, ⟨.assign, equals⟩] [⟨.semicolon, semicolon⟩] e
        (.declaration name (some e))
  | assign (name equals semicolon : String) (e : Expr) :
      Context [⟨.identifier, name⟩, ⟨.assign, equals⟩] [⟨.semicolon, semicolon⟩] e (.assignment name e)
  | expression (semicolon : String) (e : Expr) : Context [] [⟨.semicolon, semicolon⟩] e (.expression e)

variable {n m : Nat} {ts front back : List Token} {e : Expr} {x : Stmt} {xs : List Stmt}

namespace Context

theorem expr?_eq (hx : Context front back e x) : x.expr? = some e := by
  cases hx <;> rfl

theorem statement (hx : Context front back e x) (h : Additive n ts e) : Statement n (front ++ (ts ++ back)) x := by
  cases hx with
  | define int name equals semicolon => exact .define int name equals semicolon h
  | assign name equals semicolon => exact .assign name equals semicolon h
  | expression semicolon => exact .expression semicolon h

theorem fault {next : Option Token} {reason : ParseError.Reason} (hx : Context front back e x)
    (h : AdditiveFault n ts next reason) : StatementFault n (front ++ ts) next reason := by
  cases hx with
  | define int name equals semicolon => exact .define int name equals (.inside h)
  | assign name equals semicolon => exact .assign name equals (.inside h)
  | expression semicolon => exact .expression h

end Context

/-- A statement without an expression declares a name. -/
theorem statement_induction {motive : List Token → Stmt → Prop}
    (declare : ∀ int name semicolon,
      motive [⟨.keywordInt, int⟩, ⟨.identifier, name⟩, ⟨.semicolon, semicolon⟩] (.declaration name none))
    (value : ∀ front ts back e x, Context front back e x → Additive n ts e → motive (front ++ (ts ++ back)) x)
    (h : Statement n ts x) : motive ts x := by
  cases h with
  | declare int name semicolon => exact declare int name semicolon
  | define int name equals semicolon h => exact value _ _ _ _ _ (.define int name equals semicolon _) h
  | assign name equals semicolon h => exact value _ _ _ _ _ (.assign name equals semicolon _) h
  | expression semicolon h => exact value _ _ _ _ _ (.expression semicolon _) h

theorem statement_mono (hm : n ≤ m) (h : Statement n ts x) : Statement m ts x := by
  refine statement_induction (motive := Statement m) ?_ ?_ h
  · exact fun int name semicolon => .declare int name semicolon
  · exact fun front ts back e x hx h => hx.statement (level_mono hm (Nat.zero_le 2) h)

theorem program_mono (hm : n ≤ m) (h : Program n ts xs) : Program m ts xs := by
  induction h with
  | nil => exact .nil
  | cons hx _ ih => exact .cons (statement_mono hm hx) ih

end IntScript.Grammar
