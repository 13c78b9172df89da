import IntScript.Proofs.Grammar.Program

namespace IntScript.Grammar

def Viable (n : Nat) (ts : List Token) : Prop := ∃ us xs, Program n (ts ++ us) xs

def Begins (phrase : Phrase) (ts : List Token) : Prop := ∃ us e, phrase (ts ++ us) e

variable {operator? : Token.Kind → Option Operator} {n : Nat} {phrase : Phrase} {fault : Fault}
  {ts us : List Token} {next : Option Token} {reason : ParseError.Reason}

theorem Viable.of_append (h : Viable n (ts ++ us)) : Viable n ts := by
  obtain ⟨vs, xs, hp⟩ := h
  exact ⟨us ++ vs, xs, by rwa [← List.append_assoc]⟩

theorem Begins.chain (h : Begins phrase ts) : Begins (Chain operator? phrase) ts := by
  obtain ⟨us, e, hp⟩ := h
  exact ⟨us, e, .one hp⟩

theorem Begins.chain_right {e : Expr} {kind : Token.Kind} {op : Operator} (text : String)
    (hl : Chain operator? phrase ts e) (hop : operator? kind = some op) (h : Begins phrase us) :
    Begins (Chain operator? phrase) (ts ++ ⟨kind, text⟩ :: us) := by
  obtain ⟨vs, right, hr⟩ := h
  refine ⟨vs, .binary op e right, ?_⟩
  rw [List.append_assoc]
  exact .more text hl hop hr

theorem primary_begins (inner : Phrase) : Begins (Primary inner) [] :=
  ⟨[⟨.intLiteral, "0"⟩], _, .literal "0"⟩

theorem additive_begins (n : Nat) : Begins (Additive n) [] := (primary_begins _).chain.chain

theorem chainFault_begins (hp : Begins phrase [])
    (hf : ∀ ts next reason, fault ts next reason → Begins phrase ts)
    (h : ChainFault operator? phrase fault ts next reason) : Begins (Chain operator? phrase) ts := by
  cases h with
  | first h => exact (hf _ _ _ h).chain
  | missing text hl hop _ => exact hp.chain_right text hl hop
  | right text hl hop hr => exact (hf _ _ _ hr).chain_right text hl hop

theorem Begins.group {inner : Phrase} (l : String) (h : Begins inner ts) :
    Begins (Primary inner) (⟨.leftParen, l⟩ :: ts) := by
  obtain ⟨us, e, hi⟩ := h
  refine ⟨us ++ [⟨.rightParen, ")"⟩], e, ?_⟩
  rw [List.cons_append, ← List.append_assoc]
  exact .group l ")" hi

theorem primaryFault_begins (hf : ∀ ts next reason, NestedFault n ts next reason → Begins (Nested n) ts)
    (h : PrimaryFault n (Nested n) (NestedFault n) ts next reason) : Begins (Primary (Nested n)) ts := by
  cases h with
  | tooDeep => exact primary_begins _
  | empty l hn _ =>
      obtain ⟨m, rfl⟩ := Nat.exists_eq_succ_of_ne_zero hn
      exact (additive_begins m).group l
  | inside l _ h => exact (hf _ _ _ h).group l
  | unclosed l _ h _ _ => exact Begins.group l ⟨[], _, by rwa [List.append_nil]⟩

theorem nestedFault_begins (n : Nat) (ts : List Token) (next : Option Token) (reason : ParseError.Reason)
    (h : NestedFault n ts next reason) : Begins (Nested n) ts := by
  induction n generalizing ts next reason with
  | zero => exact h.elim
  | succ n ih =>
      refine chainFault_begins (primary_begins _).chain (fun _ _ _ hm => ?_) h
      exact chainFault_begins (primary_begins _) (fun _ _ _ => primaryFault_begins ih) hm

theorem additiveFault_begins (h : AdditiveFault n ts next reason) : Begins (Additive n) ts :=
  nestedFault_begins (n + 1) ts next reason h

theorem valueFault_begins {missing : ParseError.Reason} (h : ValueFault n missing ts next reason) :
    Begins (Additive n) ts := by
  cases h with
  | absent => exact additive_begins n
  | inside h => exact additiveFault_begins h
  | unended h _ _ => exact ⟨[], _, by rwa [List.append_nil]⟩

theorem statementFault_continues (h : StatementFault n ts next reason) :
    ∃ us x, Statement n (ts ++ us) x := by
  cases h with
  | unnamed int _ =>
      exact ⟨[⟨.identifier, "x"⟩, ⟨.semicolon, ";"⟩], _, .declare int "x" ";"⟩
  | bare int name _ _ => exact ⟨[⟨.semicolon, ";"⟩], _, .declare int name ";"⟩
  | define int name equals h =>
      obtain ⟨us, e, he⟩ := valueFault_begins h
      exact ⟨us ++ [⟨.semicolon, ";"⟩], _, by simpa using Statement.define int name equals ";" he⟩
  | assign name equals h =>
      obtain ⟨us, e, he⟩ := valueFault_begins h
      exact ⟨us ++ [⟨.semicolon, ";"⟩], _, by simpa using Statement.assign name equals ";" he⟩
  | expression h =>
      obtain ⟨us, e, he⟩ := additiveFault_begins h
      exact ⟨us ++ [⟨.semicolon, ";"⟩], _, by simpa using Statement.expression ";" he⟩

theorem unfinished_continues (h : Unfinished n ts next) : ∃ us x, Statement n (ts ++ us) x := by
  cases h with
  | nothing => exact ⟨_, _, .declare "int" "x" ";"⟩
  | expression h _ _ _ => exact ⟨[⟨.semicolon, ";"⟩], _, .expression ";" h⟩

theorem viable_of_statement {done : List Token} {xs : List Stmt} (hd : Program n done xs)
    (h : ∃ us x, Statement n (ts ++ us) x) : Viable n (done ++ ts) := by
  obtain ⟨us, x, hx⟩ := h
  refine ⟨us, xs ++ [x], ?_⟩
  have hp := hd.append (.cons hx .nil)
  rwa [List.append_nil, ← List.append_assoc] at hp

/-- A whole expression can be carried further by every operator. -/
theorem additive_further {e : Expr} {t : Token} (h : Additive n ts e) (ht : isOperator t.kind = true) :
    Begins (Additive n) (ts ++ [t]) := by
  obtain ⟨kind, text⟩ := t
  rw [isOperator, Bool.or_eq_true, Option.isSome_iff_exists, Option.isSome_iff_exists] at ht
  rcases ht with ⟨op, hop⟩ | ⟨op, hop⟩
  · cases h with
    | one hm => exact ((primary_begins _).chain_right text hm hop).chain
    | more sign hl hsign hr =>
        rw [List.append_assoc]
        exact ((primary_begins _).chain_right text hr hop).chain_right sign hl hsign
  · exact (primary_begins _).chain.chain_right text h hop

end IntScript.Grammar
