import IntScript.Proofs.Grammar.Fault
import IntScript.Proofs.Tree.Writing

namespace IntScript

def Operator.kind : Operator → Token.Kind
  | add => .plus
  | sub => .minus
  | mul => .star
  | div => .slash

namespace Grammar

/-- The phrases in which at most `n` parentheses are open and whose rank is at least the given one. -/
def Level (n : Nat) : Nat → Phrase
  | 0 => Additive n
  | 1 => Multiplicative (Nested n)
  | _ => Primary (Nested n)

def LevelFault (n : Nat) : Nat → Fault
  | 0 => AdditiveFault n
  | 1 => MultiplicativeFault n (Nested n) (NestedFault n)
  | _ => PrimaryFault n (Nested n) (NestedFault n)

variable {n k j : Nat} {ts us : List Token} {e left right : Expr} {next : Option Token} {reason : ParseError.Reason}

theorem level_anti (h : j ≤ k) (hk : Level n k ts e) : Level n j ts e := by
  induction k, h using Nat.le_induction with
  | base => exact hk
  | succ k _ ih =>
      refine ih ?_
      match k, hk with
      | 0, hk => exact .one hk
      | 1, hk => exact .one hk
      | _ + 2, hk => exact hk

theorem levelFault_anti (h : j ≤ k) (hk : LevelFault n k ts next reason) : LevelFault n j ts next reason := by
  induction k, h using Nat.le_induction with
  | base => exact hk
  | succ k _ ih =>
      refine ih ?_
      match k, hk with
      | 0, hk => exact .first hk
      | 1, hk => exact .first hk
      | _ + 2, hk => exact hk

theorem level_group (l r : String) (h : Level n 0 ts e) (k : Nat) :
    Level (n + 1) k (⟨.leftParen, l⟩ :: (ts ++ [⟨.rightParen, r⟩])) e :=
  match k with
  | 0 => .one (.one (.group l r h))
  | 1 => .one (.group l r h)
  | _ + 2 => .group l r h

theorem level_binary (op : Operator) (text : String) (hl : Level n op.rank ts left) (hr : Level n (op.rank + 1) us right) :
    Level n op.rank (ts ++ ⟨op.kind, text⟩ :: us) (.binary op left right) := by
  cases op <;> exact .more _ hl rfl hr

theorem levelFault_right (op : Operator) (text : String) (hl : Level n op.rank ts left)
    (hr : LevelFault n (op.rank + 1) us next reason) :
    LevelFault n op.rank (ts ++ ⟨op.kind, text⟩ :: us) next reason := by
  cases op <;> exact .right _ hl rfl hr

theorem additive?_spec {kind : Token.Kind} {op : Operator} (h : Operator.additive? kind = some op) :
    op.rank = 0 ∧ kind = op.kind := by
  cases kind <;> simp [Operator.additive?] at h <;> subst h <;> exact ⟨rfl, rfl⟩

theorem multiplicative?_spec {kind : Token.Kind} {op : Operator} (h : Operator.multiplicative? kind = some op) :
    op.rank = 1 ∧ kind = op.kind := by
  cases kind <;> simp [Operator.multiplicative?] at h <;> subst h <;> exact ⟨rfl, rfl⟩

section

variable {motive : Nat → Nat → List Token → Expr → Prop}
  (literal : ∀ n text, motive n 2 [⟨.intLiteral, text⟩] (.literal text))
  (identifier : ∀ n name, motive n 2 [⟨.identifier, name⟩] (.identifier name))
  (group : ∀ n l r ts e, motive n 0 ts e → motive (n + 1) 2 (⟨.leftParen, l⟩ :: (ts ++ [⟨.rightParen, r⟩])) e)
  (lower : ∀ n k ts e, motive n (k + 1) ts e → motive n k ts e)
  (binary : ∀ n op text ts us left right, motive n op.rank ts left → motive n (op.rank + 1) us right →
    motive n op.rank (ts ++ ⟨op.kind, text⟩ :: us) (.binary op left right))

include lower binary in
theorem chain_induction {operator? : Token.Kind → Option Operator} {operand : Phrase}
    (hop : ∀ {kind op}, operator? kind = some op → op.rank = k ∧ kind = op.kind)
    (ho : ∀ ts e, operand ts e → motive n (k + 1) ts e) (h : Chain operator? operand ts e) : motive n k ts e := by
  induction h with
  | one h => exact lower n k _ _ (ho _ _ h)
  | @more ts us left right kind op text _ hkind hr ih =>
      obtain ⟨rfl, rfl⟩ := hop hkind
      exact binary n op text ts us left right ih (ho _ _ hr)

include literal identifier group lower binary

theorem primary_induction (h : Primary (Nested n) ts e) : motive n 2 ts e := by
  -- What stands in parentheses is a phrase with one less of them to open.
  induction n generalizing ts e with
  | zero =>
      cases h with
      | literal text => exact literal 0 text
      | identifier name => exact identifier 0 name
      | group l r h => exact h.elim
  | succ n ih =>
      cases h with
      | literal text => exact literal _ text
      | identifier name => exact identifier _ name
      | group l r h =>
          refine group n l r _ _ (chain_induction lower binary additive?_spec (fun _ _ hm => ?_) h)
          exact chain_induction lower binary multiplicative?_spec (fun _ _ hp => ih hp) hm

/-- All phrases are made in these ways. -/
theorem level_induction (hk : k ≤ 2) (h : Level n k ts e) : motive n k ts e := by
  have hprimary : ∀ ts e, Primary (Nested n) ts e → motive n 2 ts e := fun _ _ hp =>
    primary_induction literal identifier group lower binary hp
  have hproduct : ∀ ts e, Multiplicative (Nested n) ts e → motive n 1 ts e := fun _ _ hm =>
    chain_induction lower binary multiplicative?_spec hprimary hm
  match k, h with
  | 0, h => exact chain_induction lower binary additive?_spec hproduct h
  | 1, h => exact hproduct _ _ h
  | 2, h => exact hprimary _ _ h

end

theorem level_mono {m : Nat} (hm : n ≤ m) (hk : k ≤ 2) (h : Level n k ts e) : Level m k ts e := by
  refine level_induction (motive := fun n k ts e => ∀ m, n ≤ m → Level m k ts e) ?_ ?_ ?_ ?_ ?_ hk h m hm
  · exact fun n text m _ => .literal text
  · exact fun n name m _ => .identifier name
  · intro n l r ts e ih m hm
    obtain ⟨m, rfl⟩ := Nat.exists_eq_add_of_le' hm
    exact level_group l r (ih (m + n) (Nat.le_add_left n m)) 2
  · exact fun n k ts e ih m hm => level_anti (Nat.le_succ k) (ih m hm)
  · exact fun n op text ts us left right ihl ihr m hm => level_binary op text (ihl m hm) (ihr m hm)

end Grammar

end IntScript
