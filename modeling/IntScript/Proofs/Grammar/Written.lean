import IntScript.Proofs.Grammar.Opening
import IntScript.Proofs.Token.Segmentation

namespace IntScript

def grouped (needed : Bool) (ts : List Token) : List Token :=
  if needed then ⟨.leftParen, "("⟩ :: (ts ++ [⟨.rightParen, ")"⟩]) else ts

namespace Expr

def tokens : Expr → List Token
  | .literal text => [⟨.intLiteral, text⟩]
  | .identifier name => [⟨.identifier, name⟩]
  | .binary op left right =>
      grouped (left.rank < op.rank) left.tokens ++ ⟨op.kind, op.symbol⟩ ::
        grouped (right.rank < op.rank + 1) right.tokens

def tokensAt (k : Nat) (e : Expr) : List Token := grouped (e.rank < k) e.tokens

variable {n k : Nat} {e left right : Expr} {op : Operator}

theorem tokens_binary (op : Operator) (left right : Expr) :
    (binary op left right).tokens = left.tokensAt op.rank ++ ⟨op.kind, op.symbol⟩ :: right.tokensAt (op.rank + 1) := rfl

theorem tokensAt_of_lt (h : e.rank < k) : e.tokensAt k = ⟨.leftParen, "("⟩ :: (e.tokens ++ [⟨.rightParen, ")"⟩]) := by
  simp [tokensAt, grouped, h]

theorem tokensAt_of_le (h : k ≤ e.rank) : e.tokensAt k = e.tokens := by
  simp [tokensAt, grouped, Nat.not_lt.2 h]

theorem depthAt_of_lt (h : e.rank < k) : e.depthAt k = e.depth + 1 := if_pos h

theorem depthAt_of_le (h : k ≤ e.rank) : e.depthAt k = e.depth := if_neg (Nat.not_lt.2 h)

theorem depth_le_depthAt (k : Nat) (e : Expr) : e.depth ≤ e.depthAt k := by
  rw [depthAt]
  split_ifs <;> omega

theorem depthAt_le_succ (k : Nat) (e : Expr) : e.depthAt k ≤ e.depthAt (k + 1) := by
  simp only [depthAt]
  split_ifs <;> omega

theorem depthAt_le_succ_depth (k : Nat) (e : Expr) : e.depthAt k ≤ e.depth + 1 := by
  rw [depthAt]
  split_ifs <;> omega

end Expr

def Stmt.tokens : Stmt → List Token
  | .declaration name none => [⟨.keywordInt, "int"⟩, ⟨.identifier, name⟩, ⟨.semicolon, ";"⟩]
  | .declaration name (some init) =>
      ⟨.keywordInt, "int"⟩ :: ⟨.identifier, name⟩ :: ⟨.assign, "="⟩ :: (init.tokens ++ [⟨.semicolon, ";"⟩])
  | .assignment name value => ⟨.identifier, name⟩ :: ⟨.assign, "="⟩ :: (value.tokens ++ [⟨.semicolon, ";"⟩])
  | .expression value => value.tokens ++ [⟨.semicolon, ";"⟩]

namespace Grammar

variable {n k : Nat} {ts us : List Token} {e : Expr} {x : Stmt} {xs : List Stmt}

theorem level_tokensAt (hd : e.depthAt k ≤ n)
    (h : ∀ n, e.depth ≤ n → Level n e.rank e.tokens e) : Level n k (e.tokensAt k) e := by
  by_cases hlt : e.rank < k
  · rw [Expr.depthAt_of_lt hlt] at hd
    obtain ⟨m, rfl⟩ := Nat.exists_eq_add_of_lt hd
    rw [Expr.tokensAt_of_lt hlt]
    exact level_group "(" ")" (level_anti (Nat.zero_le _) (h _ (Nat.le_add_right _ _))) k
  · have hle := Nat.le_of_not_lt hlt
    rw [Expr.depthAt_of_le hle] at hd
    rw [Expr.tokensAt_of_le hle]
    exact level_anti hle (h n hd)

theorem level_tokens (hd : e.depth ≤ n) : Level n e.rank e.tokens e := by
  induction e generalizing n with
  | literal text => exact .literal text
  | identifier name => exact .identifier name
  | binary op left right ihl ihr =>
      rw [Expr.depth_binary, Nat.max_le] at hd
      rw [Expr.tokens_binary]
      refine level_binary op op.symbol ?_ ?_
      · exact level_tokensAt hd.1 fun _ h => ihl h
      · exact level_tokensAt hd.2 fun _ h => ihr h

theorem additive_tokens (h : e.depth ≤ n) : Additive n e.tokens e := level_anti (Nat.zero_le _) (level_tokens h)

theorem statement_tokens (h : x.depth ≤ n) : Statement n x.tokens x := by
  cases x with
  | declaration name init? =>
      cases init? with
      | none => exact .declare "int" name ";"
      | some init => exact .define "int" name "=" ";" (additive_tokens h)
  | assignment name value => exact .assign name "=" ";" (additive_tokens h)
  | expression value => exact .expression ";" (additive_tokens h)

theorem program_tokens (h : ∀ x ∈ xs, x.depth ≤ n) : Program n (xs.flatMap Stmt.tokens) xs := by
  induction xs with
  | nil => exact .nil
  | cons x xs ih =>
      rw [List.flatMap_cons]
      exact .cons (statement_tokens (h x List.mem_cons_self)) (ih fun y hy => h y (List.mem_cons_of_mem x hy))

/-- A phrase has no fewer parentheses than its expression needs. -/
theorem depth_le (h : Additive n ts e) : e.depth ≤ n := by
  refine (e.depth_le_depthAt 0).trans ?_
  refine level_induction (motive := fun n k _ e => e.depthAt k ≤ n) ?_ ?_ ?_ ?_ ?_ (Nat.zero_le 2) h
  · intro n text
    exact Nat.zero_le n
  · intro n name
    exact Nat.zero_le n
  · intro n l r ts e ih
    exact (e.depthAt_le_succ_depth 2).trans (Nat.succ_le_succ ((e.depth_le_depthAt 0).trans ih))
  · intro n k ts e ih
    exact (e.depthAt_le_succ k).trans ih
  · intro n op text ts us left right ihl ihr
    rw [Expr.depthAt_of_le (Nat.le_refl op.rank), Expr.depth_binary]
    exact Nat.max_le.2 ⟨ihl, ihr⟩

theorem isName_of_lexical {name : String} (h : Token.Lexical ⟨.identifier, name⟩) : IsName name :=
  (Token.kind_eq_identifier_iff h).1 rfl

theorem isDecimal_of_lexical {text : String} (h : Token.Lexical ⟨.intLiteral, text⟩) : Number.IsDecimal text := by
  have hkeywords : ∀ t ∈ Token.keywords, t.kind ≠ .intLiteral := by decide
  have hsymbols : ∀ t ∈ Token.symbols, t.kind ≠ .intLiteral := by decide
  generalize ht : (⟨.intLiteral, text⟩ : Token) = t at h
  cases h with
  | literal hd => exact (Token.mk.inj ht).2 ▸ hd
  | identifier => exact nomatch ht
  | keyword hk => exact absurd (congrArg Token.kind ht).symm (hkeywords _ hk)
  | symbol hk => exact absurd (congrArg Token.kind ht).symm (hsymbols _ hk)

theorem wellNamed_of_additive (h : Additive n ts e) (hts : ∀ t ∈ ts, t.Lexical) : e.WellNamed := by
  refine level_induction (motive := fun _ _ ts e => (∀ t ∈ ts, t.Lexical) → e.WellNamed) ?_ ?_ ?_ ?_ ?_
    (Nat.zero_le 2) h hts
  · intro n text ht
    exact isDecimal_of_lexical (ht _ List.mem_cons_self)
  · intro n name ht
    exact isName_of_lexical (ht _ List.mem_cons_self)
  · intro n l r ts e ih ht
    exact ih fun t hm => ht t (List.mem_cons_of_mem _ (List.mem_append_left _ hm))
  · intro n k ts e ih
    exact ih
  · intro n op text ts us left right ihl ihr ht
    refine ⟨ihl fun t hm => ht t (List.mem_append_left _ hm), ihr fun t hm => ht t ?_⟩
    exact List.mem_append_right _ (List.mem_cons_of_mem _ hm)

theorem depth_le_of_statement (h : Statement n ts x) : x.depth ≤ n := by
  cases h with
  | declare => exact Nat.zero_le n
  | define _ _ _ _ h => exact depth_le h
  | assign _ _ _ h => exact depth_le h
  | expression _ h => exact depth_le h

theorem depth_le_of_program (h : Program n ts xs) : ∀ x ∈ xs, x.depth ≤ n := by
  induction h with
  | nil => exact fun x hx => absurd hx List.not_mem_nil
  | cons hx _ ih => exact List.forall_mem_cons.2 ⟨depth_le_of_statement hx, ih⟩

theorem parseProgram_tooDeep {c : Cursor} (hs : c.rest = xs.flatMap Stmt.tokens) (h : ¬ ∀ x ∈ xs, x.depth ≤ maxNesting) :
    ∃ e, (parseProgram c).result = .error e ∧ e.reason = .nestingTooDeep := by
  obtain ⟨n, hn⟩ : ∃ n, ∀ x ∈ xs, x.depth ≤ n :=
    ⟨(0 :: xs.map Stmt.depth).max nofun, fun x hx => List.le_max_of_mem (List.mem_cons_of_mem 0 (List.mem_map_of_mem hx))⟩
  have hprogram : Program n c.rest xs := hs ▸ program_tokens hn
  refine (parseProgram_limited hprogram).2 fun ho => h ?_
  exact depth_le_of_program ((program_limited hprogram).ok _ ho)

theorem wellNamed_of_statement (h : Statement n ts x) (hts : ∀ t ∈ ts, t.Lexical) : x.WellNamed := by
  cases h with
  | declare int name semicolon => exact ⟨isName_of_lexical (hts _ (by simp)), nofun⟩
  | define int name equals semicolon h =>
      refine ⟨isName_of_lexical (hts _ (by simp)), fun e he => ?_⟩
      obtain rfl := Option.some.inj he
      exact wellNamed_of_additive h fun t ht => hts t (by simp [ht])
  | assign name equals semicolon h =>
      refine ⟨isName_of_lexical (hts _ (by simp)), ?_⟩
      exact wellNamed_of_additive h fun t ht => hts t (by simp [ht])
  | expression semicolon h => exact wellNamed_of_additive h fun t ht => hts t (by simp [ht])

theorem wellNamed_of_program (h : Program n ts xs) (hts : ∀ t ∈ ts, t.Lexical) : ∀ x ∈ xs, x.WellNamed := by
  induction h with
  | nil => exact fun x hx => absurd hx List.not_mem_nil
  | cons hx _ ih =>
      refine List.forall_mem_cons.2 ⟨?_, ?_⟩
      · exact wellNamed_of_statement hx fun t ht => hts t (List.mem_append_left _ ht)
      · exact ih fun t ht => hts t (List.mem_append_right _ ht)

end Grammar

end IntScript
