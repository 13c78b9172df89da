import IntScript.Proofs.Grammar.Context
import IntScript.Proofs.Grammar.Program
import IntScript.Proofs.Text.Nesting

namespace IntScript

def Token.mark (t : Token) : Char :=
  match t.kind with
  | .leftParen => '('
  | .rightParen => ')'
  | _ => ' '

namespace Grammar

def OpensAtMost (n : Nat) (ts : List Token) : Prop :=
  ∀ p, p <+: ts → p.countP (·.kind == .leftParen) ≤ p.countP (·.kind == .rightParen) + n

instance (n : Nat) (ts : List Token) : Decidable (OpensAtMost n ts) :=
  decidable_of_iff (∀ p ∈ ts.inits, p.countP (·.kind == .leftParen) ≤ p.countP (·.kind == .rightParen) + n)
    (by simp only [OpensAtMost, List.mem_inits])

def marks (ts : List Token) : List Char := ts.map Token.mark

variable {n k : Nat} {ts us : List Token} {e : Expr} {x : Stmt} {xs : List Stmt}

@[simp] theorem marks_append (ts us : List Token) : marks (ts ++ us) = marks ts ++ marks us := List.map_append

@[simp] theorem marks_cons (t : Token) (ts : List Token) : marks (t :: ts) = t.mark :: marks ts := rfl

@[simp] theorem marks_nil : marks [] = [] := rfl

theorem count_marks_left (ts : List Token) : (marks ts).count '(' = ts.countP (·.kind == .leftParen) := by
  rw [marks, List.count_eq_countP, List.countP_map]
  congr 1
  funext t
  cases h : t.kind <;> simp [Token.mark, h]

theorem count_marks_right (ts : List Token) : (marks ts).count ')' = ts.countP (·.kind == .rightParen) := by
  rw [marks, List.count_eq_countP, List.countP_map]
  congr 1
  funext t
  cases h : t.kind <;> simp [Token.mark, h]

theorem opensAtMost_iff_marks : OpensAtMost n ts ↔ Text.OpensAtMost n (marks ts) := by
  constructor
  · intro h p hp
    obtain ⟨q, hq, rfl⟩ := List.prefix_map_iff.1 hp
    exact (count_marks_left q).trans_le ((h q hq).trans_eq (congrArg (· + n) (count_marks_right q).symm))
  · intro h p hp
    rw [← count_marks_left, ← count_marks_right]
    exact h _ (hp.map Token.mark)

theorem opensAtMost_append_iff (h : Text.Balanced (marks ts)) :
    OpensAtMost n (ts ++ us) ↔ OpensAtMost n ts ∧ OpensAtMost n us := by
  simp only [opensAtMost_iff_marks, marks_append]
  exact Text.opensAtMost_append h _

theorem opensAtMost_of_plain (h : Text.Plain (marks ts)) (n : Nat) : OpensAtMost n ts :=
  opensAtMost_iff_marks.2 (h.opensAtMost n)

theorem plain_marks (h : ∀ t ∈ ts, t.kind ≠ .leftParen ∧ t.kind ≠ .rightParen) : Text.Plain (marks ts) := by
  constructor <;> intro hm <;> obtain ⟨t, ht, hc⟩ := List.mem_map.1 hm
  · cases hk : t.kind <;> simp [Token.mark, hk] at hc
    exact (h t ht).1 hk
  · cases hk : t.kind <;> simp [Token.mark, hk] at hc
    exact (h t ht).2 hk

theorem plain_operator (op : Operator) (text : String) : Text.Plain (marks [⟨op.kind, text⟩]) := by
  cases op <;> exact plain_marks (by simp [Operator.kind])

def TooDeep (fault : Fault) (ts : List Token) : Prop :=
  ∃ us l vs, ts = us ++ ⟨.leftParen, l⟩ :: vs ∧ fault us (some ⟨.leftParen, l⟩) .nestingTooDeep

theorem TooDeep.append {fault : Fault} (h : TooDeep fault ts) (us : List Token) : TooDeep fault (ts ++ us) := by
  obtain ⟨as, l, bs, rfl, hf⟩ := h
  exact ⟨as, l, bs ++ us, by simp, hf⟩

theorem TooDeep.mono {fault fault' : Fault} (h : TooDeep fault ts)
    (hf : ∀ us next reason, fault us next reason → fault' us next reason) : TooDeep fault' ts := by
  obtain ⟨us, l, vs, rfl, h⟩ := h
  exact ⟨us, l, vs, rfl, hf _ _ _ h⟩

theorem TooDeep.prepend {fault fault' : Fault} (h : TooDeep fault us) (ts : List Token)
    (hf : ∀ us next reason, fault us next reason → fault' (ts ++ us) next reason) : TooDeep fault' (ts ++ us) := by
  obtain ⟨as, l, bs, rfl, h⟩ := h
  exact ⟨ts ++ as, l, bs, (List.append_assoc _ _ _).symm, hf _ _ _ h⟩

/-- The tokens can be read within a limit exactly as far as they keep to it. -/
structure Limited (reads : Nat → Prop) (fault : Nat → Fault) (ts : List Token) : Prop where
  balanced : Text.Balanced (marks ts)
  ok (m : Nat) (h : OpensAtMost m ts) : reads m
  tooDeep (m : Nat) (h : ¬ OpensAtMost m ts) : TooDeep (fault m) ts

theorem limited_of_plain {reads : Nat → Prop} {fault : Nat → Fault} (hts : Text.Plain (marks ts))
    (h : ∀ m, reads m) : Limited reads fault ts where
  balanced := hts.balanced
  ok m _ := h m
  tooDeep m ho := absurd (opensAtMost_of_plain hts m) ho

theorem limited_group (l r : String) (h : Limited (Level · 0 ts e) (LevelFault · 0) ts) :
    Limited (Level · 2 (⟨.leftParen, l⟩ :: (ts ++ [⟨.rightParen, r⟩])) e) (LevelFault · 2)
      (⟨.leftParen, l⟩ :: (ts ++ [⟨.rightParen, r⟩])) := by
  have hmarks : marks (⟨.leftParen, l⟩ :: (ts ++ [⟨.rightParen, r⟩])) = '(' :: (marks ts ++ [')']) := by simp [Token.mark]
  have hsucc (m : Nat) : OpensAtMost (m + 1) (⟨.leftParen, l⟩ :: (ts ++ [⟨.rightParen, r⟩])) ↔ OpensAtMost m ts := by
    rw [opensAtMost_iff_marks, opensAtMost_iff_marks, hmarks]
    exact Text.opensAtMost_group m _
  refine ⟨hmarks ▸ h.balanced.group, fun m ho => ?_, fun m ho => ?_⟩
  · cases m with
    | zero =>
        rw [opensAtMost_iff_marks, hmarks] at ho
        exact absurd ho (Text.not_opensAtMost_zero _)
    | succ m => exact .group l r (h.ok m ((hsucc m).1 ho))
  · cases m with
    | zero => exact ⟨[], l, _, rfl, .tooDeep l rfl⟩
    | succ m =>
        have hinside := (h.tooDeep m (mt (hsucc m).2 ho)).append [⟨.rightParen, r⟩]
        exact hinside.prepend [⟨.leftParen, l⟩] fun us next reason hf => .inside l (Nat.succ_ne_zero m) hf

theorem limited_lower (h : Limited (Level · (k + 1) ts e) (LevelFault · (k + 1)) ts) :
    Limited (Level · k ts e) (LevelFault · k) ts where
  balanced := h.balanced
  ok m ho := level_anti (Nat.le_succ k) (h.ok m ho)
  tooDeep m ho := (h.tooDeep m ho).mono fun _ _ _ => levelFault_anti (Nat.le_succ k)

theorem limited_binary {left right : Expr} (op : Operator) (text : String)
    (hl : Limited (Level · op.rank ts left) (LevelFault · op.rank) ts)
    (hr : Limited (Level · (op.rank + 1) us right) (LevelFault · (op.rank + 1)) us) :
    Limited (Level · op.rank (ts ++ ⟨op.kind, text⟩ :: us) (.binary op left right)) (LevelFault · op.rank)
      (ts ++ ⟨op.kind, text⟩ :: us) := by
  have hop := plain_operator op text
  have hboth (m : Nat) : OpensAtMost m (ts ++ ⟨op.kind, text⟩ :: us) ↔ OpensAtMost m ts ∧ OpensAtMost m us := by
    rw [opensAtMost_append_iff hl.balanced, ← List.singleton_append, opensAtMost_append_iff hop.balanced]
    exact and_congr_right fun _ => and_iff_right (opensAtMost_of_plain hop m)
  have hbalanced : Text.Balanced (marks ts ++ (marks [⟨op.kind, text⟩] ++ marks us)) :=
    hl.balanced.append (hop.balanced.append hr.balanced)
  refine ⟨by simpa using hbalanced, fun m ho => ?_, fun m ho => ?_⟩
  · obtain ⟨hol, hor⟩ := (hboth m).1 ho
    exact level_binary op text (hl.ok m hol) (hr.ok m hor)
  · -- The first parenthesis that is too many counts, so that the left operand goes before the right one.
    by_cases hol : OpensAtMost m ts
    · have hor : ¬ OpensAtMost m us := fun hor => ho ((hboth m).2 ⟨hol, hor⟩)
      rw [List.append_cons]
      refine (hr.tooDeep m hor).prepend _ fun us next reason hf => ?_
      rw [← List.append_cons]
      exact levelFault_right op text (hl.ok m hol) hf
    · exact (hl.tooDeep m hol).append _

theorem level_limited (hk : k ≤ 2) (h : Level n k ts e) : Limited (Level · k ts e) (LevelFault · k) ts := by
  refine level_induction (motive := fun _ k ts e => Limited (Level · k ts e) (LevelFault · k) ts) ?_ ?_ ?_ ?_ ?_ hk h
  · intro n text
    exact limited_of_plain (plain_marks (by simp)) fun m => .literal text
  · intro n name
    exact limited_of_plain (plain_marks (by simp)) fun m => .identifier name
  · intro n l r ts e ih
    exact limited_group l r ih
  · intro n k ts e ih
    exact limited_lower ih
  · intro n op text ts us left right ihl ihr
    exact limited_binary op text ihl ihr

section

variable {reads reads' : Nat → Prop} {fault fault' : Nat → Fault}

/-- What stands around an expression in a statement has no parentheses. -/
theorem Limited.between (h : Limited reads fault ts) (before after : List Token) (hb : Text.Plain (marks before))
    (ha : Text.Plain (marks after)) (hreads : ∀ m, reads m → reads' m)
    (hfault : ∀ m us next reason, fault m us next reason → fault' m (before ++ us) next reason) :
    Limited reads' fault' (before ++ (ts ++ after)) := by
  have hmarks : marks (before ++ (ts ++ after)) = marks before ++ (marks ts ++ marks after) := by simp
  have hinner (m : Nat) : OpensAtMost m (before ++ (ts ++ after)) ↔ OpensAtMost m ts := by
    rw [opensAtMost_iff_marks, opensAtMost_iff_marks, hmarks]
    exact Text.opensAtMost_between hb ha h.balanced
  refine ⟨hmarks ▸ hb.balanced.append (h.balanced.append ha.balanced), fun m ho => ?_, fun m ho => ?_⟩
  · exact hreads m (h.ok m ((hinner m).1 ho))
  · exact ((h.tooDeep m (mt (hinner m).2 ho)).append after).prepend before (hfault m)

end

theorem Context.plain {front back : List Token} (hx : Context front back e x) :
    Text.Plain (marks front) ∧ Text.Plain (marks back) := by
  cases hx <;> exact ⟨plain_marks (by simp), plain_marks (by simp)⟩

theorem statement_limited (h : Statement n ts x) : Limited (Statement · ts x) StatementFault ts := by
  refine statement_induction (motive := fun ts x => Limited (Statement · ts x) StatementFault ts) ?_ ?_ h
  · exact fun int name semicolon => limited_of_plain (plain_marks (by simp)) fun m => .declare int name semicolon
  · intro front ts back e x hx h
    obtain ⟨hfront, hback⟩ := hx.plain
    exact (level_limited (Nat.zero_le 2) h).between front back hfront hback (fun _ => hx.statement) fun _ _ _ _ => hx.fault

def ProgramFault (n : Nat) : Fault := fun ts next reason =>
  ∃ done xs us, ts = done ++ us ∧ Program n done xs ∧ StatementFault n us next reason

theorem program_limited (h : Program n ts xs) : Limited (Program · ts xs) ProgramFault ts := by
  induction h with
  | nil => exact limited_of_plain ⟨nofun, nofun⟩ fun m => .nil
  | @cons ts us x xs hx _ ih =>
      have hx := statement_limited hx
      refine ⟨by simpa using hx.balanced.append ih.balanced, fun m ho => ?_, fun m ho => ?_⟩
      · obtain ⟨hot, hou⟩ := (opensAtMost_append_iff hx.balanced).1 ho
        exact .cons (hx.ok m hot) (ih.ok m hou)
      · by_cases hot : OpensAtMost m ts
        · have hou : ¬ OpensAtMost m us := fun hou => ho ((opensAtMost_append_iff hx.balanced).2 ⟨hot, hou⟩)
          refine (ih.tooDeep m hou).prepend ts fun vs next reason hf => ?_
          obtain ⟨done, ys, vs, rfl, hd, hf⟩ := hf
          exact ⟨ts ++ done, x :: ys, vs, (List.append_assoc _ _ _).symm, .cons (hx.ok m hot) hd, hf⟩
        · exact ((hx.tooDeep m hot).append us).mono fun vs _ _ hf => ⟨[], [], vs, rfl, .nil, hf⟩

/-- Of what can be read within some limit, parsing reads what keeps to its own limit. -/
theorem parseProgram_limited {c : Cursor} (h : Program n c.rest xs) :
    (OpensAtMost maxNesting c.rest → (parseProgram c).result = .ok (Arena.empty.graftProgram [] xs)) ∧
    (¬ OpensAtMost maxNesting c.rest → ∃ e, (parseProgram c).result = .error e ∧ e.reason = .nestingTooDeep) := by
  have hl := program_limited h
  refine ⟨fun ho => parseProgram_ok (hl.ok _ ho), fun ho => ?_⟩
  obtain ⟨us, l, vs, hs, done, ys, ts, rfl, hd, hf⟩ := hl.tooDeep _ ho
  rw [List.append_assoc] at hs
  exact ⟨_, parseProgram_fault hd hs hf (by simp), rfl⟩

end Grammar

end IntScript
