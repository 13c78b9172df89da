import IntScript.Proofs.Number.Decimal
import IntScript.Token.Basic
import Mathlib.Data.List.Infix

namespace IntScript.Token

open Number

def keywords : List Token := [⟨.keywordInt, "int"⟩, ⟨.keywordIf, "if"⟩, ⟨.keywordElse, "else"⟩]

def symbols : List Token :=
  [⟨.ge, ">="⟩, ⟨.le, "<="⟩, ⟨.gt, ">"⟩, ⟨.lt, "<"⟩, ⟨.plus, "+"⟩, ⟨.minus, "-"⟩, ⟨.star, "*"⟩,
    ⟨.slash, "/"⟩, ⟨.semicolon, ";"⟩, ⟨.leftParen, "("⟩, ⟨.rightParen, ")"⟩, ⟨.assign, "="⟩]

def IsWord (text : String) : Prop :=
  ∃ c cs, text.toList = c :: cs ∧ c.isAlpha = true ∧ ∀ d ∈ cs, d.isAlphanum = true

/-- The tokens of the language, each a text with the kind that it stands for. -/
inductive Lexical : Token → Prop
  | keyword {t} (h : t ∈ keywords) : Lexical t
  | symbol {t} (h : t ∈ symbols) : Lexical t
  | identifier {text} (hw : IsWord text) (hk : ∀ t ∈ keywords, t.text ≠ text) :
      Lexical ⟨.identifier, text⟩
  | literal {text} (h : IsDecimal text) : Lexical ⟨.intLiteral, text⟩

/-- The token would go on with the character, if that came next. -/
def Fuses (t : Token) (c : Char) : Prop :=
  IsWord t.text ∧ c.isAlphanum = true ∨ IsDecimal t.text ∧ c.isDigit = true ∨
    (t.text = ">" ∨ t.text = "<") ∧ c = '='

variable {t u : Token} {text : String} {c : Char}

theorem isAlpha_iff : c.isAlpha = true ↔ 65 ≤ c.toNat ∧ c.toNat ≤ 90 ∨ 97 ≤ c.toNat ∧ c.toNat ≤ 122 := by
  change (decide (_ ∧ _) || (decide (_ ≤ _) && decide (_ ≤ _))) = true ↔ _
  rw [Bool.or_eq_true, Bool.and_eq_true, decide_eq_true_eq, decide_eq_true_eq, decide_eq_true_eq]
  rfl

theorem isDigit_iff : c.isDigit = true ↔ 48 ≤ c.toNat ∧ c.toNat ≤ 57 := by
  change (decide (_ ≤ _) && decide (_ ≤ _)) = true ↔ _
  rw [Bool.and_eq_true, decide_eq_true_eq, decide_eq_true_eq]
  rfl

theorem not_isDigit_of_isAlpha (h : c.isAlpha = true) : c.isDigit = false := by
  rw [isAlpha_iff] at h
  rw [← Bool.not_eq_true, isDigit_iff]
  omega

theorem isWord_cons {c : Char} {cs : List Char} (h : text.toList = c :: cs) :
    IsWord text ↔ c.isAlpha = true ∧ ∀ d ∈ cs, d.isAlphanum = true := by
  constructor
  · rintro ⟨d, ds, hd, hw⟩
    obtain ⟨rfl, rfl⟩ := List.cons.inj (h.symm.trans hd)
    exact hw
  · exact fun hw => ⟨c, cs, h, hw⟩

theorem isDecimal_cons {c : Char} {cs : List Char} (h : text.toList = c :: cs) :
    IsDecimal text ↔ c.isDigit = true ∧ ∀ d ∈ cs, d.isDigit = true := by
  simp [IsDecimal, h]

theorem isWord_of_keyword (h : t ∈ keywords) : IsWord t.text := by
  simp only [keywords, List.mem_cons, List.not_mem_nil, or_false] at h
  rcases h with rfl | rfl | rfl <;> exact ⟨_, _, rfl, by decide, List.all_eq_true.1 (by decide)⟩

theorem IsWord.not_isDecimal (h : IsWord text) : ¬ IsDecimal text := by
  obtain ⟨c, cs, hc, ha, -⟩ := h
  rw [isDecimal_cons hc, not_isDigit_of_isAlpha ha]
  simp

theorem alphanum_of_isWord {text : String} (h : IsWord text) : ∀ c ∈ text.toList, c.isAlphanum = true := by
  obtain ⟨c, cs, hc, ha, hcs⟩ := h
  rw [hc]
  refine List.forall_mem_cons.2 ⟨?_, hcs⟩
  simp [Char.isAlphanum, ha]

theorem alphanum_of_isDecimal {text : String} (h : IsDecimal text) : ∀ c ∈ text.toList, c.isAlphanum = true := by
  intro c hc
  simp [Char.isAlphanum, h.2 c hc]

/-- A symbol begins neither a word nor a number. -/
theorem head_of_symbol (h : t ∈ symbols) : ∃ c cs, t.text.toList = c :: cs ∧ c.isAlphanum = false := by
  simp only [symbols, List.mem_cons, List.not_mem_nil, or_false] at h
  rcases h with rfl | rfl | rfl | rfl | rfl | rfl | rfl | rfl | rfl | rfl | rfl | rfl <;>
    exact ⟨_, _, rfl, by decide⟩

theorem not_isWord_of_symbol (h : t ∈ symbols) : ¬ IsWord t.text := by
  obtain ⟨c, cs, hc, ha⟩ := head_of_symbol h
  rw [isWord_cons hc]
  simp_all [Char.isAlphanum]

theorem not_isDecimal_of_symbol (h : t ∈ symbols) : ¬ IsDecimal t.text := by
  obtain ⟨c, cs, hc, ha⟩ := head_of_symbol h
  rw [isDecimal_cons hc]
  simp_all [Char.isAlphanum]

namespace Lexical

theorem cases (h : t.Lexical) : IsWord t.text ∨ IsDecimal t.text ∨ t ∈ symbols := by
  cases h with
  | keyword h => exact .inl (isWord_of_keyword h)
  | symbol h => exact .inr (.inr h)
  | identifier hw => exact .inl hw
  | literal h => exact .inr (.inl h)

/-- The text of a token tells its kind. -/
theorem unique (ht : t.Lexical) (hu : u.Lexical) (h : t.text = u.text) : t = u := by
  have hkeywords : ∀ t ∈ keywords, ∀ u ∈ keywords, t.text = u.text → t = u := by decide
  have hsymbols : ∀ t ∈ symbols, ∀ u ∈ symbols, t.text = u.text → t = u := by decide
  cases ht with
  | keyword ht =>
      have hw := isWord_of_keyword ht
      cases hu with
      | keyword hu => exact hkeywords _ ht _ hu h
      | symbol hu => exact absurd (h ▸ hw) (not_isWord_of_symbol hu)
      | identifier _ hk => exact absurd h (hk _ ht)
      | literal hd => exact absurd hd (h ▸ hw).not_isDecimal
  | symbol ht =>
      have hw := not_isWord_of_symbol ht
      cases hu with
      | keyword hu => exact absurd (h ▸ isWord_of_keyword hu) hw
      | symbol hu => exact hsymbols _ ht _ hu h
      | identifier hu => exact absurd (h ▸ hu) hw
      | literal hd => exact absurd (h ▸ hd) (not_isDecimal_of_symbol ht)
  | @identifier text hw hk =>
      cases hu with
      | keyword hu => exact absurd h.symm (hk _ hu)
      | symbol hu => exact absurd (h ▸ hw) (not_isWord_of_symbol hu)
      | identifier => exact congrArg _ h
      | @literal text' hd =>
          obtain rfl : text = text' := h
          exact absurd hd hw.not_isDecimal
  | @literal text hd =>
      cases hu with
      | keyword hu => exact absurd hd (h ▸ isWord_of_keyword hu).not_isDecimal
      | symbol hu => exact absurd (h ▸ hd) (not_isDecimal_of_symbol hu)
      | @identifier text' hw =>
          obtain rfl : text = text' := h
          exact absurd hd hw.not_isDecimal
      | literal => exact congrArg _ h

theorem ne_nil (h : t.Lexical) : t.text.toList ≠ [] := by
  rcases h.cases with ⟨c, cs, hc, -⟩ | hd | hs
  · simp [hc]
  · exact hd.1
  · obtain ⟨c, cs, hc, -⟩ := head_of_symbol hs
    simp [hc]

/-- Where a token is the beginning of a longer one, it goes on with the next character. -/
theorem fuses (ht : t.Lexical) (hu : u.Lexical) (h : t.text.toList ++ [c] <+: u.text.toList) : t.Fuses c := by
  obtain ⟨a, as, ha⟩ := List.exists_cons_of_ne_nil ht.ne_nil
  obtain ⟨rest, h⟩ := h
  simp only [ha, List.cons_append, List.append_assoc] at h
  rcases hu.cases with hw | hd | hs
  · obtain ⟨haa, has⟩ := (isWord_cons h.symm).1 hw
    refine .inl ⟨(isWord_cons ha).2 ⟨haa, fun d hd => has d (by simp [hd])⟩, has c (by simp)⟩
  · obtain ⟨haa, has⟩ := (isDecimal_cons h.symm).1 hd
    exact .inr (.inl ⟨(isDecimal_cons ha).2 ⟨haa, fun d hd => has d (by simp [hd])⟩, has c (by simp)⟩)
  · have hpairs : ∀ u ∈ symbols, 1 < u.text.toList.length →
        u.text.toList = ['>', '='] ∨ u.text.toList = ['<', '='] := by decide
    have hu := hpairs u hs (by simp [← h])
    refine .inr (.inr ?_)
    cases as with
    | nil => rcases hu with hu | hu <;> simp_all [String.ext_iff]
    | cons d as => rcases hu with hu | hu <;> simp [hu] at h

end Lexical

end IntScript.Token
