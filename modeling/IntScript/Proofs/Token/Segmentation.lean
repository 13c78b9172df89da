import IntScript.Proofs.Token.Lexical
import IntScript.Proofs.Token.Lexeme

namespace IntScript

namespace Token

def Ignored (c : Char) : Prop := c.isAlphanum = false ∧ c ∉ "<>+-*/;()=".toList

instance (c : Char) : Decidable (Ignored c) :=
  inferInstanceAs (Decidable (c.isAlphanum = false ∧ c ∉ "<>+-*/;()=".toList))

/-- The token stands at the beginning, and no token that is longer does. -/
structure Longest (t : Token) (cs rest : List Char) : Prop where
  text : t.text.toList ++ rest = cs
  lexical : t.Lexical
  longest {u : Token} (hu : u.Lexical) (h : u.text.toList <+: cs) : u.text.toList.length ≤ t.text.toList.length

/-- The longest tokens from left to right, with what is ignored between them. -/
inductive Segmentation : List Char → List Token → Prop
  | nil : Segmentation [] []
  | ignored {c cs ts} (hc : Ignored c) (h : Segmentation cs ts) : Segmentation (c :: cs) ts
  | token {t cs rest ts} (ht : t.Longest cs rest) (h : Segmentation rest ts) : Segmentation cs (t :: ts)

variable {t u : Token} {cs rest : List Char} {c : Char}

theorem longest_of_not_fuses (ht : t.Lexical) (hc : ∀ c ∈ rest.head?, ¬ t.Fuses c) :
    t.Longest (t.text.toList ++ rest) rest where
  text := rfl
  lexical := ht
  longest {u} hu h := by
    by_contra hlt
    have hlt : t.text.toList.length < u.text.toList.length := Nat.lt_of_not_le hlt
    cases rest with
    | nil =>
        rw [List.append_nil] at h
        exact Nat.not_lt_of_le h.length_le hlt
    | cons c rest =>
        refine hc c rfl (ht.fuses hu ?_)
        refine List.prefix_of_prefix_length_le ⟨rest, ?_⟩ h ?_
        · simp
        · rwa [List.length_append]

theorem Lexical.not_ignored (ht : t.Lexical) (h : c ∈ t.text.toList) : ¬ Ignored c := by
  rintro ⟨ha, hs⟩
  rcases ht.cases with hw | hd | hsym
  · simp [alphanum_of_isWord hw c h] at ha
  · simp [alphanum_of_isDecimal hd c h] at ha
  · have hsymbols : ∀ t ∈ symbols, t.text.toList ⊆ "<>+-*/;()=".toList := by decide
    exact hs (hsymbols t hsym h)

theorem Longest.unique {rest' : List Char} (ht : t.Longest cs rest) (hu : u.Longest cs rest') :
    t = u ∧ rest = rest' := by
  have hl : t.text.toList.length = u.text.toList.length :=
    Nat.le_antisymm (hu.longest ht.lexical ⟨rest, ht.text⟩) (ht.longest hu.lexical ⟨rest', hu.text⟩)
  obtain ⟨htext, hrest⟩ := List.append_inj (ht.text.trans hu.text.symm) hl
  exact ⟨ht.lexical.unique hu.lexical (String.ext htext), hrest⟩

theorem Longest.not_ignored (ht : t.Longest (c :: cs) rest) : ¬ Ignored c := by
  obtain ⟨a, as, ha⟩ := List.exists_cons_of_ne_nil ht.lexical.ne_nil
  have h := ht.text
  rw [ha, List.cons_append, List.cons.injEq] at h
  exact h.1 ▸ ht.lexical.not_ignored (ha ▸ List.mem_cons_self)

theorem not_longest_nil : ¬ t.Longest [] rest := fun h => by
  have ht := h.text
  simp [h.lexical.ne_nil] at ht

theorem Segmentation.unique {ts us : List Token} (h : Segmentation cs ts) (h' : Segmentation cs us) : ts = us := by
  induction h generalizing us with
  | nil =>
      cases h' with
      | nil => rfl
      | token hu _ => exact absurd hu not_longest_nil
  | ignored hc _ ih =>
      cases h' with
      | ignored _ h' => exact ih h'
      | token hu _ => exact absurd hc hu.not_ignored
  | token ht _ ih =>
      cases h' with
      | nil => exact absurd ht not_longest_nil
      | ignored hc _ => exact absurd hc ht.not_ignored
      | token hu h' =>
          obtain ⟨rfl, rfl⟩ := ht.unique hu
          rw [ih h']

end Token

namespace Lexeme

open Token Number

def Formed : Lexeme → Prop
  | .word text => IsWord text
  | .number text => IsDecimal text
  | .symbol kind text => ⟨kind, text⟩ ∈ symbols

def munch (l : Lexeme) : List Char → Lexeme × List Char
  | [] => (l, [])
  | c :: cs => if l.accepts c then (l.extend c).munch cs else (l, c :: cs)

variable {l : Lexeme} {c : Char} {cs : List Char}

theorem lexical_ofWord {text : String} (h : IsWord text) : (Token.ofWord text).Lexical := by
  rw [Token.ofWord, keyword?_eq]
  split_ifs with hi hf he
  · exact .keyword (by simp [keywords, hi])
  · exact .keyword (by simp [keywords, hf])
  · exact .keyword (by simp [keywords, he])
  · refine .identifier h fun t ht => ?_
    simp only [keywords, List.mem_cons, List.not_mem_nil, or_false] at ht
    rcases ht with rfl | rfl | rfl
    · exact Ne.symm hi
    · exact Ne.symm hf
    · exact Ne.symm he

theorem lexical_token (h : l.Formed) : l.token.Lexical := by
  cases l with
  | word text => exact lexical_ofWord h
  | number text => exact .literal h
  | symbol kind text => exact .symbol h

theorem accepts_iff_fuses (h : l.Formed) : l.accepts c = true ↔ l.token.Fuses c := by
  cases l with
  | word text =>
      have hw : IsWord text := h
      have hgt : ¬ (text = ">" ∨ text = "<") := by
        rintro (rfl | rfl)
        · exact not_isWord_of_symbol (t := ⟨.gt, ">"⟩) (by decide) hw
        · exact not_isWord_of_symbol (t := ⟨.lt, "<"⟩) (by decide) hw
      simp [accepts, token, Token.ofWord, Fuses, hw, hw.not_isDecimal, hgt]
  | number text =>
      have hd : IsDecimal text := h
      have hw : ¬ IsWord text := fun hw => hw.not_isDecimal hd
      have hgt : ¬ (text = ">" ∨ text = "<") := by
        rintro (rfl | rfl)
        · exact not_isDecimal_of_symbol (t := ⟨.gt, ">"⟩) (by decide) hd
        · exact not_isDecimal_of_symbol (t := ⟨.lt, "<"⟩) (by decide) hd
      simp [accepts, token, Fuses, hw, hd, hgt]
  | symbol kind text =>
      have hs : (⟨kind, text⟩ : Token) ∈ symbols := h
      have hkind : ∀ t ∈ symbols, t.kind.withEquals?.isSome = true ↔ t.text = ">" ∨ t.text = "<" := by decide
      have hk := hkind _ hs
      have hw : ¬ IsWord text := not_isWord_of_symbol hs
      have hd : ¬ IsDecimal text := not_isDecimal_of_symbol hs
      simp only [accepts, token, Fuses, hw, hd, Bool.and_eq_true, beq_iff_eq, false_and, false_or]
      rw [hk, and_comm]

theorem text_extend (l : Lexeme) (c : Char) : (l.extend c).token.text.toList = l.token.text.toList ++ [c] := by
  cases l <;> simp [extend, token, Token.ofWord]

theorem formed_extend (h : l.Formed) (hc : l.accepts c = true) : (l.extend c).Formed := by
  cases l with
  | word text =>
      obtain ⟨a, as, ha, haa, has⟩ := h
      refine ⟨a, as ++ [c], by simp [ha], haa, fun d hd => ?_⟩
      rcases List.mem_append.1 hd with hd | hd
      · exact has d hd
      · exact List.mem_singleton.1 hd ▸ hc
  | number text =>
      refine ⟨by simp, fun d hd => ?_⟩
      rw [String.toList_push, List.mem_append, List.mem_singleton] at hd
      rcases hd with hd | rfl
      · exact h.2 d hd
      · exact hc
  | symbol kind text =>
      have hs : (⟨kind, text⟩ : Token) ∈ symbols := h
      have hpairs : ∀ t ∈ symbols, t.kind.withEquals?.isSome = true →
          (⟨t.kind.withEquals?.getD t.kind, t.text.push '='⟩ : Token) ∈ symbols := by decide
      simp only [accepts, Bool.and_eq_true, beq_iff_eq] at hc
      obtain ⟨rfl, hk⟩ := hc
      exact hpairs _ hs hk

theorem ofSymbol?_eq_none_iff : Token.Kind.ofSymbol? c = none ↔ c ∉ "<>+-*/;()=".toList := by
  unfold Token.Kind.ofSymbol?
  split <;> simp_all

theorem symbol_of_ofSymbol? {kind : Token.Kind} (h : Token.Kind.ofSymbol? c = some kind) :
    (⟨kind, String.singleton c⟩ : Token) ∈ symbols := by
  unfold Token.Kind.ofSymbol? at h
  split at h <;> simp_all [symbols]

theorem start?_eq_none_iff : start? c = none ↔ Ignored c := by
  rw [start?, Ignored, ← ofSymbol?_eq_none_iff]
  split_ifs with ha hd
  · simp [Char.isAlphanum, ha]
  · simp [Char.isAlphanum, hd]
  · simp [Char.isAlphanum, ha, hd]

theorem formed_start? (h : start? c = some l) : l.Formed ∧ l.token.text.toList = [c] := by
  rw [start?] at h
  split_ifs at h with ha hd
  · obtain rfl := Option.some.inj h
    exact ⟨⟨c, [], by simp, ha, by simp⟩, by simp [token, Token.ofWord]⟩
  · obtain rfl := Option.some.inj h
    exact ⟨⟨by simp, by simpa using hd⟩, by simp [token]⟩
  · obtain ⟨kind, hk, rfl⟩ := Option.map_eq_some_iff.1 h
    exact ⟨symbol_of_ofSymbol? hk, by simp [token]⟩

theorem longest_munch (h : l.Formed) (cs : List Char) :
    (l.munch cs).1.token.Longest (l.token.text.toList ++ cs) (l.munch cs).2 := by
  induction cs generalizing l with
  | nil => exact longest_of_not_fuses (lexical_token h) nofun
  | cons c cs ih =>
      rw [munch]
      split_ifs with hc
      · have hl := ih (formed_extend h hc)
        rwa [text_extend, List.append_assoc] at hl
      · refine longest_of_not_fuses (lexical_token h) ?_
        rintro d hd
        obtain rfl := Option.some.inj hd
        rwa [← accepts_iff_fuses h]

end Lexeme

namespace Lexer

open Token

def tokens (cs : List Char) : List Token := (start.run cs).close.toList

theorem toList_tokenize (text : String) : (tokenize text).toList = tokens text.toList :=
  congrArg Array.toList (tokenize_eq text)

theorem close_run_append (before closed : Array Token) (l : Option Lexeme) (cs : List Char) :
    (run ⟨before ++ closed, l⟩ cs).close = before ++ (run ⟨closed, l⟩ cs).close := by
  induction cs generalizing closed l with
  | nil => cases l <;> simp [run, close]
  | cons c cs ih =>
      cases l with
      | none => exact ih closed _
      | some l =>
          change (run (step ⟨before ++ closed, some l⟩ c) cs).close = before ++ (run (step ⟨closed, some l⟩ c) cs).close
          simp only [step]
          split_ifs
          · exact ih closed _
          · rw [← Array.append_push]
            exact ih (closed.push l.token) _

theorem close_run_some (closed : Array Token) (l : Lexeme) (cs : List Char) :
    (run ⟨closed, some l⟩ cs).close = (run ⟨closed.push (l.munch cs).1.token, none⟩ (l.munch cs).2).close := by
  induction cs generalizing l with
  | nil => rfl
  | cons c cs ih =>
      change (run (step ⟨closed, some l⟩ c) cs).close = _
      rw [step, Lexeme.munch]
      split_ifs
      · exact ih _
      · rfl

theorem tokens_ignored {c : Char} (h : Ignored c) (cs : List Char) : tokens (c :: cs) = tokens cs := by
  change (run (step start c) cs).close.toList = _
  rw [start, step, Lexeme.start?_eq_none_iff.2 h]
  rfl

theorem tokens_start {c : Char} {l : Lexeme} (h : Lexeme.start? c = some l) (cs : List Char) :
    tokens (c :: cs) = (l.munch cs).1.token :: tokens (l.munch cs).2 := by
  change (run (step start c) cs).close.toList = _
  have hpush : (#[] : Array Token).push (l.munch cs).1.token = #[(l.munch cs).1.token] ++ #[] := rfl
  rw [start, step, h, close_run_some, hpush, close_run_append, Array.toList_append]
  rfl

theorem segmentation_tokens (cs : List Char) : Segmentation cs (tokens cs) := by
  induction hn : cs.length using Nat.strongRecOn generalizing cs with
  | _ n ih =>
      cases cs with
      | nil => exact .nil
      | cons c cs =>
          cases hs : Lexeme.start? c with
          | none =>
              have hc := Lexeme.start?_eq_none_iff.1 hs
              rw [tokens_ignored hc]
              exact .ignored hc (ih cs.length (by simp [← hn]) cs rfl)
          | some l =>
              obtain ⟨hf, ht⟩ := Lexeme.formed_start? hs
              have hl := Lexeme.longest_munch hf cs
              rw [ht, List.singleton_append] at hl
              rw [tokens_start hs]
              refine .token hl (ih _ ?_ _ rfl)
              have hlen := congrArg List.length hl.text
              have hpos := List.length_pos_of_ne_nil hl.lexical.ne_nil
              rw [List.length_append] at hlen
              omega

end Lexer

namespace Token

variable {t : Token} {text : String}

theorem Segmentation.lexical {cs : List Char} {ts : List Token} (h : Segmentation cs ts) : ∀ t ∈ ts, t.Lexical := by
  induction h with
  | nil => exact fun t ht => absurd ht List.not_mem_nil
  | ignored _ _ ih => exact ih
  | token hl _ ih =>
      intro t ht
      rcases List.mem_cons.1 ht with rfl | ht
      · exact hl.lexical
      · exact ih t ht

theorem segmentation_tokenize (text : String) : Segmentation text.toList (tokenize text).toList := by
  rw [Lexer.toList_tokenize]
  exact Lexer.segmentation_tokens text.toList

theorem lexical_of_mem_tokenize (h : t ∈ tokenize text) : t.Lexical :=
  (segmentation_tokenize text).lexical t (Array.mem_toList_iff.2 h)

theorem kind_eq_of_keyword (ht : t.Lexical) {u : Token} (hu : u ∈ keywords) : t.kind = u.kind ↔ t.text = u.text := by
  constructor
  · intro hk
    have hkeywords : ∀ t ∈ keywords, ∀ u ∈ keywords, t.kind = u.kind → t.text = u.text := by decide
    have hsymbols : ∀ t ∈ symbols, ∀ u ∈ keywords, t.kind ≠ u.kind := by decide
    have hothers : ∀ u ∈ keywords, u.kind ≠ .identifier ∧ u.kind ≠ .intLiteral := by decide
    cases ht with
    | keyword ht => exact hkeywords _ ht u hu hk
    | symbol ht => exact absurd hk (hsymbols _ ht u hu)
    | identifier => exact absurd hk.symm (hothers u hu).1
    | literal => exact absurd hk.symm (hothers u hu).2
  · exact fun htext => congrArg kind (ht.unique (.keyword hu) htext)

theorem kind_eq_identifier_iff (ht : t.Lexical) :
    t.kind = .identifier ↔ IsWord t.text ∧ t.text ≠ "int" ∧ t.text ≠ "if" ∧ t.text ≠ "else" := by
  constructor
  · intro hk
    cases ht with
    | keyword ht => exact absurd hk ((by decide : ∀ t ∈ keywords, t.kind ≠ .identifier) _ ht)
    | symbol ht => exact absurd hk ((by decide : ∀ t ∈ symbols, t.kind ≠ .identifier) _ ht)
    | identifier hw hne =>
        exact ⟨hw, (hne ⟨.keywordInt, "int"⟩ (by decide)).symm, (hne ⟨.keywordIf, "if"⟩ (by decide)).symm,
          (hne ⟨.keywordElse, "else"⟩ (by decide)).symm⟩
    | literal => exact nomatch hk
  · rintro ⟨hw, hi, hf, he⟩
    refine congrArg kind (ht.unique (u := ⟨.identifier, t.text⟩) (.identifier hw fun u hu => ?_) rfl)
    simp only [keywords, List.mem_cons, List.not_mem_nil, or_false] at hu
    rcases hu with rfl | rfl | rfl
    · exact hi.symm
    · exact hf.symm
    · exact he.symm

theorem kind_reserved (ht : t.Lexical) : t.kind ≠ .eq ∧ t.kind ≠ .stringLiteral := by
  cases ht with
  | keyword ht => exact (by decide : ∀ t ∈ keywords, t.kind ≠ .eq ∧ t.kind ≠ .stringLiteral) _ ht
  | symbol ht => exact (by decide : ∀ t ∈ symbols, t.kind ≠ .eq ∧ t.kind ≠ .stringLiteral) _ ht
  | identifier => exact ⟨nofun, nofun⟩
  | literal => exact ⟨nofun, nofun⟩

/-- A text has one segmentation, which its tokens are. -/
theorem tokenize_longest (text : String) :
    (∀ ts, Segmentation text.toList ts ↔ ts = (tokenize text).toList) ∧
    ∀ t ∈ tokenize text, t.text ≠ "" ∧
      (t.kind = .keywordInt ↔ t.text = "int") ∧ (t.kind = .keywordIf ↔ t.text = "if") ∧
      (t.kind = .keywordElse ↔ t.text = "else") ∧
      (t.kind = .identifier ↔ IsWord t.text ∧ t.text ≠ "int" ∧ t.text ≠ "if" ∧ t.text ≠ "else") ∧
      (∀ kind, Lexical ⟨kind, t.text⟩ → kind = t.kind) ∧ t.kind ≠ .eq ∧ t.kind ≠ .stringLiteral := by
  have hs : Segmentation text.toList (tokenize text).toList := segmentation_tokenize text
  refine ⟨fun ts => ⟨fun h => h.unique hs, fun h => h ▸ hs⟩, fun t ht => ?_⟩
  have hl : t.Lexical := lexical_of_mem_tokenize ht
  refine ⟨?_, ?_, ?_, ?_, kind_eq_identifier_iff hl, ?_, kind_reserved hl⟩
  · exact fun he => hl.ne_nil (by simp [he])
  · exact kind_eq_of_keyword hl (u := ⟨.keywordInt, "int"⟩) (by decide)
  · exact kind_eq_of_keyword hl (u := ⟨.keywordIf, "if"⟩) (by decide)
  · exact kind_eq_of_keyword hl (u := ⟨.keywordElse, "else"⟩) (by decide)
  · exact fun kind hk => congrArg Token.kind (hk.unique hl rfl)

example : tokenize "intx>=int=<7" = #[⟨.identifier, "intx"⟩, ⟨.ge, ">="⟩, ⟨.keywordInt, "int"⟩, ⟨.assign, "="⟩,
    ⟨.lt, "<"⟩, ⟨.intLiteral, "7"⟩] := by decide

end Token

end IntScript
