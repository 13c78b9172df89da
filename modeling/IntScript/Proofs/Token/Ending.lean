import IntScript.Proofs.Token.Blank

namespace IntScript

namespace Token

structure Ends (t : Token) (text : String) : Prop where
  last : (tokenize text).toList.getLast? = some t
  reaches : t.text.toList <:+ text.toList

def wordKinds : List Kind := [.identifier, .keywordInt, .keywordIf, .keywordElse]

/-- The first text ends with a token that goes on with the beginning of the second one. -/
inductive Merges (a b : String) : Prop
  | word {t : Token} {c : Char} (ht : t.Ends a) (hk : t.kind ∈ wordKinds) (hb : b.toList.head? = some c)
      (hc : c.isAlphanum = true)
  | number {t : Token} {c : Char} (ht : t.Ends a) (hk : t.kind = .intLiteral) (hb : b.toList.head? = some c)
      (hc : c.isDigit = true)
  | comparison (ha : a.toList.getLast? = some '>' ∨ a.toList.getLast? = some '<') (hb : b.toList.head? = some '=')

end Token

open Token

/-- The signs of comparisons are all that an equals sign belongs to. -/
theorem Token.fuses_equals_iff {t : Token} (ht : t.Lexical) :
    t.Fuses '=' ↔ t.text.toList.getLast? = some '>' ∨ t.text.toList.getLast? = some '<' := by
  constructor
  · rintro (⟨-, ha⟩ | ⟨-, hd⟩ | ⟨hs | hs, -⟩)
    · exact absurd ha (by decide)
    · exact absurd hd (by decide)
    · exact .inl (by rw [hs]; decide)
    · exact .inr (by rw [hs]; decide)
  · intro h
    have hnot : ¬ ∀ c ∈ t.text.toList, c.isAlphanum = true := fun ha => by
      rcases h with h | h
      · exact absurd (ha '>' (List.mem_of_getLast? h)) (by decide)
      · exact absurd (ha '<' (List.mem_of_getLast? h)) (by decide)
    have hsigns : ∀ t ∈ symbols, t.text.toList.getLast? = some '>' ∨ t.text.toList.getLast? = some '<' →
        t.text = ">" ∨ t.text = "<" := by decide
    rcases ht.cases with hw | hd | hs
    · exact absurd (alphanum_of_isWord hw) hnot
    · exact absurd (alphanum_of_isDecimal hd) hnot
    · exact .inr (.inr ⟨hsigns t hs h, rfl⟩)

namespace Lexeme

variable {l : Lexeme} {c : Char} {cs : List Char}

theorem text_prefix_munch (l : Lexeme) (cs : List Char) : l.token.text.toList <+: (l.munch cs).1.token.text.toList := by
  induction cs generalizing l with
  | nil => exact List.prefix_rfl
  | cons c cs ih =>
      rw [munch]
      split_ifs
      · have hc := ih (l.extend c)
        rw [text_extend] at hc
        exact (List.prefix_append _ _).trans hc
      · exact List.prefix_rfl

theorem munch_ne (h : l.accepts c = true) (cs : List Char) : (l.munch (c :: cs)).1.token ≠ l.token := by
  intro he
  have hc := text_prefix_munch (l.extend c) cs
  rw [munch, if_pos h] at he
  rw [he, text_extend] at hc
  simpa using hc.length_le

/-- The kind of a token tells how it was read. -/
theorem kind_spec (h : l.Formed) : (l.token.kind ∈ wordKinds ↔ ∃ text, l = .word text) ∧
    (l.token.kind = .intLiteral ↔ ∃ text, l = .number text) := by
  cases l with
  | word text =>
      have hk : (keyword? text).getD .identifier ∈ wordKinds := by
        rw [keyword?_eq]
        split_ifs <;> decide
      have hne : (keyword? text).getD .identifier ≠ .intLiteral := fun he => by
        rw [he] at hk
        exact absurd hk (by decide)
      exact ⟨iff_of_true hk ⟨text, rfl⟩, iff_of_false hne nofun⟩
  | number text => exact ⟨iff_of_false (by decide : Kind.intLiteral ∉ wordKinds) nofun, iff_of_true rfl ⟨text, rfl⟩⟩
  | symbol kind text =>
      have hsymbols : ∀ t ∈ symbols, t.kind ∉ wordKinds ∧ t.kind ≠ .intLiteral := by decide
      obtain ⟨hw, hn⟩ := hsymbols _ (h : (⟨kind, text⟩ : Token) ∈ symbols)
      exact ⟨iff_of_false hw nofun, iff_of_false hn nofun⟩

end Lexeme

namespace Lexer

variable {lexer : Lexer} {a b : List Char} {c : Char} {l : Lexeme}

theorem lexeme_step (h : (lexer.step c).lexeme = some l) :
    (∃ m, lexer.lexeme = some m ∧ m.accepts c = true ∧ l = m.extend c) ∨ Lexeme.start? c = some l := by
  obtain ⟨closed, lexeme⟩ := lexer
  cases lexeme with
  | none => exact .inr h
  | some m =>
      rw [step] at h
      split_ifs at h with hc
      · exact .inl ⟨m, rfl, hc, (Option.some.inj h).symm⟩
      · exact .inr h

theorem start?_of_step (h : (lexer.step c).lexeme = none) : Lexeme.start? c = none := by
  obtain ⟨closed, lexeme⟩ := lexer
  cases lexeme with
  | none => exact h
  | some m =>
      rw [step] at h
      split_ifs at h
      exact h

theorem run_concat (lexer : Lexer) (a : List Char) (c : Char) : lexer.run (a ++ [c]) = (lexer.run a).step c :=
  run_append lexer a [c]

/-- What is open at the end of a text has all its characters there. -/
theorem open_reaches (h : (start.run a).lexeme = some l) : l.Formed ∧ l.token.text.toList <:+ a := by
  induction a using List.reverseRecOn generalizing l with
  | nil => exact nomatch h
  | append_singleton a c ih =>
      rw [run_concat] at h
      rcases lexeme_step h with ⟨m, hm, hc, rfl⟩ | hs
      · obtain ⟨hf, rest, hrest⟩ := ih hm
        refine ⟨Lexeme.formed_extend hf hc, rest, ?_⟩
        rw [Lexeme.text_extend, ← List.append_assoc, hrest]
      · obtain ⟨hf, htext⟩ := Lexeme.formed_start? hs
        exact ⟨hf, htext ▸ List.suffix_append a [c]⟩

theorem ignored_of_closed (h : (start.run (a ++ [c])).lexeme = none) : Ignored c := by
  rw [run_concat] at h
  exact Lexeme.start?_eq_none_iff.1 (start?_of_step h)

theorem getLast?_tokenize {text : String} (h : (start.run text.toList).lexeme = some l) :
    (tokenize text).toList.getLast? = some l.token := by
  rw [toList_tokenize]
  exact getLast?_close h

/-- The token that is open at the end is the one that the text ends with. -/
theorem ends_iff {t : Token} {text : String} :
    t.Ends text ↔ ∃ l, (start.run text.toList).lexeme = some l ∧ l.token = t := by
  constructor
  · rintro ⟨hlast, rest, hrest⟩
    have hmem : t ∈ tokenize text := Array.mem_toList_iff.1 (List.mem_of_getLast? hlast)
    have ht : t.Lexical := lexical_of_mem_tokenize hmem
    cases hl : (start.run text.toList).lexeme with
    | none =>
        rw [← hrest, ← List.dropLast_concat_getLast ht.ne_nil, ← List.append_assoc] at hl
        exact absurd (ignored_of_closed hl) (ht.not_ignored (List.getLast_mem ht.ne_nil))
    | some l => exact ⟨l, rfl, Option.some.inj ((getLast?_tokenize hl).symm.trans hlast)⟩
  · rintro ⟨l, hl, rfl⟩
    exact ⟨getLast?_tokenize hl, (open_reaches hl).2⟩

/-- The tokens of two texts are those of both together unless the open token goes on. -/
theorem tokens_append_iff :
    tokens (a ++ b) = tokens a ++ tokens b ↔ ∀ l ∈ (start.run a).lexeme, ∀ c ∈ b.head?, l.accepts c = false := by
  refine ⟨fun h l hl c hc => ?_, tokens_append⟩
  by_contra haccepts
  rw [Bool.not_eq_false] at haccepts
  obtain ⟨cs, rfl⟩ := List.head?_eq_some_iff.1 hc
  -- The longer token stands where the one that was open should be.
  unfold tokens at h
  rw [run_append] at h
  generalize start.run a = lexer at h hl
  obtain ⟨closed, lexeme⟩ := lexer
  obtain rfl : lexeme = some l := hl
  have hpush : closed.push (l.munch (c :: cs)).1.token = closed.push (l.munch (c :: cs)).1.token ++ #[] :=
    Array.append_empty.symm
  rw [close_run_some, hpush, close_run_append, close] at h
  simp only [Array.toList_append, Array.toList_push, List.append_assoc, List.singleton_append] at h
  exact Lexeme.munch_ne haccepts cs (List.cons.inj (List.append_cancel_left h)).1

theorem getLast?_open (h : (start.run a).lexeme = some l) : l.token.text.toList.getLast? = a.getLast? := by
  obtain ⟨hf, rest, rfl⟩ := open_reaches h
  rw [List.getLast?_append, List.getLast?_eq_some_getLast (Lexeme.lexical_token hf).ne_nil, Option.some_or]

theorem exists_open (h : a.getLast? = some c) (hc : ¬ Ignored c) : ∃ l, (start.run a).lexeme = some l := by
  obtain ⟨a, rfl⟩ := List.getLast?_eq_some_iff.1 h
  rw [← Option.isSome_iff_exists, Option.isSome_iff_ne_none]
  exact fun hl => hc (ignored_of_closed hl)

theorem merges_iff {a b : String} :
    Merges a b ↔ ∃ l, (start.run a.toList).lexeme = some l ∧ ∃ c, b.toList.head? = some c ∧ l.accepts c = true := by
  constructor
  · intro h
    cases h with
    | word ht hk hb hc =>
        obtain ⟨l, hl, rfl⟩ := ends_iff.1 ht
        obtain ⟨text, rfl⟩ := (Lexeme.kind_spec (open_reaches hl).1).1.1 hk
        exact ⟨_, hl, _, hb, hc⟩
    | number ht hk hb hc =>
        obtain ⟨l, hl, rfl⟩ := ends_iff.1 ht
        obtain ⟨text, rfl⟩ := (Lexeme.kind_spec (open_reaches hl).1).2.1 hk
        exact ⟨_, hl, _, hb, hc⟩
    | comparison ha hb =>
        have hopen : ∃ l, (start.run a.toList).lexeme = some l := by
          rcases ha with ha | ha
          · exact exists_open ha (by decide)
          · exact exists_open ha (by decide)
        obtain ⟨l, hl⟩ := hopen
        have hf := (open_reaches hl).1
        rw [← getLast?_open hl, ← fuses_equals_iff (Lexeme.lexical_token hf), ← Lexeme.accepts_iff_fuses hf] at ha
        exact ⟨l, hl, _, hb, ha⟩
  · rintro ⟨l, hl, c, hb, hc⟩
    obtain ⟨hf, -⟩ := open_reaches hl
    cases l with
    | word text => exact .word (ends_iff.2 ⟨_, hl, rfl⟩) ((Lexeme.kind_spec hf).1.2 ⟨text, rfl⟩) hb hc
    | number text => exact .number (ends_iff.2 ⟨_, hl, rfl⟩) rfl hb hc
    | symbol kind text =>
        obtain rfl : c = '=' := by
          rw [Lexeme.accepts, Bool.and_eq_true, beq_iff_eq] at hc
          exact hc.1
        rw [Lexeme.accepts_iff_fuses hf, fuses_equals_iff (Lexeme.lexical_token hf), getLast?_open hl] at hc
        exact .comparison hc hb

end Lexer

namespace Token

/-- The tokens of a text are those of its parts, one after the other, exactly where no token goes on over the seam. What is
ignored keeps texts apart, and a line feed does so with lines. -/
theorem tokenize_append_iff :
    (∀ a b, tokenize (a ++ b) = tokenize a ++ tokenize b ↔ ¬ Merges a b) ∧
    (∀ a b c, Ignored c → tokenize (a ++ String.singleton c ++ b) = tokenize a ++ tokenize b) ∧
    ∀ lines : List String, (tokenize ("\n".intercalate lines)).toList = lines.flatMap fun line => (tokenize line).toList := by
  refine ⟨fun a b => ?_, fun a b c hc => ?_, fun lines => ?_⟩
  · rw [Lexer.merges_iff, ← Array.toList_inj, Array.toList_append]
    simp only [Lexer.toList_tokenize, String.toList_append, Lexer.tokens_append_iff]
    simp
  · rw [← Array.toList_inj, Array.toList_append]
    simpa [Lexer.toList_tokenize] using Lexer.tokens_ignored_between hc a.toList b.toList
  · have hfeed : Ignored '\n' := ignored_of_isBlank (by decide)
    have hsingle : "\n" = String.singleton '\n' := by decide
    simp only [Lexer.toList_tokenize, hsingle]
    exact Lexer.tokens_intercalate hfeed lines

theorem tokenize_append_iff_letter :
    Ignored 'é' ∧ tokenize ("ab" ++ String.singleton 'é' ++ "1") = #[⟨.identifier, "ab"⟩, ⟨.intLiteral, "1"⟩] ∧
    tokenize ("ab" ++ "1") ≠ tokenize "ab" ++ tokenize "1" ∧ Merges "ab" "1" := by
  have hletter : Ignored 'é' := by decide
  have hmerges : tokenize ("ab" ++ "1") ≠ tokenize "ab" ++ tokenize "1" := by decide
  refine ⟨hletter, (tokenize_append_iff.2.1 "ab" "1" 'é' hletter).trans (by decide), hmerges, ?_⟩
  by_contra h
  exact hmerges ((tokenize_append_iff.1 "ab" "1").2 h)

end Token

end IntScript
