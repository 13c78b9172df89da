import IntScript.Proofs.Token.Segmentation

namespace IntScript.Lexer

open Token

variable {a b cs : List Char} {c : Char}

theorem run_append (lexer : Lexer) (a b : List Char) : lexer.run (a ++ b) = (lexer.run a).run b :=
  List.foldl_append

/-- A text falls into two where the token that is open there does not go on. -/
theorem tokens_append (h : ∀ l ∈ (start.run a).lexeme, ∀ c ∈ b.head?, l.accepts c = false) :
    tokens (a ++ b) = tokens a ++ tokens b := by
  unfold tokens
  rw [run_append]
  generalize start.run a = lexer at h
  obtain ⟨closed, lexeme⟩ := lexer
  have hclosed (before : Array Token) : (run ⟨before, none⟩ b).close = before ++ (start.run b).close := by
    simpa [start] using close_run_append before #[] none b
  cases lexeme with
  | none => rw [hclosed, Array.toList_append, close]
  | some l =>
      have hm : l.munch b = (l, b) := by
        cases b with
        | nil => rfl
        | cons c b => simp [Lexeme.munch, h l rfl c rfl]
      rw [close_run_some, hm, hclosed, Array.toList_append, close]

theorem tokens_ignored_between (hc : Ignored c) (a b : List Char) :
    tokens (a ++ c :: b) = tokens a ++ tokens b := by
  rw [tokens_append, tokens_ignored hc]
  intro l _ d hd
  obtain rfl := Option.some.inj hd
  obtain ⟨ha, hs⟩ := hc
  cases l with
  | word text => exact ha
  | number text =>
      rw [Char.isAlphanum, Bool.or_eq_false_iff] at ha
      exact ha.2
  | symbol kind text =>
      have hne : c ≠ '=' := by
        rintro rfl
        exact hs (by decide)
      simp [Lexeme.accepts, hne]

/-- Texts with something ignored between them keep their tokens. -/
theorem tokens_intercalate (hc : Ignored c) (texts : List String) :
    tokens ((String.singleton c).intercalate texts).toList = texts.flatMap fun text => tokens text.toList := by
  induction texts with
  | nil => rfl
  | cons text texts ih =>
      cases texts with
      | nil => rw [String.intercalate_singleton, List.flatMap_singleton]
      | cons next texts =>
          rw [String.intercalate_cons_cons, List.flatMap_cons, ← ih]
          simpa using tokens_ignored_between hc text.toList ((String.singleton c).intercalate (next :: texts)).toList

/-- The open token is the last one. -/
theorem getLast?_close {lexer : Lexer} {l : Lexeme} (h : lexer.lexeme = some l) :
    lexer.close.toList.getLast? = some l.token := by
  obtain ⟨closed, lexeme⟩ := lexer
  obtain rfl : lexeme = some l := h
  simp [close]

theorem accepts_semicolon (l : Lexeme) : l.accepts ';' = false := by
  cases l <;> rfl

/-- A semicolon is read as such wherever it stands. -/
theorem tokens_semicolon (a : List Char) : tokens (a ++ [';']) = tokens a ++ [⟨.semicolon, ";"⟩] := by
  apply tokens_append
  intro l _ c hc
  obtain rfl := Option.some.inj hc
  exact accepts_semicolon l

theorem accepts_of_semicolon {l : Lexeme} (h : l.token.kind = .semicolon) (c : Char) : l.accepts c = false := by
  cases l with
  | word text =>
      have hk : (keyword? text).getD .identifier ≠ .semicolon := by
        rw [keyword?_eq]
        split_ifs <;> simp
      exact absurd h hk
  | number text => exact nomatch h
  | symbol kind text =>
      obtain rfl : kind = .semicolon := h
      simp [Lexeme.accepts, Kind.withEquals?]

/-- A semicolon belongs to no longer token, so that a text may go on after it in any way. -/
theorem tokens_append_of_semicolon (h : ∀ t ∈ (tokens a).getLast?, t.kind = .semicolon) (b : List Char) :
    tokens (a ++ b) = tokens a ++ tokens b := by
  refine tokens_append fun l hl c _ => accepts_of_semicolon ?_ c
  exact h l.token (getLast?_close hl)

end IntScript.Lexer
