import IntScript.Proofs.Grammar.Join
import IntScript.Proofs.Grammar.Location
import IntScript.Proofs.Token.Ending
import IntScript.Shell.Reader

namespace IntScript

open Lexer Token

theorem ParseError.found_ne_end {e : ParseError} {t : Token} (h : e.token? = some t) : e.found ≠ "end of input" := by
  rw [found, h]
  intro he
  have hchars := congrArg String.toList he
  rw [String.toList_append, String.toList_append] at hchars
  exact absurd (List.cons.inj hchars).1 (by decide)

theorem Token.text_of_semicolon {t : Token} (ht : t.Lexical) (hk : t.kind = .semicolon) : t.text = ";" := by
  cases ht with
  | keyword h => exact absurd hk ((by decide : ∀ t ∈ keywords, t.kind ≠ .semicolon) _ h)
  | symbol h => exact (by decide : ∀ t ∈ symbols, t.kind = .semicolon → t.text = ";") _ h hk
  | identifier | literal => exact nomatch hk

namespace Grammar

variable {c : Cursor} {e : ParseError}

/-- A fault in a statement does not come after a semicolon, so that another token is at fault where that is the last one. -/
theorem ne_nil_of_fault {done ts us : List Token} {xs : List Stmt} {reason : ParseError.Reason}
    (hlast : ∀ t ∈ (done ++ (ts ++ us)).getLast?, t.kind = .semicolon) (hd : Program maxNesting done xs)
    (hf : StatementFault maxNesting ts us.head? reason) (hne : ts ++ us ≠ []) : us ≠ [] := by
  rintro rfl
  rw [List.append_nil] at hne hlast
  obtain ⟨vs, x, hx⟩ := statementFault_continues hf
  have hts : ∀ t ∈ ts.getLast?, t.kind = .semicolon := fun t ht =>
    hlast t (by rw [List.getLast?_append, Option.mem_def.1 ht, Option.some_or, Option.mem_def])
  obtain rfl := hx.eq_nil_of_append hne hts
  rw [List.append_nil] at hx
  have hno : ¬ ∃ ys, Program maxNesting (done ++ (ts ++ [])) ys := not_program_of_fault hd hf (by rwa [List.append_nil])
  rw [List.append_nil] at hno
  exact hno ⟨xs ++ [x], hd.append hx.singleton⟩

/-- After a semicolon at the end nothing is missing. -/
theorem error_before_end (h : (parseProgram c).result = .error e) (hlast : ∀ t ∈ c.rest.getLast?, t.kind = .semicolon) :
    e.position < c.position + c.rest.length ∧ ∃ t, e.token? = some t := by
  rcases program_cases c.rest with hp | ⟨done, xs, ts, us, hs, hd, hne, ⟨reason, hf⟩ | hf⟩
  · exact absurd hp (not_program_of_error h)
  · obtain rfl := Except.error.inj (h.symm.trans (parseProgram_fault hd hs hf hne))
    rw [hs] at hlast
    obtain ⟨t, us, rfl⟩ := List.exists_cons_of_ne_nil (ne_nil_of_fault hlast hd hf hne)
    refine ⟨?_, t, rfl⟩
    simp only [hs, List.length_append, List.length_cons]
    omega
  · obtain rfl := Except.error.inj (h.symm.trans (parseProgram_unfinished hd hs hf hne))
    obtain ⟨t, vs, hts⟩ := List.exists_cons_of_ne_nil hne
    refine ⟨?_, t, by rw [hts]; rfl⟩
    simp only [hs, hts, List.length_append, List.length_cons]
    omega

end Grammar

variable {text : String}

theorem last_of_complete (h : needsMore text = false) : ∀ t ∈ (tokenize text).toList.getLast?, t.kind = .semicolon := by
  rw [toList_tokenize]
  cases hlast : Text.lastVisible? text with
  | none =>
      rw [tokens_of_lastVisible?_none hlast]
      exact nofun
  | some c =>
      obtain rfl : c = ';' := by simpa [needsMore, hlast] using h
      rw [getLast?_tokens hlast]
      exact fun t ht => Option.some.inj ht ▸ rfl

/-- A text that ends with a part of another token than a semicolon is no program. -/
theorem not_program_of_last {c : Char} (h : Text.lastVisible? text = some c) (hc : ¬ Ignored c) (hne : c ≠ ';') :
    ¬ ∃ xs, Grammar.Program maxNesting (tokenize text).toList xs := by
  rintro ⟨xs, hxs⟩
  obtain ⟨cs, hcs⟩ := tokens_of_lastVisible?_some h
  obtain ⟨l, hl⟩ := exists_open List.getLast?_concat hc
  have hlast : (tokens (cs ++ [c])).getLast? = some l.token := getLast?_close hl
  rw [toList_tokenize, hcs] at hxs
  have htext := text_of_semicolon (Lexeme.lexical_token (open_reaches hl).1) (hxs.last l.token hlast)
  have hend := getLast?_open hl
  rw [htext, List.getLast?_concat] at hend
  exact hne (Option.some.inj hend).symm

/-- The prompt takes a text as complete only if nothing is missing at its end, and waits for more only where the text cannot
be parsed, unless characters that are ignored come last. -/
theorem needsMore_sound :
    (∀ text, needsMore text = false →
      (∀ t ∈ (tokenize text).toList.getLast?, t.kind = .semicolon) ∧
      ∀ e, parse text = .error e → e.position < (tokenize text).size ∧ e.found ≠ "end of input") ∧
    ∀ text c, needsMore text = true → Text.lastVisible? text = some c → ¬ Ignored c → ∃ e, parse text = .error e := by
  refine ⟨fun text h => ⟨last_of_complete h, fun e he => ?_⟩, fun text c h hlast hc => ?_⟩
  · obtain ⟨hlt, t, ht⟩ := Grammar.error_before_end he (last_of_complete h)
    refine ⟨?_, ParseError.found_ne_end ht⟩
    simpa [Cursor.start, Cursor.rest] using hlt
  · have hne : c ≠ ';' := by simpa [needsMore, hlast] using h
    exact Grammar.parseProgram_error_of_not_program (not_program_of_last hlast hc hne)

theorem needsMore_sound_missing_value :
    needsMore "x = ; \n" = false ∧ parse "x = ; \n" = .error ⟨.missingAssignedValue "x", 2, some ⟨.semicolon, ";"⟩⟩ ∧
    2 < (tokenize "x = ; \n").size ∧ needsMore "int a = 1 " = true ∧ Text.lastVisible? "int a = 1 " = some '1' ∧
    ¬ Ignored '1' ∧ ∃ e, parse "int a = 1 " = .error e := by
  have hcomplete : needsMore "x = ; \n" = false := by decide
  have herror : parse "x = ; \n" = .error ⟨.missingAssignedValue "x", 2, some ⟨.semicolon, ";"⟩⟩ := rfl
  have hmore : needsMore "int a = 1 " = true := by decide
  have hlast : Text.lastVisible? "int a = 1 " = some '1' := by decide
  have hdigit : ¬ Ignored '1' := by decide
  exact ⟨hcomplete, herror, ((needsMore_sound.1 _ hcomplete).2 _ herror).1, hmore, hlast, hdigit,
    needsMore_sound.2 _ _ hmore hlast hdigit⟩

end IntScript
