import IntScript.Proofs.Token.Blank

namespace IntScript

namespace Token

structure IsGap (text : String) : Prop where
  nonempty : text.toList ≠ []
  ignored : ∀ c ∈ text.toList, Ignored c

instance (text : String) : Decidable (IsGap text) :=
  decidable_of_iff (text.toList ≠ [] ∧ text.toList.all fun c => decide (Ignored c))
    ⟨fun h => ⟨h.1, by simpa using h.2⟩, fun h => ⟨h.nonempty, by simpa using h.ignored⟩⟩

def spaced (ts : List (Token × String)) : String := String.join (ts.map fun t => t.1.text ++ t.2)

theorem spaced_cons (t : Token) (gap : String) (ts : List (Token × String)) :
    (spaced ((t, gap) :: ts)).toList = t.text.toList ++ (gap.toList ++ (spaced ts).toList) := by
  rw [spaced, List.map_cons, String.join_cons, String.toList_append, String.toList_append, List.append_assoc]
  rfl

end Token

namespace Lexer

open Token

variable {t : Token} {ts : List (Token × String)}

/-- The text of a token has this one token. -/
theorem tokens_text (ht : t.Lexical) : tokens t.text.toList = [t] := by
  have hlongest : t.Longest (t.text.toList ++ []) [] := longest_of_not_fuses ht nofun
  rw [List.append_nil] at hlongest
  exact (segmentation_tokens t.text.toList).unique (.token hlongest .nil)

theorem tokens_gap {gap : String} (hg : IsGap gap) (a b : List Char) :
    tokens (a ++ (gap.toList ++ b)) = tokens a ++ tokens b := by
  obtain ⟨c, cs, hcs⟩ := List.exists_cons_of_ne_nil hg.nonempty
  have hignored := hg.ignored
  rw [hcs] at hignored ⊢
  obtain ⟨hc, hcs⟩ := List.forall_mem_cons.1 hignored
  rw [List.cons_append, tokens_ignored_between hc, tokens_ignored_append hcs]

theorem tokens_spaced (h : ∀ t ∈ ts, t.1.Lexical ∧ IsGap t.2) : tokens (spaced ts).toList = ts.map Prod.fst := by
  induction ts with
  | nil => rfl
  | cons t ts ih =>
      obtain ⟨⟨ht, hg⟩, hts⟩ := List.forall_mem_cons.1 h
      rw [spaced_cons, tokens_gap hg, tokens_text ht, ih hts, List.map_cons, List.singleton_append]

end Lexer

namespace Token

/-- Tokens that are written out with gaps between them are read again, whatever the gaps. The tokens of a text are such
tokens. -/
theorem tokenize_spaced :
    (∀ (front : String) (ts : List (Token × String)), (∀ c ∈ front.toList, Ignored c) →
      (∀ t ∈ ts, t.1.Lexical ∧ IsGap t.2) → (tokenize (front ++ spaced ts)).toList = ts.map Prod.fst) ∧
    (∀ text, ∀ t ∈ tokenize text, t.Lexical) ∧
    ∀ text, tokenize (" ".intercalate ((tokenize text).toList.map Token.text)) = tokenize text := by
  refine ⟨fun front ts hfront hts => ?_, fun text t => lexical_of_mem_tokenize, fun text => ?_⟩
  · rw [Lexer.toList_tokenize, String.toList_append, Lexer.tokens_ignored_append hfront]
    exact Lexer.tokens_spaced hts
  · have hspace : Ignored ' ' := by decide
    have hsingle : " " = String.singleton ' ' := by decide
    have hlexical : ∀ t ∈ (tokenize text).toList, Lexer.tokens t.text.toList = [t] := fun t ht =>
      Lexer.tokens_text (lexical_of_mem_tokenize (Array.mem_toList_iff.1 ht))
    rw [← Array.toList_inj, Lexer.toList_tokenize, hsingle, Lexer.tokens_intercalate hspace, List.flatMap_map,
      List.flatMap_congr hlexical, List.flatMap_singleton']

def comparison : List (Token × String) := [(⟨.identifier, "x"⟩, "@\n"), (⟨.gt, ">"⟩, " "), (⟨.assign, "="⟩, "é")]

theorem tokenize_spaced_comparison :
    (∀ c ∈ "\t".toList, Ignored c) ∧ (∀ t ∈ comparison, t.1.Lexical ∧ IsGap t.2) ∧
    "\t" ++ spaced comparison = "\tx@\n> =é" ∧ (tokenize "\tx@\n> =é").toList = comparison.map Prod.fst := by
  have hfront : ∀ c ∈ "\t".toList, Ignored c := (by decide : IsGap "\t").ignored
  have hname : Lexical ⟨.identifier, "x"⟩ := .identifier ⟨'x', [], rfl, by decide, nofun⟩ (by decide)
  have hts : ∀ t ∈ comparison, t.1.Lexical ∧ IsGap t.2 := by
    simp only [comparison, List.forall_mem_cons]
    exact ⟨⟨hname, by decide⟩, ⟨.symbol (by decide), by decide⟩, ⟨.symbol (by decide), by decide⟩, nofun⟩
  exact ⟨hfront, hts, by decide, tokenize_spaced.1 "\t" comparison hfront hts⟩

end Token

end IntScript
