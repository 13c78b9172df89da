import IntScript.Proofs.Text.Cut
import IntScript.Proofs.Token.Seam
import IntScript.Text.Blank
import Mathlib.Data.List.TakeWhile

namespace IntScript

theorem Text.trimEnd_append (cs : List Char) : trimEnd cs ++ (cs.reverse.takeWhile isBlank).reverse = cs := by
  rw [trimEnd, ← List.reverse_append, List.takeWhile_append_dropWhile, List.reverse_reverse]

namespace Token

variable {c : Char}

theorem outside_of_isBlank (h : Text.isBlank c = true) : c ≤ ' ' ∨ '\u0080' ≤ c := by
  simp only [Text.isBlank, Bool.or_eq_true, Bool.and_eq_true, decide_eq_true_eq, beq_iff_eq] at h
  rcases h with (((((((((⟨-, h⟩ | rfl) | rfl) | rfl) | rfl) | ⟨h, -⟩) | rfl) | rfl) | rfl) | rfl) | rfl
  case inl.inl.inl.inl.inl.inl.inl.inl.inl.inl =>
    have hspace : '\r' ≤ ' ' := by decide
    exact .inl (Char.le_trans h hspace)
  case inl.inl.inl.inl.inl.inr =>
    have hspace : '\u0080' ≤ '\u2000' := by decide
    exact .inr (Char.le_trans hspace h)
  all_goals decide

theorem inside_of_not_ignored (h : ¬ Ignored c) : ' ' < c ∧ c < '\u0080' := by
  by_cases ha : c.isAlphanum = true
  · rw [Char.isAlphanum, Bool.or_eq_true, isAlpha_iff, isDigit_iff] at ha
    simp only [Char.lt_def, UInt32.lt_iff_toNat_lt]
    change 32 < c.toNat ∧ c.toNat < 128
    omega
  · have hs : c ∈ "<>+-*/;()=".toList := by
      by_contra hs
      exact h ⟨by simpa using ha, hs⟩
    have hall : "<>+-*/;()=".toList.all (fun c => ' ' < c && c < '\u0080') = true := by decide
    simpa using List.all_eq_true.1 hall c hs

theorem ignored_of_isBlank (h : Text.isBlank c = true) : Ignored c := by
  by_contra hc
  obtain ⟨hl, hu⟩ := inside_of_not_ignored hc
  rcases outside_of_isBlank h with hb | hb
  · exact absurd hl (Char.not_lt.2 hb)
  · exact absurd hu (Char.not_lt.2 hb)

end Token

namespace Lexer

open Token

variable {a b cs : List Char} {c : Char} {text : String}

theorem tokens_ignored_append (h : ∀ c ∈ a, Ignored c) (b : List Char) : tokens (a ++ b) = tokens b := by
  induction a with
  | nil => rfl
  | cons c a ih =>
      rw [List.cons_append, tokens_ignored (h c List.mem_cons_self)]
      exact ih fun d hd => h d (List.mem_cons_of_mem c hd)

theorem tokens_of_ignored (h : ∀ c ∈ cs, Ignored c) : tokens cs = [] := by
  rw [← List.append_nil cs, tokens_ignored_append h]
  rfl

theorem tokens_append_ignored (a : List Char) (h : ∀ c ∈ b, Ignored c) : tokens (a ++ b) = tokens a := by
  cases b with
  | nil => rw [List.append_nil]
  | cons c b =>
      rw [tokens_ignored_between (h c List.mem_cons_self),
        tokens_of_ignored fun d hd => h d (List.mem_cons_of_mem c hd), List.append_nil]

/-- Every text has the tokens of its lines, one line after the other. -/
theorem tokens_cutAfter (cs : List Char) : (Text.cutAfter '\n' cs).flatMap tokens = tokens cs := by
  have hfeed : Ignored '\n' := ignored_of_isBlank (by decide)
  induction cs using Text.cut_induction '\n' with
  | nil => rfl
  | last l hne hl => rw [Text.cutAfter_last hl hne, List.flatMap_singleton]
  | line l rest hl ih =>
      have hl' : tokens (l ++ ['\n']) = tokens l := tokens_append_ignored l (by simpa using hfeed)
      rw [Text.cutAfter_append hl, List.flatMap_cons, ih, hl', tokens_ignored_between hfeed]

theorem tokens_trim (cs : List Char) : tokens (Text.trim cs) = tokens cs := by
  have hblank {cs : List Char} : ∀ c ∈ cs.takeWhile Text.isBlank, Ignored c := by
    intro c hc
    exact ignored_of_isBlank (List.mem_takeWhile_imp hc)
  have hstart (cs : List Char) : tokens (Text.trimStart cs) = tokens cs := by
    conv_rhs => rw [← List.takeWhile_append_dropWhile (p := Text.isBlank) (l := cs), tokens_ignored_append hblank]
    rfl
  have hend (cs : List Char) : tokens (Text.trimEnd cs) = tokens cs := by
    conv_rhs =>
      rw [← Text.trimEnd_append cs, tokens_append_ignored _ (fun c hc => hblank c (List.mem_reverse.1 hc))]
  rw [Text.trim, hend, hstart]

theorem tokens_of_lastVisible?_none (h : Text.lastVisible? text = none) : tokens text.toList = [] := by
  refine tokens_of_ignored fun c hc => ?_
  have hb := List.find?_eq_none.1 h c (List.mem_reverse.2 hc)
  exact ignored_of_isBlank (by simpa using hb)

theorem tokens_of_lastVisible?_some (h : Text.lastVisible? text = some c) :
    ∃ cs, tokens text.toList = tokens (cs ++ [c]) := by
  obtain ⟨-, as, bs, hs, hb⟩ := List.find?_eq_some_iff_append.1 h
  have htext : text.toList = (bs.reverse ++ [c]) ++ as.reverse := by
    rw [← List.reverse_reverse text.toList, hs, List.reverse_append, List.reverse_cons]
  refine ⟨bs.reverse, ?_⟩
  rw [htext, tokens_append_ignored]
  intro d hd
  exact ignored_of_isBlank (by simpa using hb d (List.mem_reverse.1 hd))

theorem getLast?_tokens (h : Text.lastVisible? text = some ';') :
    (tokens text.toList).getLast? = some ⟨.semicolon, ";"⟩ := by
  obtain ⟨cs, hcs⟩ := tokens_of_lastVisible?_some h
  rw [hcs, tokens_semicolon, List.getLast?_concat]

end Lexer

end IntScript
