import IntScript.Proofs.Grammar.Join
import IntScript.Proofs.Grammar.Location
import IntScript.Proofs.Token.Blank
import IntScript.Shell.Reader

namespace IntScript

open Grammar Lexer

def Reader.joined (pending? : Option String) (line : String) : String :=
  pending?.elim line (· ++ "\n" ++ line)

def Reader.tokens (pending? : Option String) : List Token := pending?.elim [] (Lexer.tokens ·.toList)

/-- What was not run yet, the pending text and the lines to come, is a program of these statements. -/
structure Ready (pending? : Option String) (lines : List String) (xs : List Stmt) : Prop where
  waits : ∀ text ∈ pending?, needsMore text = true
  program : Program maxNesting (Reader.tokens pending? ++ lines.flatMap (tokens ·.toList)) xs
  ended : ∀ c ∈ (Text.lastVisible? (String.join lines)).or (pending?.bind Text.lastVisible?), c = ';'
  plain : ∀ line ∈ lines, CommandLine.parse? line = none

namespace Reader

variable {pending? : Option String} {line text : String} {lines : List String} {xs : List Stmt}

theorem tokens_joined (pending? : Option String) (line : String) :
    Lexer.tokens (joined pending? line).toList = tokens pending? ++ Lexer.tokens line.toList := by
  cases pending? with
  | none => rfl
  | some text =>
      have hfeed : Token.Ignored '\n' := Token.ignored_of_isBlank (by decide)
      simpa [joined, tokens] using tokens_ignored_between hfeed text.toList line.toList

theorem lastVisible?_joined (pending? : Option String) (line : String) :
    Text.lastVisible? (joined pending? line) = (Text.lastVisible? line).or (pending?.bind Text.lastVisible?) := by
  cases pending? with
  | none => simp [joined]
  | some text =>
      have hn : Text.lastVisible? "\n" = none := by decide
      simp [joined, Text.lastVisible?_append, hn]

/-- No statement calls a name. -/
theorem not_program_of_call (name l : String) (us : List Token) :
    ¬ ∃ xs, Program maxNesting (⟨.identifier, name⟩ :: ⟨.leftParen, l⟩ :: us) xs := by
  have hname : Additive maxNesting [⟨.identifier, name⟩] (.identifier name) :=
    .one (.one (.identifier name))
  have hstuck : Unfinished maxNesting [⟨.identifier, name⟩] (List.head? (⟨.leftParen, l⟩ :: us)) := by
    refine .expression hname (stops_some.2 rfl) (stops_some.2 rfl) ?_
    rintro ⟨_, _, -, h⟩
    exact nomatch h
  exact not_program_of_unfinished .nil hstuck (List.cons_ne_nil _ _)

theorem trim_ne_exit (h : ∃ us xs, Program maxNesting (Lexer.tokens line.toList ++ us) xs) :
    Text.trim line.toList ≠ exitStatement.toList := by
  intro he
  obtain ⟨us, xs, hp⟩ := h
  have ht : Lexer.tokens line.toList =
      [⟨.identifier, "exit"⟩, ⟨.leftParen, "("⟩, ⟨.rightParen, ")"⟩, ⟨.semicolon, ";"⟩] := by
    rw [← tokens_trim, he]
    decide
  rw [ht] at hp
  exact not_program_of_call "exit" "(" _ ⟨xs, hp⟩

theorem next_line (h : Ready pending? (line :: lines) xs) :
    next pending? (.line line) = begin (joined pending? line) := by
  cases pending? with
  | none =>
      have hplain := h.plain line List.mem_cons_self
      have hp := h.program
      have hexit : Text.trim line.toList ≠ exitStatement.toList := trim_ne_exit ⟨_, xs, hp⟩
      simp only [next, first, hplain, if_neg hexit]
      rfl
  | some text => exact extend_eq_begin (h.waits text rfl) line

end Reader

namespace Ready

variable {pending? : Option String} {line : String} {lines : List String} {xs : List Stmt}

theorem ended_joined (h : Ready pending? (line :: lines) xs) :
    ∀ c ∈ (Text.lastVisible? (String.join lines)).or (Text.lastVisible? (Reader.joined pending? line)), c = ';' := by
  have hc := h.ended
  rwa [String.join_cons, Text.lastVisible?_append, Option.or_assoc, ← Reader.lastVisible?_joined] at hc

theorem program_joined (h : Ready pending? (line :: lines) xs) :
    Program maxNesting (tokens (Reader.joined pending? line).toList ++ lines.flatMap (tokens ·.toList)) xs := by
  have hp := h.program
  rwa [List.flatMap_cons, ← List.append_assoc, ← Reader.tokens_joined] at hp

/-- A line makes the prompt wait, skip it, or run a text of whole statements. -/
theorem step (h : Ready pending? (line :: lines) xs) :
    (∃ action text?, Reader.next pending? (.line line) = (action, text?) ∧ (action = .wait ∨ action = .skip) ∧
      Ready text? lines xs) ∨
    ∃ text ys zs, Reader.next pending? (.line line) = (.script text, none) ∧ xs = ys ++ zs ∧ Parses text ys ∧
      Ready none lines zs := by
  have hplain : ∀ line ∈ lines, CommandLine.parse? line = none := fun l hl => h.plain l (List.mem_cons_of_mem _ hl)
  have hnone : ∀ text ∈ none, needsMore text = true := fun text ht => absurd ht (Option.not_mem_none text)
  have hended := h.ended_joined
  have hprogram := h.program_joined
  rw [Reader.next_line h]
  generalize Reader.joined pending? line = text at hended hprogram
  by_cases hmore : needsMore text = true
  · refine .inl ⟨.wait, some text, if_pos hmore, .inl rfl, ?_, hprogram, hended, hplain⟩
    intro text' ht
    obtain rfl := Option.some.inj ht
    exact hmore
  rw [Reader.begin, if_neg hmore]
  cases hlast : Text.lastVisible? text with
  | none =>
      rw [tokens_of_lastVisible?_none hlast] at hprogram
      rw [hlast] at hended
      exact .inl ⟨.skip, none, rfl, .inr rfl, hnone, hprogram, hended, hplain⟩
  | some c =>
      obtain rfl : c = ';' := by simpa [needsMore, hlast] using hmore
      have hsemicolon : ∀ t ∈ (tokens text.toList).getLast?, t.kind = .semicolon := by
        simp [getLast?_tokens hlast]
      obtain ⟨ys, zs, rfl, hys, hzs⟩ := hprogram.split hsemicolon
      refine .inr ⟨text, ys, zs, rfl, rfl, parses_iff.2 hys, hnone, hzs, ?_, hplain⟩
      intro c hc
      rw [Option.bind_none, Option.or_none] at hc
      exact hended c (by simp [Option.mem_def.1 hc])

theorem of_nil (h : Ready pending? [] xs) : pending? = none ∧ xs = [] := by
  cases pending? with
  | none => exact ⟨rfl, h.program.eq_nil⟩
  | some text =>
      have hmore := h.waits text rfl
      have hended := h.ended
      cases hlast : Text.lastVisible? text with
      | none => simp [needsMore, hlast] at hmore
      | some c =>
          have hn : Text.lastVisible? (String.join []) = none := by decide
          have hc : c = ';' := hended c (by rw [hn]; exact hlast)
          simp [needsMore, hlast, hc] at hmore

end Ready

end IntScript
