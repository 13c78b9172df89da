import IntScript.Shell.Reader
import Mathlib.Data.List.Induction
import Mathlib.Data.List.TakeWhile

namespace IntScript

/-- What the prompt takes as one: a line alone, lines that make a script, or lines that are dropped with what interrupts
them. -/
inductive Chunk where
  | command (text : String) (line : CommandLine)
  | exit (text : String)
  | blank (text : String)
  | script (first : String) (more : List String)
  | dropped (first : String) (more : List String) (reason : Interruption)
  | stopped (reason : Interruption)
  deriving DecidableEq, Repr

def Chunk.join (first : String) (more : List String) : String := "\n".intercalate (first :: more)

def Chunk.Alone (line : String) : Prop :=
  (CommandLine.parse? line).isSome ∨ Text.trim line.toList = Reader.exitStatement.toList ∨ Text.lastVisible? line = none

def Chunk.Ended (text : String) : Prop := Text.lastVisible? text = some ';'

namespace Chunk

def inputs : Chunk → List Input
  | command line _ | exit line | blank line => [.line line]
  | script first more => (first :: more).map .line
  | dropped first more reason => (first :: more).map .line ++ [.interrupted reason]
  | stopped reason => [.interrupted reason]

/-- The lines are of the kind that the chunk says. A script goes on up to the first line after which it ends with a
semicolon. -/
def Proper : Chunk → Prop
  | command text line => CommandLine.parse? text = some line
  | exit text => Text.trim text.toList = Reader.exitStatement.toList
  | blank text => Text.lastVisible? text = none
  | script first more => ¬ Alone first ∧ ∀ k ≤ more.length, Ended (join first (more.take k)) ↔ k = more.length
  | dropped first more _ => ¬ Alone first ∧ ∀ k ≤ more.length, ¬ Ended (join first (more.take k))
  | stopped _ => True

def isFinal : Chunk → Bool
  | exit _ | stopped _ => true
  | _ => false

end Chunk

/-- The inputs consist of the chunks, up to one that is final, and of what is left then. -/
inductive Cuts : List Input → List Chunk → List Input → Prop
  | last {chunk} (rest : List Input) (h : chunk.Proper) (hf : chunk.isFinal = true) : Cuts (chunk.inputs ++ rest) [chunk] rest
  | next {chunk inputs chunks rest} (h : chunk.Proper) (hf : chunk.isFinal = false) (hc : Cuts inputs chunks rest) :
      Cuts (chunk.inputs ++ inputs) (chunk :: chunks) rest

namespace Chunk

variable {first : String}

theorem join_nil (first : String) : join first [] = first := String.intercalate_singleton

theorem join_concat (first : String) (more : List String) (line : String) :
    join first (more ++ [line]) = join first more ++ "\n" ++ line := by
  rw [join, ← List.cons_append, String.intercalate_append_of_ne_nil (List.cons_ne_nil _ _) (List.cons_ne_nil _ _),
    String.intercalate_singleton, join]

theorem visible_join (h : Text.lastVisible? first ≠ none) (more : List String) :
    Text.lastVisible? (join first more) ≠ none := by
  induction more using List.reverseRecOn with
  | nil => rwa [join_nil]
  | append_singleton more line ih =>
      intro hnone
      rw [join_concat, Text.lastVisible?_append, Text.lastVisible?_append, Option.or_eq_none_iff,
        Option.or_eq_none_iff] at hnone
      exact ih hnone.2.2

end Chunk

namespace Reader

open Chunk

def scan (pending? : Option String) : List Input → Option (Action × List Input)
  | [] => none
  | input :: rest =>
      match next pending? input with
      | (.wait, text?) => scan text? rest
      | (action, _) => some (action, rest)

variable {first line text : String} {done more : List String} {rest : List Input}

theorem trim_of_lastVisible?_none (h : Text.lastVisible? text = none) : Text.trim text.toList = [] := by
  have hblank : ∀ c ∈ text.toList, Text.isBlank c = true := fun c hc => by
    simpa using List.find?_eq_none.1 h c (List.mem_reverse.2 hc)
  rw [Text.trim, Text.trimStart, List.dropWhile_eq_nil_iff.2 hblank]
  rfl

theorem needsMore_iff : needsMore text = true ↔ Text.lastVisible? text ≠ none ∧ ¬ Ended text := by
  cases h : Text.lastVisible? text <;> simp [needsMore, Ended, h]

theorem begin_ended (h : Ended text) : begin text = (.script text, none) := by
  have hmore : ¬ needsMore text = true := fun hm => (needsMore_iff.1 hm).2 h
  rw [begin, if_neg hmore, if_neg (by simp [show Text.lastVisible? text = some ';' from h])]

theorem begin_open (hv : Text.lastVisible? text ≠ none) (h : ¬ Ended text) : begin text = (.wait, some text) := by
  rw [begin, if_pos (needsMore_iff.2 ⟨hv, h⟩)]

theorem next_alone (h : ¬ Alone line) : next none (.line line) = begin line := by
  obtain ⟨hp, he, -⟩ := not_or.1 h |>.imp_right not_or.1
  rw [Option.not_isSome_iff_eq_none] at hp
  simp only [next, first, hp, if_neg he]

theorem next_more (hv : Text.lastVisible? first ≠ none) (h : ¬ Ended (join first more)) (line : String) :
    next (some (join first more)) (.line line) = begin (join first (more ++ [line])) := by
  rw [join_concat]
  exact extend_eq_begin (needsMore_iff.2 ⟨visible_join hv more, h⟩) line

theorem scan_open (hv : Text.lastVisible? first ≠ none)
    (h : ∀ k ≤ more.length, ¬ Ended (join first (done ++ more.take k))) :
    scan (some (join first done)) (more.map .line ++ rest) = scan (some (join first (done ++ more))) rest := by
  induction more generalizing done with
  | nil => rw [List.append_nil, List.map_nil, List.nil_append]
  | cons line more ih =>
      have hdone : ¬ Ended (join first done) := by simpa using h 0 (Nat.zero_le _)
      have hline : ¬ Ended (join first (done ++ [line])) := by simpa using h 1 (by simp)
      rw [List.map_cons, List.cons_append, scan, next_more hv hdone, begin_open (visible_join hv _) hline]
      dsimp only
      rw [ih, List.append_assoc, List.singleton_append]
      intro k hk
      rw [List.append_assoc, List.singleton_append]
      exact h (k + 1) (Nat.succ_le_succ hk)

theorem scan_lines (ha : ¬ Alone first) (h : ∀ k ≤ more.length, ¬ Ended (join first (more.take k))) :
    scan none ((first :: more).map .line ++ rest) = scan (some (join first more)) rest := by
  have hv : Text.lastVisible? first ≠ none := fun hnone => ha (.inr (.inr hnone))
  have hfirst : ¬ Ended first := by simpa [join_nil] using h 0 (Nat.zero_le _)
  rw [List.map_cons, List.cons_append, scan, next_alone ha, begin_open hv hfirst]
  dsimp only
  rw [← join_nil first, scan_open hv (by simpa using h), List.nil_append, join_nil]

end Reader

def Chunk.action : Chunk → Action
  | command text line => .command text line
  | exit _ => .exit
  | blank _ => .skip
  | script first more => .script (join first more)
  | dropped _ _ reason => .drop reason
  | stopped reason => .stop reason

namespace Chunk

variable {first : String} {more : List String} {chunk chunk' : Chunk} {rest rest' inputs : List Input}

open Reader

theorem scan_script (h : (script first more).Proper) :
    scan none ((script first more).inputs ++ rest) = some (.script (join first more), rest) := by
  obtain ⟨ha, h⟩ := h
  have hv : Text.lastVisible? first ≠ none := fun hnone => ha (.inr (.inr hnone))
  have hended : Ended (join first more) := by simpa using h more.length (Nat.le_refl _)
  cases more using List.reverseRecOn with
  | nil =>
      rw [join_nil] at hended ⊢
      rw [Chunk.inputs, List.map_singleton, List.singleton_append, scan, next_alone ha, begin_ended hended]
  | append_singleton more line =>
      have hopen : ∀ k ≤ more.length, ¬ Ended (join first (more.take k)) := by
        intro k hk he
        have hlt : k < (more ++ [line]).length := by simpa using Nat.lt_succ_of_le hk
        rw [← List.take_append_of_le_length hk, h k (Nat.le_of_lt hlt)] at he
        exact Nat.ne_of_lt hlt he
      have hmore : ¬ Ended (join first more) := by simpa using hopen more.length (Nat.le_refl _)
      rw [Chunk.inputs, ← List.cons_append, List.map_append, List.append_assoc, scan_lines ha hopen, List.map_singleton,
        List.singleton_append, scan, next_more hv hmore, begin_ended hended]

/-- The lines of a chunk keep the prompt waiting up to the end of the chunk. -/
theorem scan_inputs (h : chunk.Proper) (rest : List Input) : scan none (chunk.inputs ++ rest) = some (chunk.action, rest) := by
  cases chunk with
  | command text line =>
      have hp : CommandLine.parse? text = some line := h
      simp only [Chunk.inputs, List.singleton_append, scan, next, Reader.first, hp, action]
  | exit text =>
      have he : Text.trim text.toList = exitStatement.toList := h
      have hp : CommandLine.parse? text = none := by
        rw [CommandLine.parse?, he]
        rfl
      simp only [Chunk.inputs, List.singleton_append, scan, next, Reader.first, hp, if_pos he, action]
  | blank text =>
      have hv : Text.lastVisible? text = none := h
      have ht := trim_of_lastVisible?_none hv
      have hp : CommandLine.parse? text = none := by rw [CommandLine.parse?, ht]
      have he : Text.trim text.toList ≠ exitStatement.toList := by
        rw [ht]
        decide
      have hmore : ¬ needsMore text = true := fun hm => (needsMore_iff.1 hm).1 hv
      have hb : begin text = (.skip, none) := by rw [begin, if_neg hmore, if_pos (by rw [hv]; rfl)]
      simp only [Chunk.inputs, List.singleton_append, scan, next, Reader.first, hp, if_neg he, hb, action]
  | script first more => exact scan_script h
  | dropped first more reason =>
      rw [Chunk.inputs, List.append_assoc, scan_lines h.1 h.2]
      rfl
  | stopped reason => rfl

theorem eq_of_action {chunk' : Chunk} (hi : chunk.inputs = chunk'.inputs) (ha : chunk.action = chunk'.action) :
    chunk = chunk' := by
  have hlines {more more' : List String} : more.map Input.line = more'.map Input.line ↔ more = more' :=
    List.map_inj_right fun _ _ => Input.line.inj
  cases chunk <;> cases chunk' <;> simp_all [Chunk.inputs, action]

/-- Inputs begin with one chunk at most. -/
theorem unique {chunk' : Chunk} {rest' : List Input} (h : chunk.Proper) (h' : chunk'.Proper)
    (he : chunk.inputs ++ rest = chunk'.inputs ++ rest') : chunk = chunk' ∧ rest = rest' := by
  have hscan := (scan_inputs h rest).symm.trans (he ▸ scan_inputs h' rest')
  obtain ⟨ha, rfl⟩ := Prod.mk.inj (Option.some.inj hscan)
  exact ⟨eq_of_action (List.append_cancel_right he) ha, rfl⟩

theorem inputs_ne_nil (chunk : Chunk) : chunk.inputs ≠ [] := by
  cases chunk <;> simp [Chunk.inputs]

theorem concat_proper (ha : ¬ Alone first) (h : ∀ k ≤ more.length, ¬ Ended (join first (more.take k))) {line : String}
    (he : Ended (join first (more ++ [line]))) : (script first (more ++ [line])).Proper := by
  refine ⟨ha, fun k hk => ?_⟩
  rw [List.length_append, List.length_singleton] at hk ⊢
  rcases Nat.le_or_eq_of_le_succ hk with hk | rfl
  · rw [List.take_append_of_le_length hk]
    exact iff_of_false (h k hk) (Nat.ne_of_lt (Nat.lt_succ_of_le hk))
  · rw [List.take_of_length_le (by simp)]
    exact iff_of_true he rfl

theorem open_concat (h : ∀ k ≤ more.length, ¬ Ended (join first (more.take k))) {line : String}
    (he : ¬ Ended (join first (more ++ [line]))) :
    ∀ k ≤ (more ++ [line]).length, ¬ Ended (join first ((more ++ [line]).take k)) := by
  intro k hk
  rw [List.length_append, List.length_singleton] at hk
  rcases Nat.le_or_eq_of_le_succ hk with hk | rfl
  · rw [List.take_append_of_le_length hk]
    exact h k hk
  · rwa [List.take_of_length_le (by simp)]

theorem exists_script (ha : ¬ Alone first) (h : ∀ k ≤ more.length, ¬ Ended (join first (more.take k)))
    {inputs : List Input} {reason : Interruption} (hr : .interrupted reason ∈ inputs) :
    ∃ (chunk : Chunk) (rest : List Input), chunk.Proper ∧ (first :: more).map .line ++ inputs = chunk.inputs ++ rest := by
  induction inputs generalizing more with
  | nil => exact absurd hr List.not_mem_nil
  | cons input inputs ih =>
      cases input with
      | interrupted reason => exact ⟨dropped first more reason, inputs, ⟨ha, h⟩, by simp [Chunk.inputs]⟩
      | line line =>
          by_cases he : Ended (join first (more ++ [line]))
          · exact ⟨script first (more ++ [line]), inputs, concat_proper ha h he, by simp [Chunk.inputs]⟩
          · have hr : .interrupted reason ∈ inputs := (List.mem_cons.1 hr).resolve_left nofun
            obtain ⟨chunk, rest, hc, hs⟩ := ih (open_concat h he) hr
            exact ⟨chunk, rest, hc, by rw [← hs]; simp⟩

/-- What comes up to an interruption begins with a chunk. -/
theorem exists_chunk {inputs : List Input} {reason : Interruption} (hr : .interrupted reason ∈ inputs) :
    ∃ (chunk : Chunk) (rest : List Input), chunk.Proper ∧ inputs = chunk.inputs ++ rest := by
  cases inputs with
  | nil => exact absurd hr List.not_mem_nil
  | cons input inputs =>
      cases input with
      | interrupted reason => exact ⟨stopped reason, inputs, trivial, rfl⟩
      | line first =>
          have hr : .interrupted reason ∈ inputs := (List.mem_cons.1 hr).resolve_left nofun
          by_cases ha : Alone first
          · rcases ha with hp | he | hv
            · obtain ⟨line, hp⟩ := Option.isSome_iff_exists.1 hp
              exact ⟨command first line, inputs, hp, rfl⟩
            · exact ⟨exit first, inputs, he, rfl⟩
            · exact ⟨blank first, inputs, hv, rfl⟩
          by_cases he : Ended first
          · refine ⟨script first [], inputs, ⟨ha, fun k hk => ?_⟩, rfl⟩
            obtain rfl := Nat.le_zero.1 hk
            exact iff_of_true (by rwa [List.take_nil, join_nil]) rfl
          · have hopen : ∀ k ≤ ([] : List String).length, ¬ Ended (join first (([] : List String).take k)) := by
              intro k _
              rwa [List.take_nil, join_nil]
            exact exists_script ha hopen hr

end Chunk

namespace Cuts

variable {inputs rest rest' : List Input} {chunks chunks' : List Chunk}

theorem eq_append (h : Cuts inputs chunks rest) : inputs = chunks.flatMap Chunk.inputs ++ rest := by
  induction h with
  | last => simp
  | next _ _ _ ih => rw [List.flatMap_cons, List.append_assoc, ← ih]

theorem append (h : Cuts inputs chunks rest) (more : List Input) : Cuts (inputs ++ more) chunks (rest ++ more) := by
  induction h with
  | last rest h hf =>
      rw [List.append_assoc]
      exact .last _ h hf
  | next h hf _ ih =>
      rw [List.append_assoc]
      exact .next h hf ih

/-- There is one way to cut the inputs. -/
theorem unique (h : Cuts inputs chunks rest) (h' : Cuts inputs chunks' rest') : chunks' = chunks ∧ rest' = rest := by
  induction h generalizing chunks' rest' with
  | @last chunk rest hp hf =>
      generalize he : chunk.inputs ++ rest = inputs at h'
      cases h' with
      | last rest' hp' hf' =>
          obtain ⟨rfl, rfl⟩ := Chunk.unique hp hp' he
          exact ⟨rfl, rfl⟩
      | next hp' hf' _ =>
          obtain ⟨rfl, -⟩ := Chunk.unique hp hp' he
          exact absurd (hf.symm.trans hf') nofun
  | @next chunk inputs chunks rest hp hf _ ih =>
      generalize he : chunk.inputs ++ inputs = inputs' at h'
      cases h' with
      | last rest' hp' hf' =>
          obtain ⟨rfl, -⟩ := Chunk.unique hp hp' he
          exact absurd (hf.symm.trans hf') nofun
      | next hp' hf' hc' =>
          obtain ⟨rfl, rfl⟩ := Chunk.unique hp hp' he
          obtain ⟨rfl, rfl⟩ := ih hc'
          exact ⟨rfl, rfl⟩

/-- Two ends are enough: the first one may be that of a pending script. -/
theorem exists_of_ended {first last : Interruption} (h : inputs = [] ∨ inputs.getLast? = some (.interrupted first)) :
    ∃ chunks rest, Cuts (inputs ++ [.interrupted last]) chunks rest := by
  induction hk : inputs.length using Nat.strongRecOn generalizing inputs with
  | _ k ih =>
      rcases h with rfl | h
      · exact ⟨[.stopped last], [], .last [] (show (Chunk.stopped last).Proper from trivial) rfl⟩
      obtain ⟨chunk, rest, hp, rfl⟩ := Chunk.exists_chunk (List.mem_of_getLast? h)
      rw [List.append_assoc]
      by_cases hf : chunk.isFinal = true
      · exact ⟨[chunk], _, .last _ hp hf⟩
      have hpos := List.length_pos_iff.2 chunk.inputs_ne_nil
      have hrest : rest = [] ∨ rest.getLast? = some (.interrupted first) := by
        rw [List.getLast?_append] at h
        cases hl : rest.getLast? with
        | none => exact .inl (List.getLast?_eq_none_iff.1 hl)
        | some input =>
            rw [hl] at h
            exact .inr h
      obtain ⟨chunks, left, hc⟩ := ih rest.length (by rw [← hk, List.length_append]; omega) hrest rfl
      exact ⟨chunk :: chunks, left, .next hp (by simpa using hf) hc⟩

theorem exists_cuts (results : List Input) (reason : Interruption) :
    ∃ chunks rest, Cuts (results ++ [.interrupted reason, .interrupted reason]) chunks rest := by
  have h : ∃ chunks rest, Cuts ((results ++ [.interrupted reason]) ++ [.interrupted reason]) chunks rest :=
    exists_of_ended (.inr List.getLast?_concat)
  rwa [List.append_assoc] at h

end Cuts

end IntScript
