import IntScript.Command.Completion
import IntScript.Editor.Standard
import IntScript.Proofs.Text.Offset
import Mathlib.Data.List.Infix

namespace IntScript

def Command.nameOf (typed : String) : String := String.ofList (typed.toList.takeWhile (· ≠ ' '))

namespace Completion

variable {typed : String}

/-- The names of commands take one byte for each character. -/
theorem width_of_ofName? {name : String} {c : Command} (h : Command.ofName? name = some c) :
    Text.width name.toList = name.length := by
  have hall : ∀ c ∈ Command.all, Text.width c.shortName.toList = c.shortName.length ∧
      Text.width c.longName.toList = c.longName.length := by decide
  obtain ⟨hshort, hlong⟩ := hall c (List.mem_of_find?_eq_some h)
  have hname := List.find?_some h
  rw [Bool.or_eq_true, beq_iff_eq, beq_iff_eq] at hname
  rcases hname with rfl | rfl
  · exact hshort
  · exact hlong

theorem eq_of_prefix_of_width {as bs : List Char} (h : as <+: bs) (hwidth : Text.width as = Text.width bs) : as = bs := by
  obtain ⟨cs, rfl⟩ := h
  rw [Text.width_append] at hwidth
  have hle := Text.length_le_width cs
  obtain rfl : cs = [] := List.eq_nil_of_length_eq_zero (by omega)
  rw [List.append_nil]

/-- What is cut off from a text where a name in front of it has as many bytes as characters is found exactly where the
name is. -/
theorem ofName?_cut {part name : String} {text : List Char} (hpart : part.toList <+: text) (hname : name.toList <+: text)
    (hwidth : Text.width part.toList = name.length) : Command.ofName? part = Command.ofName? name := by
  have hprefix := List.prefix_or_prefix_of_prefix hpart hname
  -- Where one of the two is found, it has as many characters as bytes, and then so does the other.
  have heq (h : (∃ c, Command.ofName? part = some c) ∨ ∃ c, Command.ofName? name = some c) : part = name := by
    rcases h with ⟨c, hc⟩ | ⟨c, hc⟩
    · have hlength : part.toList.length = name.toList.length := (width_of_ofName? hc).symm.trans hwidth
      rcases hprefix with h | h
      · exact String.toList_inj.1 (h.eq_of_length hlength)
      · exact (String.toList_inj.1 (h.eq_of_length hlength.symm)).symm
    · have hsame : Text.width part.toList = Text.width name.toList := hwidth.trans (width_of_ofName? hc).symm
      rcases hprefix with h | h
      · exact String.toList_inj.1 (eq_of_prefix_of_width h hsame)
      · exact (String.toList_inj.1 (eq_of_prefix_of_width h hsame.symm)).symm
  cases hp : Command.ofName? part with
  | some c => rw [← hp, heq (.inl ⟨c, hp⟩)]
  | none =>
      cases hn : Command.ofName? name with
      | some c => rw [← hp, heq (.inr ⟨c, hn⟩), hn]
      | none => rfl

theorem idxOf_space (typed : String) : typed.toList.idxOf ' ' = (Command.nameOf typed).length := by
  have hname : (Command.nameOf typed).toList = typed.toList.take (typed.toList.idxOf ' ') := by
    rw [Command.nameOf, String.toList_ofList, List.takeWhile_eq_take_findIdx_not, List.idxOf]
    congr 2
    funext c
    rw [decide_not, Bool.not_not, beq_eq_decide]
  rw [← String.length_toList, hname, List.length_take, Nat.min_eq_left List.idxOf_le_length]

theorem nameOf_prefix_toList (typed : String) : (Command.nameOf typed).toList <+: typed.toList := by
  rw [Command.nameOf, String.toList_ofList]
  exact List.takeWhile_prefix _

section

variable [LineEditor]

/-- What should be offered behind a colon and the given text. -/
def forCommand (env : Environment) (d : Directory) (typed after : String) : Completion :=
  let line := ":" ++ typed
  if ' ' ∈ typed.toList then
    match Command.ofName? (Command.nameOf typed) with
    | some .load => LineEditor.fileNames d (line ++ after) line.utf8ByteSize
    | some c => if c.takesArgument then variableNames env line.toList.reverse line.utf8ByteSize else nothing
    | none => nothing
  else
    match Command.ofStem? typed with
    | some c => ⟨1, [.word c.longName]⟩
    | none => nothing

variable {env : Environment} {d : Directory} {after : String}

theorem complete?_command (typed after : String) : complete? env d (":" ++ typed ++ after) (":" ++ typed).utf8ByteSize =
    command? env d (":" ++ typed ++ after) (":" ++ typed).toList.reverse typed.toList (":" ++ typed).utf8ByteSize := by
  have hsize : (":" ++ typed).utf8ByteSize = Text.width typed.toList + 1 := by
    rw [String.utf8ByteSize_append, Text.width_toList, Nat.add_comm]
    rfl
  have hchars : (":" ++ typed).toList = ':' :: typed.toList := by
    rw [String.toList_append]
    rfl
  have hline : (":" ++ typed ++ after).toList = ':' :: (typed.toList ++ after.toList) := by
    rw [String.toList_append, hchars, List.cons_append]
  rw [complete?, hsize, if_neg (Nat.succ_ne_zero _), hline, hchars]
  change (Text.cut? (typed.toList ++ after.toList) (Text.width typed.toList) >>= fun cut =>
    command? env d (":" ++ typed ++ after) (cut.1 ++ [':']) cut.1.reverse (Text.width typed.toList + 1)) = _
  rw [Text.cut?_append, Option.bind_eq_bind, Option.bind_some, List.reverse_reverse, List.reverse_cons]

theorem command?_of_cut {part rest : List Char} (h : ' ' ∈ typed.toList)
    (hcut : Text.cut? typed.toList (Command.nameOf typed).length = some (part, rest)) :
    command? env d (":" ++ typed ++ after) (":" ++ typed).toList.reverse typed.toList (":" ++ typed).utf8ByteSize =
      some (forCommand env d typed after) := by
  obtain ⟨htext, hwidth⟩ := Text.cut?_eq_some_iff.1 hcut
  have hpart : (String.ofList part.reverse).toList <+: typed.toList := by
    rw [String.toList_ofList]
    exact ⟨rest, htext.symm⟩
  have hname : Command.ofName? (String.ofList part.reverse) = Command.ofName? (Command.nameOf typed) := by
    refine ofName?_cut hpart (nameOf_prefix_toList typed) ?_
    rw [String.toList_ofList, Text.width_reverse, hwidth]
  rw [command?, if_pos (List.contains_iff_mem.2 h), idxOf_space, hcut, Option.map_some]
  dsimp only
  rw [hname]
  exact congrArg some (if_pos h).symm

theorem complete?_of_isValid (h : ' ' ∈ typed.toList → String.Pos.Raw.IsValid typed ⟨(Command.nameOf typed).length⟩) :
    complete? env d (":" ++ typed ++ after) (":" ++ typed).utf8ByteSize = some (forCommand env d typed after) := by
  rw [complete?_command]
  by_cases hs : ' ' ∈ typed.toList
  · obtain ⟨cut, hcut⟩ := Option.isSome_iff_exists.1 (Text.isSome_cut?_iff.2 (h hs))
    exact command?_of_cut hs hcut
  · rw [command?, if_neg fun hc => hs (List.contains_iff_mem.1 hc), String.ofList_toList]
    exact congrArg some (if_neg hs).symm

/-- For a command that exists the completion does not fail. -/
theorem complete?_of_ofName? {c : Command} (h : Command.ofName? (Command.nameOf typed) = some c) :
    complete? env d (":" ++ typed ++ after) (":" ++ typed).utf8ByteSize = some (forCommand env d typed after) := by
  obtain ⟨rest, hrest⟩ := nameOf_prefix_toList typed
  refine complete?_of_isValid fun _ => Text.isSome_cut?_iff.1 ?_
  rw [← hrest, ← width_of_ofName? h, Text.cut?_append]
  rfl

/-- Behind a colon the right candidates are offered, or the completion fails. It does so exactly where a space follows the
name and as many bytes as the name has characters end inside one of them. -/
theorem complete_command (env : Environment) (d : Directory) (typed after : String) :
    (complete? env d (":" ++ typed ++ after) (":" ++ typed).utf8ByteSize = none ↔
      ' ' ∈ typed.toList ∧ ¬ String.Pos.Raw.IsValid typed ⟨(Command.nameOf typed).length⟩) ∧
    ∀ c, complete? env d (":" ++ typed ++ after) (":" ++ typed).utf8ByteSize = some c → c = forCommand env d typed after := by
  by_cases h : ' ' ∈ typed.toList ∧ ¬ String.Pos.Raw.IsValid typed ⟨(Command.nameOf typed).length⟩
  · have hcut : Text.cut? typed.toList (Command.nameOf typed).length = none := by
      rw [← Option.not_isSome_iff_eq_none, Text.isSome_cut?_iff]
      exact h.2
    rw [complete?_command, command?, if_pos (List.contains_iff_mem.2 h.1), idxOf_space, hcut, Option.map_none]
    exact ⟨iff_of_true rfl h, nofun⟩
  · rw [complete?_of_isValid fun hs => by_contra fun hn => h ⟨hs, hn⟩]
    exact ⟨iff_of_false nofun h, fun c hc => (Option.some.inj hc).symm⟩

end

/-- The space after a letter of two bytes is taken to be at the second of them. -/
theorem complete_command_letter : complete? .empty ⟨"", ⟨[]⟩⟩ ":é x" 5 = none ∧
    forCommand .empty ⟨"", ⟨[]⟩⟩ "é x" "" = nothing := by decide

end Completion

end IntScript
