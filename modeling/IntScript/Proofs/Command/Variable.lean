import IntScript.Command.Completion
import IntScript.Editor.Standard
import IntScript.Proofs.Evaluation.Sorted
import IntScript.Proofs.Session.Declared
import IntScript.Proofs.Text.Offset
import IntScript.Proofs.Token.Ending
import IntScript.Proofs.Token.Spaced

namespace IntScript

/-- The word is the longest one that the text ends with. It may be empty. -/
structure EndsWord (text head word : String) : Prop where
  join : text = head ++ word
  word : ∀ c ∈ word.toList, c.isAlphanum = true
  longest : ∀ c ∈ head.toList.getLast?, c.isAlphanum = false

namespace Lexer

variable {a : List Char} {t : Token}

/-- What is open where no word and no number ends goes on with an equals sign at most. -/
theorem not_accepts_of_last {l : Lexeme} {c : Char} (hl : (start.run a).lexeme = some l)
    (ha : ∀ d ∈ a.getLast?, d.isAlphanum = false) (hc : c.isAlphanum = true) : l.accepts c = false := by
  obtain ⟨hf, -⟩ := open_reaches hl
  rw [← Bool.not_eq_true, Lexeme.accepts_iff_fuses hf]
  have hlast : ∀ {P : Char → Prop}, (∀ d ∈ l.token.text.toList, P d) → ∃ d ∈ a.getLast?, P d := fun h => by
    obtain hne := (Lexeme.lexical_token hf).ne_nil
    refine ⟨l.token.text.toList.getLast hne, ?_, h _ (List.getLast_mem hne)⟩
    rw [← getLast?_open hl]
    exact List.getLast?_eq_some_getLast hne
  rintro (⟨hw, -⟩ | ⟨hd, -⟩ | ⟨-, rfl⟩)
  · obtain ⟨d, hd, hda⟩ := hlast (Token.alphanum_of_isWord hw)
    exact absurd (ha d hd) (by simp [hda])
  · obtain ⟨d, hd, hda⟩ := hlast (Token.alphanum_of_isDecimal hd)
    exact absurd (ha d hd) (by simp [hda])
  · exact absurd hc (by decide)

/-- A word or a number that is written where none ends is a token of its own. -/
theorem tokens_append_text (ha : ∀ d ∈ a.getLast?, d.isAlphanum = false) (ht : t.Lexical)
    (hc : ∀ c ∈ t.text.toList, c.isAlphanum = true) : tokens (a ++ t.text.toList) = tokens a ++ [t] := by
  rw [tokens_append, tokens_text ht]
  exact fun l hl c hm => not_accepts_of_last hl ha (hc c (List.mem_of_mem_head? hm))

end Lexer

theorem EndsWord.tokenize_append {text head word name : String} (h : EndsWord text head word) (hname : IsName name) :
    tokenize (head ++ name) = (tokenize head).push ⟨.identifier, name⟩ := by
  have ht : Token.Lexical ⟨.identifier, name⟩ := Token.lexical_of_isName hname
  have htokens := Lexer.tokens_append_text h.longest ht (Token.alphanum_of_isWord hname.1)
  rw [← Array.toList_inj, Array.toList_push, Lexer.toList_tokenize, Lexer.toList_tokenize, String.toList_append]
  exact htokens

namespace Completion

/-- The names that may stand at a cursor between two parts of a line, the first of which ends with a word: the variables
that go on with the word, each of which is read as such in its place. -/
structure Offers (env : Environment) (line : String) (cursor : Nat) (head word after : String) (names : List String) : Prop where
  line : line = head ++ word ++ after
  cursor : cursor = (head ++ word).utf8ByteSize
  ends : EndsWord (head ++ word) head word
  sorted : names.Pairwise (· < ·)
  declared : ∀ name, name ∈ names ↔ env.isDeclared name = true ∧ word.toList <+: name.toList
  read : ∀ name ∈ names, tokenize (head ++ name) = (tokenize head).push ⟨.identifier, name⟩

theorem exists_endsWord (text : String) : ∃ head word, EndsWord text head word := by
  let chars := text.toList.reverse
  let word := chars.takeWhile Char.isAlphanum
  let head := chars.dropWhile Char.isAlphanum
  have htext : text.toList = head.reverse ++ word.reverse := by
    rw [← List.reverse_append, List.takeWhile_append_dropWhile, List.reverse_reverse]
  refine ⟨String.ofList head.reverse, String.ofList word.reverse, ?_, ?_, ?_⟩
  · rw [← String.ofList_append, ← htext, String.ofList_toList]
  · intro c hc
    rw [String.toList_ofList, List.mem_reverse] at hc
    exact List.mem_takeWhile_imp hc
  · intro c hc
    rw [String.toList_ofList, List.getLast?_reverse] at hc
    have hdrop := List.head?_dropWhile_not Char.isAlphanum chars
    rwa [hc] at hdrop

variable {text head word : String}

theorem wordBefore_of_endsWord (h : EndsWord text head word) :
    wordBefore text.toList.reverse text.utf8ByteSize = (head.utf8ByteSize, word) := by
  have hhead : head.toList.reverse.takeWhile Char.isAlphanum = [] := by
    cases hr : head.toList.reverse with
    | nil => rfl
    | cons c cs =>
        have hc : c ∈ head.toList.getLast? := by rw [← List.head?_reverse, hr, List.head?_cons, Option.mem_def]
        exact List.takeWhile_cons_of_neg (by simp [h.longest c hc])
  have hword : text.toList.reverse.takeWhile Char.isAlphanum = word.toList.reverse := by
    rw [h.join, String.toList_append, List.reverse_append, List.takeWhile_append_of_pos, hhead, List.append_nil]
    exact fun c hc => h.word c (List.mem_reverse.1 hc)
  have hwidth : text.utf8ByteSize = head.utf8ByteSize + Text.width word.toList.reverse := by
    rw [Text.width_reverse, Text.width_toList, h.join, String.utf8ByteSize_append]
  rw [wordBefore, hword, hwidth, Nat.add_sub_cancel, List.reverse_reverse, String.ofList_toList]

/-- The word at the cursor begins where the longest word before it does. -/
theorem wordStart?_eq_some_iff {line : String} {cursor start : Nat} : wordStart? line cursor = some start ↔
    ∃ head word after, line = head ++ word ++ after ∧ cursor = (head ++ word).utf8ByteSize ∧
      EndsWord (head ++ word) head word ∧ start = head.utf8ByteSize := by
  rw [wordStart?, Option.map_eq_some_iff]
  constructor
  · rintro ⟨⟨before, after⟩, hcut, rfl⟩
    obtain ⟨hline, rfl⟩ := Text.cut?_eq_some_iff.1 hcut
    obtain ⟨head, word, hends⟩ := exists_endsWord (String.ofList before.reverse)
    have hword := wordBefore_of_endsWord hends
    rw [String.toList_ofList, List.reverse_reverse, ← Text.width_toList, String.toList_ofList, Text.width_reverse] at hword
    refine ⟨head, word, String.ofList after, ?_, ?_, hends.join ▸ hends, congrArg Prod.fst hword⟩
    · rw [← hends.join, ← String.ofList_append, ← hline, String.ofList_toList]
    · rw [← hends.join, ← Text.width_toList, String.toList_ofList, Text.width_reverse]
  · rintro ⟨head, word, after, rfl, rfl, hends, rfl⟩
    refine ⟨((head ++ word).toList.reverse, after.toList), ?_, congrArg Prod.fst (wordBefore_of_endsWord hends)⟩
    rw [String.toList_append, ← Text.width_toList, Text.cut?_append]

theorem wordStart?_eq_none_iff {line : String} {cursor : Nat} :
    wordStart? line cursor = none ↔ ¬ String.Pos.Raw.IsValid line ⟨cursor⟩ := by
  rw [wordStart?, Option.map_eq_none_iff, ← Text.isSome_cut?_iff, Option.not_isSome_iff_eq_none]

theorem exists_variableNames (env : Environment) (text : String) : ∃ head word, EndsWord text head word ∧
    variableNames env text.toList.reverse text.utf8ByteSize = ⟨head.utf8ByteSize, (env.namesFrom word).map .word⟩ := by
  obtain ⟨head, word, hends⟩ := exists_endsWord text
  exact ⟨head, word, hends, by rw [variableNames, wordBefore_of_endsWord hends]⟩

variable {env : Environment} {d : Directory} {before after : String}

/-- At the cursor of a line that is not a command there are variables. -/
theorem complete?_script [LineEditor] (hne : before ≠ "") (hcolon : (before ++ after).toList.head? ≠ some ':') :
    complete? env d (before ++ after) before.utf8ByteSize =
      some (variableNames env before.toList.reverse before.utf8ByteSize) := by
  have hcut : Text.cut? (before ++ after).toList before.utf8ByteSize = some (before.toList.reverse, after.toList) := by
    rw [String.toList_append, ← Text.width_toList, Text.cut?_append]
  rw [complete?, if_neg fun hzero => hne (String.utf8ByteSize_eq_zero_iff.1 hzero)]
  split
  next hnil =>
    rw [String.toList_append, List.append_eq_nil_iff, String.toList_eq_nil_iff] at hnil
    exact absurd hnil.1 hne
  next hcommand => exact absurd (congrArg List.head? hcommand) hcolon
  next => rw [hcut, Option.bind_eq_bind, Option.bind_some]

/-- Where a script is typed, exactly those variables are offered that go on with the word before the cursor, and to
accept one of them is to write its name. -/
theorem complete_variable [LineEditor] {s : Session} (hs : s.Reached) (d : Directory) {line : String} {cursor : Nat}
    (hcolon : line.toList.head? ≠ some ':') (hpos : 0 < cursor) (hcursor : String.Pos.Raw.IsValid line ⟨cursor⟩) :
    ∃ head word after names, Offers s.env line cursor head word after names ∧
      complete? s.env d line cursor = some ⟨head.utf8ByteSize, names.map .word⟩ := by
  obtain ⟨before, after, rfl, hoffset⟩ := String.Pos.Raw.isValid_iff_exists_append.1 hcursor
  obtain rfl : cursor = before.utf8ByteSize := congrArg String.Pos.Raw.byteIdx hoffset
  have hne : before ≠ "" := fun he => absurd hpos (by rw [he]; exact Nat.lt_irrefl 0)
  obtain ⟨head, word, hends, hnames⟩ := exists_variableNames s.env before
  obtain rfl := hends.join
  refine ⟨head, word, after, s.env.namesFrom word, ⟨rfl, rfl, hends, ?_, ?_, ?_⟩, ?_⟩
  · exact s.env.sorted_namesFrom word
  · exact fun name => Environment.mem_namesFrom
  · exact fun name hname => hends.tokenize_append (hs.named name (Environment.mem_namesFrom.1 hname).1)
  · rw [complete?_script hne hcolon, hnames]

def ageDeclared : Session := (Session.start.run "int age; int b;").session

theorem complete_variable_ageDeclared :
    ageDeclared.Reached ∧ "é+ag;".toList.head? ≠ some ':' ∧ String.Pos.Raw.IsValid "é+ag;" ⟨5⟩ ∧
    ∃ head word after names, Offers ageDeclared.env "é+ag;" 5 head word after names ∧
      complete? ageDeclared.env ⟨"", ⟨[]⟩⟩ "é+ag;" 5 = some ⟨head.utf8ByteSize, names.map .word⟩ := by
  have hs : ageDeclared.Reached := Session.Reached.run .start "int age; int b;"
  have hcolon : "é+ag;".toList.head? ≠ some ':' := by decide
  have hcursor : String.Pos.Raw.IsValid "é+ag;" ⟨5⟩ :=
    String.Pos.Raw.isValid_iff_exists_append.2 ⟨"é+ag", ";", by decide, by decide⟩
  exact ⟨hs, hcolon, hcursor, complete_variable hs ⟨"", ⟨[]⟩⟩ hcolon (by decide) hcursor⟩

example : complete? ageDeclared.env ⟨"", ⟨[]⟩⟩ "é+ag;" 5 = some ⟨3, [.word "age"]⟩ := by decide +kernel

end Completion

end IntScript
