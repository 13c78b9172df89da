import IntScript.Proofs.Grammar.Join
import IntScript.Proofs.Grammar.Written
import IntScript.Proofs.Text.Nesting
import IntScript.Proofs.Tree.Nodes

namespace IntScript

open Token

variable {n k : Nat} {e : Expr} {x : Stmt} {xs : List Stmt} {rest : List Char} {us : List Token}

theorem plain_of_alphanum {cs : List Char} (h : ∀ c ∈ cs, c.isAlphanum = true) : Text.Plain cs :=
  ⟨fun hm => absurd (h _ hm) (by decide), fun hm => absurd (h _ hm) (by decide)⟩

namespace Token

theorem lexical_of_isName {name : String} (h : IsName name) : Lexical ⟨.identifier, name⟩ := by
  obtain ⟨hw, hi, hf, he⟩ := h
  refine .identifier hw fun t ht => ?_
  simp only [keywords, List.mem_cons, List.not_mem_nil, or_false] at ht
  rcases ht with rfl | rfl | rfl
  · exact hi.symm
  · exact hf.symm
  · exact he.symm

/-- A word or a number ends before what is neither a letter nor a digit. -/
theorem not_fuses_of_alphanum {t : Token} {c : Char} (ht : ∀ d ∈ t.text.toList, d.isAlphanum = true)
    (hc : c.isAlphanum = false) : ¬ t.Fuses c := by
  rintro (⟨-, ha⟩ | ⟨-, hd⟩ | ⟨hs | hs, -⟩)
  · simp [hc] at ha
  · simp [Char.isAlphanum, hd] at hc
  · rw [hs] at ht
    exact absurd (ht '>' (by decide)) (by decide)
  · rw [hs] at ht
    exact absurd (ht '<' (by decide)) (by decide)

namespace Segmentation

theorem word {t : Token} (ht : t.Lexical) (ha : ∀ d ∈ t.text.toList, d.isAlphanum = true)
    (hc : ∀ c ∈ rest.head?, c.isAlphanum = false) (h : Segmentation rest us) :
    Segmentation (t.text.toList ++ rest) (t :: us) :=
  .token (longest_of_not_fuses ht fun c hm => not_fuses_of_alphanum ha (hc c hm)) h

theorem symbol {t : Token} (ht : t ∈ symbols) (hne : t.text ≠ ">" ∧ t.text ≠ "<") (h : Segmentation rest us) :
    Segmentation (t.text.toList ++ rest) (t :: us) := by
  refine .token (longest_of_not_fuses (.symbol ht) fun c _ => ?_) h
  rintro (⟨hw, -⟩ | ⟨hd, -⟩ | ⟨hs | hs, -⟩)
  · exact not_isWord_of_symbol ht hw
  · exact not_isDecimal_of_symbol ht hd
  · exact hne.1 hs
  · exact hne.2 hs

end Segmentation

end Token

namespace Expr

theorem toList_writeAt_of_lt (h : e.rank < k) : (e.writeAt k).toList = '(' :: (e.write.toList ++ [')']) := by
  simp [writeAt, parenthesize, h]

theorem writeAt_of_le (h : k ≤ e.rank) : e.writeAt k = e.write := by
  simp [writeAt, parenthesize, Nat.not_lt.2 h]

end Expr

theorem segmentation_writeAt (hc : ∀ c ∈ rest.head?, c.isAlphanum = false) (hs : Segmentation rest us)
    (h : ∀ rest us, (∀ c ∈ rest.head?, c.isAlphanum = false) → Segmentation rest us →
      Segmentation (e.write.toList ++ rest) (e.tokens ++ us)) :
    Segmentation ((e.writeAt k).toList ++ rest) (e.tokensAt k ++ us) := by
  by_cases hlt : e.rank < k
  · rw [Expr.toList_writeAt_of_lt hlt, Expr.tokensAt_of_lt hlt]
    have hr : Segmentation (')' :: rest) (⟨.rightParen, ")"⟩ :: us) :=
      hs.symbol (t := ⟨.rightParen, ")"⟩) (by decide) (by decide)
    have hin := h (')' :: rest) _ (by simp) hr
    simpa using Segmentation.symbol (t := ⟨.leftParen, "("⟩) (by decide) (by decide) hin
  · rw [Expr.writeAt_of_le (Nat.le_of_not_lt hlt), Expr.tokensAt_of_le (Nat.le_of_not_lt hlt)]
    exact h rest us hc hs

theorem operator_mem_symbols (op : Operator) : (⟨op.kind, op.symbol⟩ : Token) ∈ symbols := by
  cases op <;> decide

theorem segmentation_write (he : e.WellNamed) (hc : ∀ c ∈ rest.head?, c.isAlphanum = false)
    (h : Segmentation rest us) : Segmentation (e.write.toList ++ rest) (e.tokens ++ us) := by
  induction e generalizing rest us with
  | literal text => exact h.word (.literal he) (alphanum_of_isDecimal he) hc
  | identifier name => exact h.word (lexical_of_isName he) (alphanum_of_isWord he.1) hc
  | binary op left right ihl ihr =>
      have hright := segmentation_writeAt (k := op.rank + 1) hc h fun _ _ => ihr he.2
      have hop : Segmentation (op.symbol.toList ++ ((right.writeAt (op.rank + 1)).toList ++ rest))
          (⟨op.kind, op.symbol⟩ :: (right.tokensAt (op.rank + 1) ++ us)) := by
        refine hright.symbol (operator_mem_symbols op) ?_
        cases op <;> decide
      have hhead : ∀ c ∈ (op.symbol.toList ++ ((right.writeAt (op.rank + 1)).toList ++ rest)).head?,
          c.isAlphanum = false := by
        cases op <;> simp [Operator.symbol]
      have hleft := segmentation_writeAt (k := op.rank) hhead hop fun _ _ => ihl he.1
      simpa [Expr.write_binary, Expr.tokens_binary] using hleft

theorem segmentation_int {name : String} (hn : IsName name) (hc : ∀ c ∈ rest.head?, c.isAlphanum = false)
    (h : Segmentation rest us) :
    Segmentation ("int ".toList ++ (name.toList ++ rest)) (⟨.keywordInt, "int"⟩ :: ⟨.identifier, name⟩ :: us) := by
  have hname : Segmentation (name.toList ++ rest) (⟨.identifier, name⟩ :: us) :=
    h.word (lexical_of_isName hn) (alphanum_of_isWord hn.1) hc
  have hspace : Segmentation (' ' :: (name.toList ++ rest)) (⟨.identifier, name⟩ :: us) :=
    .ignored ⟨by decide, by decide⟩ hname
  have hint : Segmentation ("int".toList ++ ' ' :: (name.toList ++ rest)) _ :=
    hspace.word (t := ⟨.keywordInt, "int"⟩) (.keyword (by decide))
      (alphanum_of_isWord (isWord_of_keyword (t := ⟨.keywordInt, "int"⟩) (by decide))) (by simp)
  exact hint

theorem segmentation_semicolon (h : Segmentation rest us) : Segmentation (';' :: rest) (⟨.semicolon, ";"⟩ :: us) :=
  h.symbol (t := ⟨.semicolon, ";"⟩) (by decide) (by decide)

theorem segmentation_value (he : e.WellNamed) (h : Segmentation rest us) :
    Segmentation (e.write.toList ++ ';' :: rest) (e.tokens ++ ⟨.semicolon, ";"⟩ :: us) :=
  segmentation_write he (by simp) (segmentation_semicolon h)

theorem segmentation_equals (he : e.WellNamed) (h : Segmentation rest us) :
    Segmentation ('=' :: (e.write.toList ++ ';' :: rest)) (⟨.assign, "="⟩ :: (e.tokens ++ ⟨.semicolon, ";"⟩ :: us)) :=
  (segmentation_value he h).symbol (t := ⟨.assign, "="⟩) (by decide) (by decide)

theorem segmentation_statement (hx : x.WellNamed) (h : Segmentation rest us) :
    Segmentation (x.write.toList ++ rest) (x.tokens ++ us) := by
  cases x with
  | declaration name init? =>
      cases init? with
      | none => simpa [Stmt.write, Stmt.tokens] using segmentation_int hx.1 (by simp) (segmentation_semicolon h)
      | some init =>
          have hvalue := segmentation_equals (hx.2 init rfl) h
          simpa [Stmt.write, Stmt.tokens] using segmentation_int hx.1 (by simp) hvalue
  | assignment name value =>
      have hvalue := segmentation_equals hx.2 h
      have hname := hvalue.word (lexical_of_isName hx.1) (alphanum_of_isWord hx.1.1) (by simp)
      simpa [Stmt.write, Stmt.tokens] using hname
  | expression value => simpa [Stmt.write, Stmt.tokens] using segmentation_value hx h

theorem toList_writeProgram (x : Stmt) (xs : List Stmt) :
    (writeProgram (x :: xs)).toList = x.write.toList ++ (writeProgram xs).toList := by
  rw [writeProgram, List.map_cons, String.join_cons, String.toList_append]
  rfl

theorem segmentation_program (h : ∀ x ∈ xs, x.WellNamed) :
    Segmentation (writeProgram xs).toList (xs.flatMap Stmt.tokens) := by
  induction xs with
  | nil => exact .nil
  | cons x xs ih =>
      rw [toList_writeProgram, List.flatMap_cons]
      obtain ⟨hx, hxs⟩ := List.forall_mem_cons.1 h
      exact segmentation_statement hx (ih hxs)

theorem tokenize_writeProgram (h : ∀ x ∈ xs, x.WellNamed) :
    (tokenize (writeProgram xs)).toList = xs.flatMap Stmt.tokens :=
  (segmentation_tokenize _).unique (segmentation_program h)

section Nesting

open Text

theorem balanced_writeAt (h : Balanced e.write.toList) : Balanced (e.writeAt k).toList := by
  by_cases hlt : e.rank < k
  · rw [Expr.toList_writeAt_of_lt hlt]
    exact h.group
  · rw [Expr.writeAt_of_le (Nat.le_of_not_lt hlt)]
    exact h

theorem plain_symbol (op : Operator) : Plain op.symbol.toList := by
  cases op <;> exact ⟨by decide, by decide⟩

theorem toList_write_binary (op : Operator) (left right : Expr) :
    (Expr.binary op left right).write.toList =
      (left.writeAt op.rank).toList ++ (op.symbol.toList ++ (right.writeAt (op.rank + 1)).toList) := by
  rw [Expr.write_binary, String.toList_append, String.toList_append, List.append_assoc]

theorem balanced_write (he : e.WellNamed) : Balanced e.write.toList := by
  induction e with
  | literal text => exact (plain_of_alphanum (alphanum_of_isDecimal he)).balanced
  | identifier name => exact (plain_of_alphanum (alphanum_of_isWord he.1)).balanced
  | binary op left right ihl ihr =>
      rw [toList_write_binary]
      exact (balanced_writeAt (ihl he.1)).append ((plain_symbol op).balanced.append (balanced_writeAt (ihr he.2)))

theorem opensAtMost_writeAt (h : ∀ n, OpensAtMost n e.write.toList ↔ e.depth ≤ n) :
    OpensAtMost n (e.writeAt k).toList ↔ e.depthAt k ≤ n := by
  by_cases hlt : e.rank < k
  · rw [Expr.toList_writeAt_of_lt hlt, Expr.depthAt_of_lt hlt]
    cases n with
    | zero => exact iff_of_false (not_opensAtMost_zero _) (Nat.not_succ_le_zero _)
    | succ n => rw [opensAtMost_group, h, Nat.succ_le_succ_iff]
  · rw [Expr.writeAt_of_le (Nat.le_of_not_lt hlt), Expr.depthAt_of_le (Nat.le_of_not_lt hlt), h]

theorem opensAtMost_write (he : e.WellNamed) : OpensAtMost n e.write.toList ↔ e.depth ≤ n := by
  induction e generalizing n with
  | literal text =>
      exact iff_of_true ((plain_of_alphanum (alphanum_of_isDecimal he)).opensAtMost n) (Nat.zero_le n)
  | identifier name =>
      exact iff_of_true ((plain_of_alphanum (alphanum_of_isWord he.1)).opensAtMost n) (Nat.zero_le n)
  | binary op left right ihl ihr =>
      rw [toList_write_binary, opensAtMost_append (balanced_writeAt (balanced_write he.1)),
        opensAtMost_append (plain_symbol op).balanced, opensAtMost_writeAt fun _ => ihl he.1,
        opensAtMost_writeAt fun _ => ihr he.2, Expr.depth_binary, Nat.max_le]
      constructor
      · exact fun h => ⟨h.1, h.2.2⟩
      · exact fun h => ⟨h.1, (plain_symbol op).opensAtMost n, h.2⟩

/-- The text of a statement is that of its expression, with no more parentheses around it. -/
theorem write_between (hx : x.WellNamed) : ∃ a b, Plain a ∧ Plain b ∧
    x.write.toList = a ++ ((x.expr?.elim [] (·.write.toList)) ++ b) := by
  have hint : Plain "int ".toList := ⟨by decide, by decide⟩
  have hequals : Plain ['='] := ⟨by decide, by decide⟩
  have hsemicolon : Plain [';'] := ⟨by decide, by decide⟩
  cases x with
  | declaration name init? =>
      have hname := plain_of_alphanum (alphanum_of_isWord hx.1.1)
      cases init? with
      | none => exact ⟨_, _, hint.append hname, hsemicolon, by simp [Stmt.write, Stmt.expr?]⟩
      | some init =>
          exact ⟨_, _, (hint.append hname).append hequals, hsemicolon, by simp [Stmt.write, Stmt.expr?]⟩
  | assignment name value =>
      have hname := plain_of_alphanum (alphanum_of_isWord hx.1.1)
      exact ⟨_, _, hname.append hequals, hsemicolon, by simp [Stmt.write, Stmt.expr?]⟩
  | expression value => exact ⟨[], _, ⟨by simp, by simp⟩, hsemicolon, by simp [Stmt.write, Stmt.expr?]⟩

theorem wellNamed_expr (hx : x.WellNamed) {e : Expr} (he : x.expr? = some e) : e.WellNamed := by
  cases x with
  | declaration name init? => exact hx.2 e he
  | assignment name value => exact Option.some.inj he ▸ hx.2
  | expression value => exact Option.some.inj he ▸ hx

theorem balanced_statement (hx : x.WellNamed) : Balanced x.write.toList := by
  obtain ⟨a, b, ha, hb, hs⟩ := write_between hx
  rw [hs]
  refine ha.balanced.append (Balanced.append ?_ hb.balanced)
  cases he : x.expr? with
  | none => rfl
  | some e => exact balanced_write (wellNamed_expr hx he)

theorem opensAtMost_statement (hx : x.WellNamed) : OpensAtMost n x.write.toList ↔ x.depth ≤ n := by
  obtain ⟨a, b, ha, hb, hs⟩ := write_between hx
  rw [hs, Stmt.depth]
  cases he : x.expr? with
  | none => exact iff_of_true ((ha.append (hb : Plain b)).opensAtMost n) (Nat.zero_le n)
  | some e =>
      have hw := wellNamed_expr hx he
      exact (opensAtMost_between ha hb (balanced_write hw)).trans (opensAtMost_write hw)

theorem opensAtMost_program (h : ∀ x ∈ xs, x.WellNamed) :
    OpensAtMost n (writeProgram xs).toList ↔ ∀ x ∈ xs, x.depth ≤ n := by
  induction xs with
  | nil =>
      have hplain : Plain (writeProgram []).toList := ⟨List.not_mem_nil, List.not_mem_nil⟩
      exact iff_of_true (hplain.opensAtMost n) fun x hx => absurd hx List.not_mem_nil
  | cons x xs ih =>
      obtain ⟨hx, hxs⟩ := List.forall_mem_cons.1 h
      rw [toList_writeProgram, opensAtMost_append (balanced_statement hx), opensAtMost_statement hx, ih hxs,
        List.forall_mem_cons]

end Nesting

open Grammar

/-- Parsing takes back what writing does, where the text keeps to the limit of parentheses, and every text
that can be parsed has a tree whose own text does. -/
theorem parse_writeProgram :
    (∀ xs, (∀ x ∈ xs, Stmt.WellNamed x) →
      (Text.OpensAtMost maxNesting (writeProgram xs).toList →
        ∃ a, parse (writeProgram xs) = .ok a ∧ ∀ ys, a.HoldsProgram ys ↔ ys = xs) ∧
      (¬ Text.OpensAtMost maxNesting (writeProgram xs).toList →
        ∃ e, parse (writeProgram xs) = .error e ∧ e.reason = .nestingTooDeep)) ∧
    ∀ source a, parse source = .ok a →
      ∃ xs, (∀ ys, a.HoldsProgram ys ↔ ys = xs) ∧ (∀ x ∈ xs, Stmt.WellNamed x) ∧
        Text.OpensAtMost maxNesting (writeProgram xs).toList ∧ parse (writeProgram xs) = .ok a := by
  have hholds (xs ys : List Stmt) : (Arena.empty.graftProgram [] xs).HoldsProgram ys ↔ ys = xs := by
    constructor
    · exact fun h => Arena.HoldsProgram.unique h (holdsProgram_empty xs)
    · rintro rfl
      exact holdsProgram_empty ys
  have hwrite {xs : List Stmt} (h : ∀ x ∈ xs, x.WellNamed) (hd : ∀ x ∈ xs, x.depth ≤ maxNesting) :
      parse (writeProgram xs) = .ok (Arena.empty.graftProgram [] xs) := by
    refine Parses.parse_eq ?_
    rw [Parses, tokenize_writeProgram h]
    exact program_tokens hd
  refine ⟨fun xs h => ⟨fun ho => ?_, fun ho => ?_⟩, fun source a ha => ?_⟩
  · exact ⟨_, hwrite h ((opensAtMost_program h).1 ho), hholds xs⟩
  · rw [opensAtMost_program h] at ho
    exact parseProgram_tooDeep (tokenize_writeProgram h) ho
  · obtain ⟨xs, hxs, rfl⟩ := parses_of_parse ha
    have hnamed : ∀ x ∈ xs, x.WellNamed :=
      wellNamed_of_program hxs fun t ht => lexical_of_mem_tokenize (Array.mem_toList_iff.1 ht)
    have hdepth := depth_le_of_program hxs
    exact ⟨xs, hholds xs, hnamed, (opensAtMost_program hnamed).2 hdepth, hwrite hnamed hdepth⟩

def nestedDifference : List Stmt :=
  [.assignment "x" (.binary .sub (.literal "1") (.binary .sub (.literal "2") (.identifier "y")))]

theorem parse_writeProgram_nested :
    writeProgram nestedDifference = "x=1-(2-y);" ∧ (∀ x ∈ nestedDifference, Stmt.WellNamed x) ∧
    Text.OpensAtMost maxNesting (writeProgram nestedDifference).toList ∧
    (∃ a, parse (writeProgram nestedDifference) = .ok a ∧ ∀ ys, a.HoldsProgram ys ↔ ys = nestedDifference) ∧
    parse "(x);" = .ok (Arena.empty.graftProgram [] [.expression (.identifier "x")]) ∧
    ∃ xs, (∀ ys, (Arena.empty.graftProgram [] [.expression (.identifier "x")]).HoldsProgram ys ↔ ys = xs) ∧
      (∀ x ∈ xs, Stmt.WellNamed x) ∧ Text.OpensAtMost maxNesting (writeProgram xs).toList ∧
      parse (writeProgram xs) = .ok (Arena.empty.graftProgram [] [.expression (.identifier "x")]) := by
  have hx : IsName "x" := ⟨⟨'x', [], rfl, by decide, List.forall_mem_nil _⟩, by decide, by decide, by decide⟩
  have hy : IsName "y" := ⟨⟨'y', [], rfl, by decide, List.forall_mem_nil _⟩, by decide, by decide, by decide⟩
  have hone : Number.IsDecimal "1" := ⟨by decide, List.all_eq_true.1 (by decide)⟩
  have htwo : Number.IsDecimal "2" := ⟨by decide, List.all_eq_true.1 (by decide)⟩
  have hnamed : ∀ x ∈ nestedDifference, Stmt.WellNamed x := List.forall_mem_singleton.2 ⟨hx, hone, htwo, hy⟩
  have hopens : Text.OpensAtMost maxNesting (writeProgram nestedDifference).toList :=
    (opensAtMost_program hnamed).2 (by decide)
  have hparse : parse "(x);" = .ok (Arena.empty.graftProgram [] [.expression (.identifier "x")]) := rfl
  exact ⟨by decide, hnamed, hopens, (parse_writeProgram.1 nestedDifference hnamed).1 hopens, hparse,
    parse_writeProgram.2 _ _ hparse⟩

end IntScript
