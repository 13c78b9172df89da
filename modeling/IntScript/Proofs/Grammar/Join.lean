import IntScript.Proofs.Grammar.Level
import IntScript.Proofs.Grammar.Program
import IntScript.Proofs.Token.Seam

namespace IntScript

def Parses (source : String) (xs : List Stmt) : Prop :=
  Grammar.Program maxNesting (tokenize source).toList xs

namespace Grammar

variable {n : Nat} {ts done : List Token} {xs : List Stmt} {e : ParseError}

theorem Additive.no_semicolon {x : Expr} (h : Additive n ts x) : ∀ t ∈ ts, t.kind ≠ .semicolon := by
  refine level_induction (motive := fun _ _ ts _ => ∀ t ∈ ts, t.kind ≠ .semicolon) ?_ ?_ ?_ ?_ ?_ (Nat.zero_le 2) h
  · simp
  · simp
  · intro n l r ts e ih
    simpa [or_imp, forall_and] using ih
  · intro n k ts e ih
    exact ih
  · intro n op text ts us left right ihl ihr u hu
    rcases List.mem_append.1 hu with hu | hu
    · exact ihl u hu
    rcases List.mem_cons.1 hu with rfl | hu
    · cases op <;> nofun
    · exact ihr u hu

theorem Statement.semicolon {x : Stmt} (h : Statement n ts x) :
    ∃ us text, ts = us ++ [⟨.semicolon, text⟩] ∧ ∀ t ∈ us, t.kind ≠ .semicolon := by
  cases h with
  | declare int name semicolon => exact ⟨[_, _], semicolon, rfl, by simp⟩
  | @define ts e int name equals semicolon h =>
      exact ⟨_ :: _ :: _ :: ts, semicolon, rfl, by simpa using h.no_semicolon⟩
  | @assign ts e name equals semicolon h => exact ⟨_ :: _ :: ts, semicolon, rfl, by simpa using h.no_semicolon⟩
  | @expression ts e semicolon h => exact ⟨ts, semicolon, rfl, h.no_semicolon⟩

theorem Statement.last {x : Stmt} (h : Statement n ts x) : ∀ t ∈ ts.getLast?, t.kind = .semicolon := by
  obtain ⟨us, text, rfl, -⟩ := h.semicolon
  simp

theorem Program.last (h : Program n ts xs) : ∀ t ∈ ts.getLast?, t.kind = .semicolon := by
  induction h with
  | nil => exact nofun
  | @cons ts us x xs hx _ ih =>
      intro t ht
      rw [List.getLast?_append] at ht
      cases hu : us.getLast? with
      | none => exact hx.last t (by simpa [hu] using ht)
      | some u => exact ih t (by simpa [hu] using ht)

theorem Statement.eq_nil_of_append {us : List Token} {x : Stmt} (h : Statement n (ts ++ us) x) (hts : ts ≠ [])
    (hlast : ∀ t ∈ ts.getLast?, t.kind = .semicolon) : us = [] := by
  obtain ⟨vs, text, hv, hopen⟩ := h.semicolon
  rcases List.eq_nil_or_concat us with rfl | ⟨ws, w, rfl⟩
  · rfl
  · rw [List.concat_eq_append, ← List.append_assoc] at hv
    obtain ⟨rfl, -⟩ := List.append_inj' hv rfl
    have hmem : ts.getLast hts ∈ ts ++ ws := List.mem_append_left ws (List.getLast_mem hts)
    exact absurd (hlast _ (List.getLast?_eq_some_getLast hts)) (hopen _ hmem)

theorem Statement.singleton {x : Stmt} (h : Statement n ts x) : Program n ts [x] := by
  rw [← List.append_nil ts]
  exact .cons h .nil

theorem Program.eq_nil (h : Program n [] xs) : xs = [] := by
  generalize hts : [] = ts at h
  cases h with
  | nil => rfl
  | cons hx _ =>
      obtain ⟨us, text, rfl, -⟩ := hx.semicolon
      simp at hts

/-- The beginning of a program up to some semicolon is a program, and so is the rest. -/
theorem Program.split {us : List Token} (h : Program n (ts ++ us) xs) (hlast : ∀ t ∈ ts.getLast?, t.kind = .semicolon) :
    ∃ ys zs, xs = ys ++ zs ∧ Program n ts ys ∧ Program n us zs := by
  generalize hall : ts ++ us = all at h
  induction h generalizing ts with
  | nil =>
      obtain ⟨rfl, rfl⟩ := List.append_eq_nil_iff.1 hall
      exact ⟨[], [], rfl, .nil, .nil⟩
  | @cons head rest x xs hx hxs ih =>
      rcases List.append_eq_append_iff.1 hall with ⟨cs, rfl, rfl⟩ | ⟨cs, rfl, rfl⟩
      · by_cases hts : ts = []
        · subst hts
          exact ⟨[], x :: xs, rfl, .nil, .cons hx hxs⟩
        · obtain rfl := hx.eq_nil_of_append hts hlast
          rw [List.append_nil] at hx
          exact ⟨[x], xs, rfl, hx.singleton, hxs⟩
      · have hcs : ∀ t ∈ cs.getLast?, t.kind = .semicolon := by
          intro t ht
          refine hlast t ?_
          rw [List.getLast?_append, Option.mem_def.1 ht]
          rfl
        obtain ⟨ys, zs, rfl, hys, hzs⟩ := ih hcs rfl
        exact ⟨x :: ys, zs, rfl, .cons hx hys, hzs⟩

/-- Statements in front of a fault move it, and change nothing else. -/
theorem parseProgram_error_append {c c' : Cursor} (hd : Program maxNesting done xs)
    (hs : c.rest = done ++ c'.rest) (h : (parseProgram c').result = .error e) :
    (parseProgram c).result =
      .error { e with position := c.position + done.length + (e.position - c'.position) } := by
  obtain ⟨ys, hys⟩ | ⟨done', ys, ts, us, hus, hd', hne, hf⟩ := program_cases c'.rest
  · exact nomatch h.symm.trans (parseProgram_ok hys)
  rw [hus, ← List.append_assoc] at hs
  rcases hf with ⟨reason, hf⟩ | hf
  · obtain rfl := Except.error.inj (h.symm.trans (parseProgram_fault hd' hus hf hne))
    rw [parseProgram_fault (hd.append hd') hs hf hne, List.length_append]
    congr 2
    dsimp only
    omega
  · obtain rfl := Except.error.inj (h.symm.trans (parseProgram_unfinished hd' hus hf hne))
    rw [parseProgram_unfinished (hd.append hd') hs hf hne, List.length_append]
    congr 2
    dsimp only
    omega

end Grammar

open Grammar

variable {source first second : String} {xs ys : List Stmt} {e : ParseError}

theorem parses_iff : Parses source xs ↔ Program maxNesting (Lexer.tokens source.toList) xs := by
  rw [Parses, Lexer.toList_tokenize]

theorem Parses.parse_eq (h : Parses source xs) : parse source = .ok (Arena.empty.graftProgram [] xs) :=
  parseProgram_ok h

theorem parses_of_parse {a : Arena} (h : parse source = .ok a) :
    ∃ xs, Parses source xs ∧ a = Arena.empty.graftProgram [] xs := program_of_parseProgram h

theorem parses_empty : Parses "" [] := .nil

theorem Parses.tokenize_append (h : Parses first xs) (second : String) :
    (tokenize (first ++ second)).toList = (tokenize first).toList ++ (tokenize second).toList := by
  have hlast := Program.last h
  rw [Lexer.toList_tokenize] at hlast
  simp only [Lexer.toList_tokenize, String.toList_append]
  exact Lexer.tokens_append_of_semicolon hlast second.toList

theorem Parses.append (h : Parses first xs) (h' : Parses second ys) : Parses (first ++ second) (xs ++ ys) := by
  unfold Parses
  rw [h.tokenize_append second]
  exact Program.append h h'

theorem Parses.error_append (h : Parses first xs) (he : parse second = .error e) :
    parse (first ++ second) = .error { e with position := e.position + (tokenize first).size } := by
  have hs : (Cursor.start (tokenize (first ++ second))).rest =
      (tokenize first).toList ++ (Cursor.start (tokenize second)).rest := h.tokenize_append second
  have hp := parseProgram_error_append h hs he
  simpa [parse, Cursor.start, Nat.add_comm] using hp

end IntScript
