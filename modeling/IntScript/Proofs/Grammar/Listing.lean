import IntScript.Proofs.Grammar.PostOrder
import IntScript.Proofs.Grammar.Writing
import IntScript.Proofs.Tree.Listing

namespace IntScript

open Token

theorem newline_notMem {text : String} (h : ∀ c ∈ text.toList, c.isAlphanum = true) : '\n' ∉ text.toList :=
  fun hmem => absurd (h '\n' hmem) (by decide)

theorem Expr.newline_notMem_lines {e : Expr} (h : e.WellNamed) (depth : Nat) :
    ∀ line ∈ e.lines depth, '\n' ∉ line.text.toList := by
  induction e generalizing depth with
  | literal text => exact List.forall_mem_singleton.2 (newline_notMem (alphanum_of_isDecimal h))
  | identifier name => exact List.forall_mem_singleton.2 (newline_notMem (alphanum_of_isWord h.1))
  | binary op left right ihl ihr =>
      have hsymbol : '\n' ∉ op.symbol.toList := by cases op <;> decide
      refine List.forall_mem_cons.2 ⟨hsymbol, fun line hline => ?_⟩
      rcases List.mem_append.1 hline with hline | hline
      · exact ihl h.1 (depth + 1) line hline
      · exact ihr h.2 (depth + 1) line hline

theorem Stmt.newline_notMem_lines {x : Stmt} (h : x.WellNamed) (depth : Nat) :
    ∀ line ∈ x.lines depth, '\n' ∉ line.text.toList := by
  cases x with
  | declaration name init? =>
      have hname := newline_notMem (alphanum_of_isWord h.1.1)
      cases init? with
      | none => exact List.forall_mem_singleton.2 hname
      | some init => exact List.forall_mem_cons.2 ⟨hname, Expr.newline_notMem_lines (h.2 init rfl) (depth + 1)⟩
  | assignment name value =>
      have hname := newline_notMem (alphanum_of_isWord h.1.1)
      exact List.forall_mem_cons.2 ⟨hname, Expr.newline_notMem_lines h.2 (depth + 1)⟩
  | expression value => exact Expr.newline_notMem_lines h depth

namespace Grammar

def Gives (c : Cursor) (a : Arena) : Prop :=
  (parseProgram c).result = .ok a ∨ (parseCalculation c).result = .ok a

variable {c d : Cursor} {a b : Arena} {xs ys : List Stmt}

theorem graftProgram_of_gives (h : Gives c a) : ∃ xs, a = Arena.empty.graftProgram [] xs ∧
    ((∀ t ∈ c.rest, t.Lexical) → ∀ x ∈ xs, x.WellNamed) := by
  rcases h with h | h
  · obtain ⟨xs, hxs, rfl⟩ := program_of_parseProgram h
    exact ⟨xs, rfl, wellNamed_of_program hxs⟩
  · obtain ⟨e, he, rfl⟩ := additive_of_parseCalculation h
    exact ⟨_, rfl, fun hlexical => List.forall_mem_singleton.2 (wellNamed_of_additive he hlexical)⟩

theorem listed_graftProgram (xs : List Stmt) :
    (Arena.empty.graftProgram [] xs).Listed (Arena.empty.graftProgram [] xs).last :=
  (Arena.postOrder_graftProgram xs).listed (Arena.ordered_graftProgram xs)

theorem lines_graftProgram (xs : List Stmt) :
    (Arena.empty.graftProgram [] xs).lines.toList = ⟨0, .program, "program"⟩ :: xs.flatMap (Stmt.lines 1) :=
  (listed_graftProgram xs).lines_eq (Arena.ordered_graftProgram xs) (holdsProgram_empty xs)

theorem eq_of_lines (h : Gives c a) (h' : Gives d b) (hlines : a.lines = b.lines) : a = b := by
  obtain ⟨xs, rfl, -⟩ := graftProgram_of_gives h
  obtain ⟨ys, rfl, -⟩ := graftProgram_of_gives h'
  have hlist := congrArg Array.toList hlines
  rw [lines_graftProgram, lines_graftProgram] at hlist
  rw [Stmt.lines_flatMap_inj (List.cons.inj hlist).2]

theorem newline_notMem_of_source {source : String} (h : Gives (.start (tokenize source)) a) :
    ∀ line ∈ a.lines.toList, '\n' ∉ line.text.toList := by
  obtain ⟨xs, rfl, hnamed⟩ := graftProgram_of_gives h
  have hxs := hnamed fun t ht => Token.lexical_of_mem_tokenize (Array.mem_toList_iff.1 (by rwa [Cursor.rest_start] at ht))
  rw [lines_graftProgram]
  refine List.forall_mem_cons.2 ⟨by decide, fun line hline => ?_⟩
  obtain ⟨x, hx, hline⟩ := List.mem_flatMap.1 hline
  exact Stmt.newline_notMem_lines (hxs x hx) 1 line hline

/-- A listing has every node of the tree in pre-order. It tells the tree, with the places of the nodes and their links,
and so does the listing as text where the tree comes from a text. -/
theorem listing_faithful :
    (∀ (c : Cursor) (a : Arena), Gives c a → ∃ root, a.Listed root) ∧
    (∀ (c d : Cursor) (a b : Arena), Gives c a → Gives d b → a.lines = b.lines → a = b) ∧
    ∀ (source source' : String) (a b : Arena), parse source = .ok a ∨ parseExpression source = .ok a →
      parse source' = .ok b ∨ parseExpression source' = .ok b → a.render = b.render → a = b := by
  refine ⟨fun c a h => ?_, fun c d a b => eq_of_lines, fun source source' a b h h' hrender => ?_⟩
  · obtain ⟨xs, rfl, -⟩ := graftProgram_of_gives h
    exact ⟨_, listed_graftProgram xs⟩
  · apply eq_of_lines h h'
    exact Arena.lines_eq_of_render (newline_notMem_of_source h) (newline_notMem_of_source h') hrender

def assigned : Arena := ⟨#[⟨.literal "1", some 1⟩, ⟨.assignment "x" 0, some 2⟩, ⟨.program [1], none⟩]⟩

theorem listing_faithful_assigned :
    parse "x=1;" = .ok assigned ∧ parse "x=(1);" = .ok (Arena.empty.graftProgram [] [.assignment "x" (.literal "1")]) ∧
    assigned.render = "Program program\n\tAssignmentStmt x\n\t\tIntLiteral 1\n" ∧
    (Arena.empty.graftProgram [] [.assignment "x" (.literal "1")]).render = assigned.render ∧
    (Arena.empty.graftProgram [] [.assignment "x" (.literal "1")]) = assigned ∧ ∃ root, assigned.Listed root := by
  have hplain : parse "x=1;" = .ok assigned := rfl
  have hgrouped : parse "x=(1);" = .ok (Arena.empty.graftProgram [] [.assignment "x" (.literal "1")]) := rfl
  have hrender : (Arena.empty.graftProgram [] [.assignment "x" (.literal "1")]).render = assigned.render := rfl
  exact ⟨hplain, hgrouped, by decide, hrender, listing_faithful.2.2 _ _ _ _ (.inl hgrouped) (.inl hplain) hrender,
    listing_faithful.1 _ _ (.inl hplain)⟩

end Grammar

end IntScript
