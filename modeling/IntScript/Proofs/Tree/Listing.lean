import IntScript.Proofs.Text.Cut
import IntScript.Proofs.Tree.Outline
import IntScript.Proofs.Tree.Writing
import Mathlib.Data.Option.Basic

namespace IntScript

open Arena

theorem NodeType.name_injective : Function.Injective name := by
  intro s t h
  cases s <;> cases t <;> first | rfl | exact absurd h (by decide)

theorem Operator.symbol_injective : Function.Injective symbol := by
  intro s t h
  cases s <;> cases t <;> first | rfl | exact absurd h (by decide)

def Operator.nodeType : Operator → NodeType
  | add | sub => .additive
  | mul | div => .multiplicative

def Expr.lines (depth : Nat) : Expr → List Line
  | .literal text => [⟨depth, .literal, text⟩]
  | .identifier name => [⟨depth, .identifier, name⟩]
  | .binary op left right => ⟨depth, op.nodeType, op.symbol⟩ :: (left.lines (depth + 1) ++ right.lines (depth + 1))

def Stmt.lines (depth : Nat) : Stmt → List Line
  | .declaration name init? => ⟨depth, .declaration, name⟩ :: init?.elim [] (Expr.lines (depth + 1))
  | .assignment name value => ⟨depth, .assignment, name⟩ :: value.lines (depth + 1)
  | .expression value => value.lines depth

namespace Arena

variable {a : Arena} {id : Nat} {e : Expr} {x : Stmt} {xs : List Stmt}

theorem Holds.lines (ha : a.Ordered) (h : a.Holds id e) (depth : Nat) :
    (a.preorder id depth).map a.line? = (e.lines depth).map some := by
  induction e generalizing id depth with
  | literal text | identifier name =>
      have hn : a.node? id = _ := h
      rw [preorder_eq ha, children_of_node hn, List.map_cons, line?, hn]
      rfl
  | binary op left right ihl ihr =>
      obtain ⟨i, j, hn, hl, hr⟩ := h
      have htype : (Node.binary op i j).type = op.nodeType := by cases op <;> rfl
      rw [preorder_eq ha, children_of_node hn, List.map_cons, line?, hn, List.map_flatMap]
      simp only [Node.children, List.flatMap_cons, List.flatMap_nil, List.append_nil, ihl hl, ihr hr, Expr.lines,
        List.map_cons, List.map_append, Option.map_some, htype, Node.text]

theorem HoldsStmt.lines (ha : a.Ordered) (h : a.HoldsStmt id x) (depth : Nat) :
    (a.preorder id depth).map a.line? = (x.lines depth).map some := by
  have hsingle {n : Node} {i : Nat} {value : Expr} (hn : a.node? id = some n) (hc : n.children = [i]) (hi : a.Holds i value) :
      (a.preorder id depth).map a.line? = some ⟨depth, n.type, n.text⟩ :: (value.lines (depth + 1)).map some := by
    rw [preorder_eq ha, children_of_node hn, hc, List.flatMap_singleton, List.map_cons, hi.lines ha, line?, hn]
    rfl
  cases x with
  | declaration name init? =>
      cases init? with
      | none =>
          have hn : a.node? id = some (.declaration name none) := h
          rw [preorder_eq ha, children_of_node hn, List.map_cons, line?, hn]
          rfl
      | some init =>
          obtain ⟨i, hn, hi⟩ := h
          exact hsingle hn rfl hi
  | assignment name value =>
      obtain ⟨i, hn, hi⟩ := h
      exact hsingle hn rfl hi
  | expression value => exact Holds.lines ha h depth

theorem lines_statements (ha : a.Ordered) {ids : List Nat} (h : List.Forall₂ a.HoldsStmt ids xs) (depth : Nat) :
    (ids.flatMap (a.preorder · depth)).map a.line? = (xs.flatMap (Stmt.lines depth)).map some := by
  induction h with
  | nil => rfl
  | cons hx _ ih => rw [List.flatMap_cons, List.flatMap_cons, List.map_append, List.map_append, ih, hx.lines ha]

/-- The listing of a program is that of its statements, whichever arena holds them. -/
theorem Listed.lines_eq {root : Nat} (h : a.Listed root) (ha : a.Ordered) (hp : a.HoldsProgram xs) :
    a.lines.toList = ⟨0, .program, "program"⟩ :: xs.flatMap (Stmt.lines 1) := by
  obtain ⟨root, ids, hroot, hn, hids⟩ := hp
  obtain rfl := Option.some.inj (h.rooted.symm.trans hroot)
  have hchildren : a.children root = ids := children_of_node hn
  apply List.map_injective_iff.2 (Option.some_injective _)
  rw [h.lines, preorder_eq ha, hchildren, List.map_cons, lines_statements ha hids, line?, hn]
  rfl

end Arena

namespace Expr

variable {e e' : Expr} {us vs : List Line} {depth : Nat}

theorem lines_head (e : Expr) (depth : Nat) : ∃ type text rest, e.lines depth = ⟨depth, type, text⟩ :: rest ∧
    type ≠ .declaration ∧ type ≠ .assignment := by
  cases e with
  | literal text => exact ⟨_, _, _, rfl, nofun, nofun⟩
  | identifier name => exact ⟨_, _, _, rfl, nofun, nofun⟩
  | binary op left right => exact ⟨_, _, _, rfl, by cases op <;> nofun, by cases op <;> nofun⟩

/-- An expression is told by the beginning of its listing, whatever comes after it. -/
theorem lines_inj (h : e.lines depth ++ us = e'.lines depth ++ vs) : e = e' ∧ us = vs := by
  induction e generalizing e' us vs depth with
  | literal text =>
      cases e' with
      | literal text' =>
          obtain ⟨hline, rfl⟩ := List.cons.inj h
          obtain ⟨-, -, rfl⟩ := Line.mk.inj hline
          exact ⟨rfl, rfl⟩
      | identifier => exact nomatch (List.cons.inj h).1
      | binary op => cases op <;> exact nomatch (List.cons.inj h).1
  | identifier name =>
      cases e' with
      | literal => exact nomatch (List.cons.inj h).1
      | identifier name' =>
          obtain ⟨hline, rfl⟩ := List.cons.inj h
          obtain ⟨-, -, rfl⟩ := Line.mk.inj hline
          exact ⟨rfl, rfl⟩
      | binary op => cases op <;> exact nomatch (List.cons.inj h).1
  | binary op left right ihl ihr =>
      cases e' with
      | literal | identifier => cases op <;> exact nomatch (List.cons.inj h).1
      | binary op' left' right' =>
          simp only [lines, List.cons_append, List.append_assoc] at h
          obtain ⟨hline, hrest⟩ := List.cons.inj h
          obtain rfl := Operator.symbol_injective (Line.mk.inj hline).2.2
          obtain ⟨rfl, hright⟩ := ihl hrest
          obtain ⟨rfl, rfl⟩ := ihr hright
          exact ⟨rfl, rfl⟩

theorem ne_lines_append (hus : ∀ line ∈ us.head?, line.depth = depth) (e : Expr) (vs : List Line) :
    us ≠ e.lines (depth + 1) ++ vs := by
  obtain ⟨type, text, rest, he, -⟩ := e.lines_head (depth + 1)
  rintro rfl
  rw [he] at hus
  exact Nat.succ_ne_self depth (hus _ rfl)

theorem cons_ne_lines {line : Line} (h : line.type = .declaration ∨ line.type = .assignment) (e : Expr) (vs : List Line) :
    line :: us ≠ e.lines depth ++ vs := by
  obtain ⟨type, text, rest, he, hd, ha⟩ := e.lines_head depth
  rw [he]
  intro heq
  obtain ⟨rfl, -⟩ := List.cons.inj heq
  exact h.elim hd ha

/-- The line after a declaration tells by its depth whether it belongs to a value. -/
theorem lines_elim_inj {value? value?' : Option Expr} (hus : ∀ line ∈ us.head?, line.depth = depth)
    (hvs : ∀ line ∈ vs.head?, line.depth = depth)
    (h : value?.elim [] (lines (depth + 1)) ++ us = value?'.elim [] (lines (depth + 1)) ++ vs) : value? = value?' ∧ us = vs := by
  cases value? with
  | none =>
      cases value?' with
      | none => exact ⟨rfl, h⟩
      | some e' => exact absurd h (ne_lines_append hus e' vs)
  | some e =>
      cases value?' with
      | none => exact absurd h.symm (ne_lines_append hvs e us)
      | some e' =>
          obtain ⟨rfl, rfl⟩ := lines_inj h
          exact ⟨rfl, rfl⟩

end Expr

namespace Stmt

variable {x y : Stmt} {xs ys : List Stmt} {us vs : List Line} {depth : Nat}

theorem lines_head (x : Stmt) (depth : Nat) : ∃ type text rest, x.lines depth = ⟨depth, type, text⟩ :: rest := by
  cases x with
  | declaration name init? => exact ⟨_, _, _, rfl⟩
  | assignment name value => exact ⟨_, _, _, rfl⟩
  | expression value =>
      obtain ⟨type, text, rest, h, -⟩ := value.lines_head depth
      exact ⟨type, text, rest, h⟩

theorem lines_inj (hus : ∀ line ∈ us.head?, line.depth = depth) (hvs : ∀ line ∈ vs.head?, line.depth = depth)
    (h : x.lines depth ++ us = y.lines depth ++ vs) : x = y ∧ us = vs := by
  cases x with
  | declaration name init? =>
      cases y with
      | declaration name' init?' =>
          obtain ⟨hline, hrest⟩ := List.cons.inj h
          obtain ⟨-, -, rfl⟩ := Line.mk.inj hline
          obtain ⟨rfl, rfl⟩ := Expr.lines_elim_inj hus hvs hrest
          exact ⟨rfl, rfl⟩
      | assignment name' value' => exact nomatch (List.cons.inj h).1
      | expression value' => exact absurd h (value'.cons_ne_lines (.inl rfl) vs)
  | assignment name value =>
      cases y with
      | declaration name' init?' => exact nomatch (List.cons.inj h).1
      | assignment name' value' =>
          obtain ⟨hline, hrest⟩ := List.cons.inj h
          obtain ⟨-, -, rfl⟩ := Line.mk.inj hline
          obtain ⟨rfl, rfl⟩ := Expr.lines_inj hrest
          exact ⟨rfl, rfl⟩
      | expression value' => exact absurd h (value'.cons_ne_lines (.inr rfl) vs)
  | expression value =>
      cases y with
      | declaration name' init?' => exact absurd h.symm (value.cons_ne_lines (.inl rfl) us)
      | assignment name' value' => exact absurd h.symm (value.cons_ne_lines (.inr rfl) us)
      | expression value' =>
          obtain ⟨rfl, rfl⟩ := Expr.lines_inj h
          exact ⟨rfl, rfl⟩

theorem head_lines_flatMap (xs : List Stmt) (depth : Nat) :
    ∀ line ∈ (xs.flatMap (Stmt.lines depth)).head?, line.depth = depth := by
  cases xs with
  | nil => exact nofun
  | cons x xs =>
      obtain ⟨type, text, rest, h⟩ := x.lines_head depth
      rw [List.flatMap_cons, h]
      intro line hline
      obtain rfl := Option.some.inj hline
      rfl

theorem lines_flatMap_inj (h : xs.flatMap (Stmt.lines depth) = ys.flatMap (Stmt.lines depth)) : xs = ys := by
  have hne (x : Stmt) (xs : List Stmt) : [] ≠ (x :: xs).flatMap (Stmt.lines depth) := by
    obtain ⟨type, text, rest, hx⟩ := x.lines_head depth
    rw [List.flatMap_cons, hx]
    exact nofun
  induction xs generalizing ys with
  | nil =>
      cases ys with
      | nil => rfl
      | cons y ys => exact absurd h (hne y ys)
  | cons x xs ih =>
      cases ys with
      | nil => exact absurd h.symm (hne x xs)
      | cons y ys =>
          obtain ⟨rfl, hrest⟩ := lines_inj (head_lines_flatMap xs depth) (head_lines_flatMap ys depth) h
          rw [ih hrest]

end Stmt

namespace Arena

def Line.body (line : Line) : List Char :=
  List.replicate line.depth '\t' ++ line.type.name.toList ++ ' ' :: line.text.toList

theorem toList_pushn (text : String) (c : Char) (n : Nat) :
    (text.pushn c n).toList = text.toList ++ List.replicate n c := by
  induction n with
  | zero => exact (List.append_nil _).symm
  | succ n ih =>
      have hpush : text.pushn c (n + 1) = (text.pushn c n).push c := rfl
      rw [hpush, String.toList_push, ih, List.append_assoc, ← List.replicate_succ']

theorem Line.toList_render (line : Line) : line.render.toList = line.body ++ ['\n'] := by
  simp only [render, body, String.toList_append, toList_pushn]
  simp

theorem toList_render (a : Arena) : a.render.toList = a.lines.toList.flatMap fun line => line.body ++ ['\n'] := by
  have hfold (lines : List Line) (text : String) : (lines.foldl (fun text line => text ++ line.render) text).toList =
      text.toList ++ lines.flatMap fun line => line.body ++ ['\n'] := by
    induction lines generalizing text with
    | nil => exact (List.append_nil _).symm
    | cons line lines ih => rw [List.foldl_cons, ih, String.toList_append, line.toList_render, List.flatMap_cons, List.append_assoc]
  rw [render, ← Array.foldl_toList, hfold]
  rfl

/-- The name of a type has neither tabs nor blanks, so that a line can be taken apart. -/
theorem Line.body_inj {u v : Line} (h : u.body = v.body) : u = v := by
  have hname (type : NodeType) : '\t' ∉ type.name.toList ∧ ' ' ∉ type.name.toList := by cases type <;> decide
  have hblank (line : Line) : ' ' ∉ List.replicate line.depth '\t' ++ line.type.name.toList := by
    rw [List.mem_append, not_or]
    exact ⟨fun hmem => absurd (List.eq_of_mem_replicate hmem) (by decide), (hname line.type).2⟩
  have htabs (line : Line) : (List.replicate line.depth '\t' ++ line.type.name.toList).count '\t' = line.depth := by
    rw [List.count_append, List.count_replicate_self, List.count_eq_zero_of_not_mem (hname line.type).1, Nat.add_zero]
  -- The first blank ends the name, and the tabs before the name tell the depth.
  obtain ⟨hbefore, htext⟩ := Text.append_mark_inj (hblank u) (hblank v) h
  have hdepth : u.depth = v.depth := by rw [← htabs u, hbefore, htabs v]
  rw [hdepth] at hbefore
  have htype := NodeType.name_injective (String.toList_inj.1 (List.append_cancel_left hbefore))
  obtain ⟨depth, type, text⟩ := u
  obtain ⟨depth', type', text'⟩ := v
  obtain rfl : depth = depth' := hdepth
  obtain rfl : type = type' := htype
  exact congrArg (Line.mk depth type) (String.toList_inj.1 htext)

/-- Where no text goes over the end of a line, the lines can be told from the listing as text. -/
theorem lines_eq_of_render {a b : Arena} (ha : ∀ line ∈ a.lines.toList, '\n' ∉ line.text.toList)
    (hb : ∀ line ∈ b.lines.toList, '\n' ∉ line.text.toList) (h : a.render = b.render) : a.lines = b.lines := by
  have hbody {line : Line} (hline : '\n' ∉ line.text.toList) : '\n' ∉ line.body := by
    have hname : '\n' ∉ line.type.name.toList := by cases line.type <;> decide
    simp [Line.body, hname, hline]
  have hcut := congrArg (fun text : String => Text.cutAfter '\n' text.toList) h
  simp only [toList_render] at hcut
  rw [Text.cutAfter_flatMap fun line hline => hbody (ha line hline),
    Text.cutAfter_flatMap fun line hline => hbody (hb line hline)] at hcut
  have hinj : Function.Injective fun line : Line => line.body ++ ['\n'] :=
    fun u v huv => Line.body_inj (List.append_cancel_right huv)
  exact Array.toList_inj.1 (List.map_injective_iff.2 hinj hcut)

end Arena

end IntScript
