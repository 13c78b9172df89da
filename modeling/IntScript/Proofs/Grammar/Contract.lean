import IntScript.Grammar.Nesting
import IntScript.Proofs.Grammar.Statement
import IntScript.Proofs.Tree.Linked

namespace IntScript.Grammar

/-- The states that come about from the beginning on by what the rules do to them. -/
inductive Reachable (c : Cursor) : State → Prop
  | start : Reachable c (.start c)
  | advance {s} (h : Reachable c s) : Reachable c s.advance
  | push {s node} (h : Reachable c s) (hn : ∀ child ∈ node.children, child < s.arena.size) :
      Reachable c { s with arena := s.arena.push node }
  | note {s} (h : Reachable c s) (b : Backtrack) : Reachable c (s.note b)
  | enter {s} (h : Reachable c s) (hn : s.nesting ≠ maxNesting) : Reachable c { s with nesting := s.nesting + 1 }
  | leave {s} (h : Reachable c s) : Reachable c s.leave
  | restore {s} (h : Reachable c s) (position size : Nat) :
      Reachable c { s with cursor := s.cursor.moveTo position, arena := s.arena.truncate size }

structure Moved (s t : State) : Prop where
  tokens : t.cursor.tokens = s.cursor.tokens
  position : s.cursor.position ≤ t.cursor.position
  untouched : s.arena.Untouched t.arena
  nesting : t.nesting = s.nesting

/-- Tokens have been read into a node, which is the last one. Everything before it is as it was. -/
structure Built (s : State) (id : Nat) (t : State) : Prop where
  moved : Moved s t
  position : s.cursor.position < t.cursor.position
  inside : t.cursor.position ≤ s.cursor.tokens.size
  last : id + 1 = t.arena.size
  fresh : s.arena.size ≤ id

/-- What every rule promises: a node of its own, a state as it was before, or an error. In all three the number of open
parentheses is as it was. -/
inductive Contract (s : State) : Reply → Prop
  | node {id t} (h : Built s id t) : Contract s (.node id t)
  | absent {t} (h : Same s t) : Contract s (.absent t)
  | error {e t} (h : t.nesting = s.nesting) : Contract s (.error e t)

inductive Kept (c : Cursor) (s : State) : Option Reply → Prop
  | none : Kept c s none
  | node {id t} (h : Built s id t) (ht : Reachable c t) : Kept c s (some (.node id t))
  | absent {t} (h : Same s t) (ht : Reachable c t) : Kept c s (some (.absent t))
  | error {e t} (h : t.nesting = s.nesting) (ht : Reachable c t) : Kept c s (some (.error e t))

def Keeps (c : Cursor) (rule : Rule) : Prop := ∀ s, Reachable c s → Kept c s (rule s)

variable {c : Cursor} {s t u : State} {id : Nat} {node : Node} {reply : Reply}

namespace Reachable

theorem linked (h : Reachable c s) : s.arena.Linked := by
  induction h with
  | start => exact Arena.linked_empty
  | push _ hn ih => exact ih.push hn
  | restore _ position size ih => exact ih.truncate size
  | advance _ ih | note _ _ ih | enter _ _ ih | leave _ ih => exact ih

theorem nesting_le (h : Reachable c s) : s.nesting ≤ maxNesting := by
  induction h with
  | start => exact Nat.zero_le maxNesting
  | enter _ hn ih => exact Nat.lt_of_le_of_ne ih hn
  | leave _ ih => exact Nat.le_trans (Nat.sub_le _ 1) ih
  | advance _ ih | push _ _ ih | note _ _ ih | restore _ _ _ ih => exact ih

end Reachable

namespace Moved

theorem trans (h : Moved s t) (h' : Moved t u) : Moved s u where
  tokens := h'.tokens.trans h.tokens
  position := Nat.le_trans h.position h'.position
  untouched := h.untouched.trans h'.untouched
  nesting := h'.nesting.trans h.nesting

theorem advance (s : State) : Moved s s.advance :=
  ⟨s.cursor.tokens_advance, s.cursor.position_le_advance, .refl _, rfl⟩

theorem push (h : Moved s t) (hn : ∀ child ∈ node.children, s.arena.size ≤ child) :
    Moved s { t with arena := t.arena.push node } :=
  ⟨h.tokens, h.position, h.untouched.push hn, h.nesting⟩

/-- A node that is added after tokens have been read. -/
theorem built (h : Moved s t) (hlt : s.cursor.position < t.cursor.position)
    (hn : ∀ child ∈ node.children, s.arena.size ≤ child) :
    Built s t.arena.size { t with arena := t.arena.push node } where
  moved := h.push hn
  position := hlt
  inside := h.tokens ▸ t.cursor.position_le
  last := (Arena.size_push _ _).symm
  fresh := h.untouched.size_le

end Moved

namespace Built

theorem advance (h : Built s id t) : Built s id t.advance where
  moved := h.moved.trans (.advance t)
  position := Nat.lt_of_lt_of_le h.position t.cursor.position_le_advance
  inside := by
    rw [← (h.moved.trans (.advance t)).tokens]
    exact t.advance.cursor.position_le
  last := h.last
  fresh := h.fresh

/-- What is built later on is built from the beginning as well. -/
theorem after (h : Built t id u) (hm : Moved s t) : Built s id u where
  moved := hm.trans h.moved
  position := Nat.lt_of_le_of_lt hm.position h.position
  inside := hm.tokens ▸ h.inside
  last := h.last
  fresh := Nat.le_trans hm.untouched.size_le h.fresh

theorem lt_size (h : Built s id t) : id < t.arena.size := h.last ▸ Nat.lt_succ_self id

section

variable {left right : Nat} (h : Built s left t) (h' : Built t.advance right u)
include h h'

/-- Both operands are new, and so is their node. -/
theorem binary (op : Operator) : Built s u.arena.size { u with arena := u.arena.push (.binary op left right) } := by
  have hm := (Moved.advance t).trans h'.moved
  refine (h.moved.trans hm).built (Nat.lt_of_lt_of_le h.position hm.position) ?_
  have hfresh : s.arena.size ≤ right := Nat.le_trans h.moved.untouched.size_le h'.fresh
  exact List.forall_mem_cons.2 ⟨h.fresh, List.forall_mem_singleton.2 hfresh⟩

theorem reachable_binary (hu : Reachable c u) (op : Operator) :
    Reachable c { u with arena := u.arena.push (.binary op left right) } := by
  have hleft : left < u.arena.size := Nat.lt_of_lt_of_le h.lt_size h'.moved.untouched.size_le
  exact hu.push (List.forall_mem_cons.2 ⟨hleft, List.forall_mem_singleton.2 h'.lt_size⟩)

end

end Built

theorem Kept.contract (h : Kept c s (some reply)) : Contract s reply ∧ Reachable c reply.state := by
  cases h with
  | node hb ht => exact ⟨.node hb, ht⟩
  | absent hsame ht => exact ⟨.absent hsame, ht⟩
  | error hn ht => exact ⟨.error hn, ht⟩

variable {operator? : Token.Kind → Option Operator} {rule inner first second : Rule}

theorem chainFrom_keeps (h : Keeps c rule) (fuel : Nat) {left : Nat} (hb : Built s left t) (ht : Reachable c t) :
    Kept c s (chainFrom operator? rule fuel left t) := by
  induction fuel generalizing left t with
  | zero => exact .node hb ht
  | succ fuel ih =>
      rw [chainFrom]
      split
      · exact .node hb ht
      · have hright := h t.advance ht.advance
        generalize rule t.advance = right at hright
        cases hright with
        | none => exact .none
        | node hb' hu => exact ih (hb.binary hb' _) (hb.reachable_binary hb' hu _)
        | absent hsame hu => exact .error (hsame.nesting.trans hb.moved.nesting) hu
        | error hn hu => exact .error (hn.trans hb.moved.nesting) hu

theorem chain_keeps (h : Keeps c rule) : Keeps c (chain operator? rule) := by
  intro s hs
  have hleft := h s hs
  rw [chain]
  generalize rule s = left at hleft
  cases hleft with
  | none => exact .none
  | node hb ht => exact chainFrom_keeps h _ hb ht
  | absent hsame ht => exact .absent hsame ht
  | error hn ht => exact .error hn ht

theorem built_of_enter (h : Built s.enter id t) : Built s id t.leave where
  moved :=
    { tokens := h.moved.tokens.trans s.cursor.tokens_advance
      position := Nat.le_trans s.cursor.position_le_advance h.moved.position
      untouched := h.moved.untouched
      nesting := Nat.sub_eq_of_eq_add h.moved.nesting }
  position := Nat.lt_of_le_of_lt s.cursor.position_le_advance h.position
  inside := Nat.le_trans h.inside (Nat.le_of_eq (congrArg Array.size s.cursor.tokens_advance))
  last := h.last
  fresh := h.fresh

theorem group_advance (inner : Rule) (s : State) : group inner s.advance =
    match inner s.enter with
    | some (.node id t) =>
        if t.leave.peekKind? = some .rightParen then some (.node id t.leave.advance)
        else some (t.leave.fail .missingClosingParen)
    | some (.absent t) => some (t.leave.fail .emptyParens)
    | some (.error e t) => some (.error e t.leave)
    | none => none := rfl

theorem group_keeps (h : Keeps c inner) (hs : Reachable c s) (hn : s.nesting ≠ maxNesting) :
    Kept c s (group inner s.advance) := by
  have hinner := h s.enter (hs.advance.enter hn)
  rw [group_advance]
  generalize inner s.enter = value at hinner
  cases hinner with
  | none => exact .none
  | @node id t hb ht =>
      have hleave : Built s id t.leave := built_of_enter hb
      dsimp only
      split_ifs
      · exact .node hleave.advance ht.leave.advance
      · exact .error hleave.moved.nesting ht.leave
  | absent hsame ht => exact .error (Nat.sub_eq_of_eq_add hsame.nesting) ht.leave
  | error hnest ht => exact .error (Nat.sub_eq_of_eq_add hnest) ht.leave

/-- A token that is a node by itself. -/
theorem build_keeps {first : Token} (hs : Reachable c s) (hp : s.cursor.peek? = some first) (hn : node.children = []) :
    Kept c s (some (s.advance.build node)) := by
  have hnone {P : Nat → Prop} : ∀ child ∈ node.children, P child := by
    rw [hn]
    exact List.forall_mem_nil _
  exact .node ((Moved.advance s).built (Cursor.position_lt_advance hp) hnone) (hs.advance.push hnone)

theorem primary_keeps (h : Keeps c inner) : Keeps c (primary inner) := by
  intro s hs
  unfold primary
  split
  next hp => exact build_keeps hs hp rfl
  next hp => exact build_keeps hs hp rfl
  next =>
    split_ifs with hn
    · exact .error rfl hs
    · exact group_keeps h hs hn
  next => exact .absent ⟨rfl, rfl, rfl⟩ hs

theorem additive_keeps (c : Cursor) (depth : Nat) : Keeps c (additive depth) := by
  induction depth with
  | zero => exact fun _ _ => .none
  | succ depth ih => exact chain_keeps (chain_keeps (primary_keeps ih))

theorem finish_keeps (hm : Moved s t) (hlt : s.cursor.position < t.cursor.position)
    (hfresh : ∀ child ∈ node.children, s.arena.size ≤ child) (ht : Reachable c t)
    (hchildren : ∀ child ∈ node.children, child < t.arena.size) : Kept c s (some (finish t node)) := by
  unfold finish
  split_ifs
  · have hlt' := Nat.lt_of_lt_of_le hlt t.cursor.position_le_advance
    exact .node ((hm.trans (.advance t)).built hlt' hfresh) (ht.advance.push hchildren)
  · exact .error hm.nesting ht

theorem finishWith_keeps (h : Keeps c rule) (hm : Moved s t) (ht : Reachable c t) (missing : ParseError.Reason)
    {node : Nat → Node} (hn : ∀ id, (node id).children = [id]) : Kept c s (finishWith rule missing node t) := by
  have hvalue := h t ht
  rw [finishWith]
  generalize rule t = value at hvalue
  cases hvalue with
  | none => exact .none
  | @node id u hb hu =>
      have hb' := hb.after hm
      have hone {P : Nat → Prop} (hid : P id) : ∀ child ∈ (node id).children, P child := by
        rw [hn]
        exact List.forall_mem_singleton.2 hid
      exact finish_keeps hb'.moved hb'.position (hone hb'.fresh) hu (hone hb.lt_size)
  | absent hsame hu => exact .error (hsame.nesting.trans hm.nesting) hu
  | error hnest hu => exact .error (hnest.trans hm.nesting) hu

theorem declaration_keeps (h : Keeps c rule) : Keeps c (declaration rule) := by
  intro s hs
  unfold declaration
  split_ifs with hint
  · obtain ⟨first, hp, -⟩ := Option.map_eq_some_iff.1 hint
    have hm : Moved s s.advance.advance := (Moved.advance s).trans (.advance _)
    dsimp only
    split
    next =>
      split_ifs
      · exact finishWith_keeps h (hm.trans (.advance _)) hs.advance.advance.advance _ fun _ => rfl
      · have hlt : s.cursor.position < s.advance.advance.cursor.position :=
          Nat.lt_of_lt_of_le (Cursor.position_lt_advance hp) s.advance.cursor.position_le_advance
        exact finish_keeps hm hlt (List.forall_mem_nil _) hs.advance.advance (List.forall_mem_nil _)
    next => exact .error rfl hs.advance
  · exact .absent ⟨rfl, rfl, rfl⟩ hs

theorem assignment_keeps (h : Keeps c rule) : Keeps c (assignment rule) := by
  intro s hs
  unfold assignment
  split
  next hp =>
    split_ifs
    · have hm : Moved s s.advance.advance := (Moved.advance s).trans (.advance _)
      exact finishWith_keeps h hm hs.advance.advance _ fun _ => rfl
    · rw [State.unread_advance hp]
      exact .absent ⟨rfl, rfl, rfl⟩ (hs.note _)
  next => exact .absent ⟨rfl, rfl, rfl⟩ hs

/-- What is taken back without a semicolon leaves the state as it was. -/
theorem expressionStatement_keeps (h : Keeps c rule) : Keeps c (expressionStatement rule) := by
  intro s hs
  have hvalue := h s hs
  rw [expressionStatement_eq]
  generalize rule s = value at hvalue
  cases hvalue with
  | none => exact .none
  | @node id t hb ht =>
      dsimp only
      split_ifs
      · exact .node hb.advance ht.advance
      · have hcursor : t.cursor.moveTo s.cursor.position = s.cursor := Cursor.moveTo_position hb.moved.tokens
        have harena : t.arena.truncate s.arena.size = s.arena := hb.moved.untouched.truncate hs.linked
        exact .absent ⟨hcursor, harena, hb.moved.nesting⟩ ((ht.note _).restore _ _)
  | absent hsame ht => exact .absent hsame ht
  | error hnest ht => exact .error hnest ht

theorem Kept.of_same {value : Option Reply} (hsame : Same s t) (h : Kept c t value) : Kept c s value := by
  cases h with
  | none => exact .none
  | node hb ht =>
      have hm : Moved s t := ⟨congrArg Cursor.tokens hsame.cursor, Nat.le_of_eq (congrArg Cursor.position hsame.cursor.symm),
        hsame.arena ▸ .refl _, hsame.nesting⟩
      exact .node (hb.after hm) ht
  | absent h ht =>
      exact .absent ⟨h.cursor.trans hsame.cursor, h.arena.trans hsame.arena, h.nesting.trans hsame.nesting⟩ ht
  | error h ht => exact .error (h.trans hsame.nesting) ht

theorem orElse_keeps (hf : Keeps c first) (hs : Keeps c second) : Keeps c (orElse first second) := by
  intro s hreach
  have hfirst := hf s hreach
  rw [orElse]
  generalize first s = value at hfirst
  cases hfirst with
  | none => exact .none
  | node hb ht => exact .node hb ht
  | @absent t hsame ht => exact (hs t ht).of_same hsame
  | error hnest ht => exact .error hnest ht

theorem statement_keeps (h : Keeps c rule) : Keeps c (statement rule) :=
  orElse_keeps (declaration_keeps h) (orElse_keeps (assignment_keeps h) (expressionStatement_keeps h))

end IntScript.Grammar
