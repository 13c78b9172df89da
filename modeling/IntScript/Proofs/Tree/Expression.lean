import IntScript.Proofs.Tree.Arena
import Mathlib.Data.List.Forall2

namespace IntScript

inductive Expr where
  | literal (text : String)
  | identifier (name : String)
  | binary (op : Operator) (left right : Expr)
  deriving DecidableEq, Repr

inductive Stmt where
  | declaration (name : String) (init? : Option Expr)
  | assignment (name : String) (value : Expr)
  | expression (value : Expr)
  deriving DecidableEq, Repr

/-- The expression and all that it consists of: left operand, right operand, operator. -/
def Expr.parts : Expr → List Expr
  | .binary op left right => left.parts ++ right.parts ++ [.binary op left right]
  | e => [e]

def Stmt.expr? : Stmt → Option Expr
  | .declaration _ init? => init?
  | .assignment _ value | .expression value => some value

theorem Expr.mem_parts_self (e : Expr) : e ∈ e.parts := by
  cases e <;> simp [parts]

namespace Arena

/-- The expression that stands at a place, read off the links to children. -/
def Holds (a : Arena) : Nat → Expr → Prop
  | id, .literal text => a.node? id = some (.literal text)
  | id, .identifier name => a.node? id = some (.identifier name)
  | id, .binary op left right =>
      ∃ i j, a.node? id = some (.binary op i j) ∧ a.Holds i left ∧ a.Holds j right

def HoldsStmt (a : Arena) (id : Nat) : Stmt → Prop
  | .declaration name none => a.node? id = some (.declaration name none)
  | .declaration name (some init) =>
      ∃ i, a.node? id = some (.declaration name (some i)) ∧ a.Holds i init
  | .assignment name value => ∃ i, a.node? id = some (.assignment name i) ∧ a.Holds i value
  | .expression value => a.Holds id value

def HoldsProgram (a : Arena) (xs : List Stmt) : Prop :=
  ∃ root ids, a.root? = some root ∧ a.node? root = some (.program ids) ∧
    List.Forall₂ a.HoldsStmt ids xs

def graft (a : Arena) : Expr → Arena
  | .literal text => a.push (.literal text)
  | .identifier name => a.push (.identifier name)
  | .binary op left right =>
      ((a.graft left).graft right).push
        (.binary op (a.graft left).last ((a.graft left).graft right).last)

def graftStmt (a : Arena) : Stmt → Arena
  | .declaration name none => a.push (.declaration name none)
  | .declaration name (some init) => (a.graft init).push (.declaration name (some (a.graft init).last))
  | .assignment name value => (a.graft value).push (.assignment name (a.graft value).last)
  | .expression value => a.graft value

/-- Adds statements and the program of these and of those before, the last of which comes first. -/
def graftProgram (a : Arena) (ids : List Nat) : List Stmt → Arena
  | [] => a.push (.program ids.reverse)
  | x :: xs => (a.graftStmt x).graftProgram ((a.graftStmt x).last :: ids) xs

variable {a b : Arena}

theorem Holds.mono (hw : a.Within b) {id : Nat} {e : Expr} (h : a.Holds id e) : b.Holds id e := by
  induction e generalizing id with
  | literal text | identifier name => exact hw _ _ h
  | binary op left right ihl ihr =>
      obtain ⟨i, j, hn, hl, hr⟩ := h
      exact ⟨i, j, hw _ _ hn, ihl hl, ihr hr⟩

theorem HoldsStmt.mono (hw : a.Within b) {id : Nat} {x : Stmt} (h : a.HoldsStmt id x) :
    b.HoldsStmt id x := by
  cases x with
  | declaration name init? =>
      cases init? with
      | none => exact hw _ _ h
      | some init =>
          obtain ⟨i, hn, hi⟩ := h
          exact ⟨i, hw _ _ hn, hi.mono hw⟩
  | assignment name value =>
      obtain ⟨i, hn, hi⟩ := h
      exact ⟨i, hw _ _ hn, hi.mono hw⟩
  | expression value => exact Holds.mono hw h

theorem exists_stmt {ids : List Nat} {xs : List Stmt} (h : List.Forall₂ a.HoldsStmt ids xs) {k id : Nat}
    (hk : ids[k]? = some id) : ∃ x, xs[k]? = some x ∧ a.HoldsStmt id x := by
  obtain ⟨hlt, rfl⟩ := List.getElem?_eq_some_iff.1 hk
  have hlt' : k < xs.length := h.length_eq ▸ hlt
  exact ⟨xs[k], List.getElem?_eq_getElem hlt', h.get hlt hlt'⟩

theorem exists_place {ids : List Nat} {xs : List Stmt} (h : List.Forall₂ a.HoldsStmt ids xs) {k : Nat} {x : Stmt}
    (hk : xs[k]? = some x) : ∃ id, ids[k]? = some id ∧ a.HoldsStmt id x := by
  obtain ⟨hlt, rfl⟩ := List.getElem?_eq_some_iff.1 hk
  have hlt' : k < ids.length := h.length_eq ▸ hlt
  exact ⟨ids[k], List.getElem?_eq_getElem hlt', h.get hlt' hlt⟩

theorem HoldsProgram.statements {xs : List Stmt} (h : a.HoldsProgram xs) : List.Forall₂ a.HoldsStmt a.statements xs := by
  obtain ⟨root, ids, hroot, hn, hids⟩ := h
  have hs : a.statements = ids := by simp [Arena.statements, hroot, hn]
  rwa [hs]

theorem within_graft (a : Arena) (e : Expr) : a.Within (a.graft e) := by
  induction e generalizing a with
  | literal text | identifier name => exact within_push a _
  | binary op left right ihl ihr => exact ((ihl a).trans (ihr _)).trans (within_push _ _)

theorem size_lt_graft (a : Arena) (e : Expr) : a.size < (a.graft e).size := by
  induction e generalizing a with
  | literal text | identifier name => simp [graft]
  | binary op left right ihl ihr =>
      have hl := ihl a
      have hr := ihr (a.graft left)
      simp only [graft, size_push]
      omega

theorem last_graft_lt (a : Arena) (e : Expr) : (a.graft e).last < (a.graft e).size :=
  Nat.sub_lt (Nat.lt_of_le_of_lt (Nat.zero_le _) (size_lt_graft a e)) Nat.one_pos

theorem holds_graft (a : Arena) (e : Expr) : (a.graft e).Holds (a.graft e).last e := by
  induction e generalizing a with
  | literal text | identifier name =>
      rw [graft, last_push]
      exact node?_push_size a _
  | binary op left right ihl ihr =>
      rw [graft, last_push]
      refine ⟨_, _, node?_push_size _ _, ?_, ?_⟩
      · exact (ihl a).mono ((within_graft _ right).trans (within_push _ _))
      · exact (ihr _).mono (within_push _ _)

theorem within_graftStmt (a : Arena) (x : Stmt) : a.Within (a.graftStmt x) := by
  cases x with
  | declaration name init? =>
      cases init? with
      | none => exact within_push a _
      | some init => exact (within_graft a init).trans (within_push _ _)
  | assignment name value => exact (within_graft a value).trans (within_push _ _)
  | expression value => exact within_graft a value

theorem holdsStmt_graftStmt (a : Arena) (x : Stmt) :
    (a.graftStmt x).HoldsStmt (a.graftStmt x).last x := by
  cases x with
  | declaration name init? =>
      cases init? with
      | none =>
          rw [graftStmt, last_push]
          exact node?_push_size a _
      | some init =>
          rw [graftStmt, last_push]
          exact ⟨_, node?_push_size _ _, (holds_graft a init).mono (within_push _ _)⟩
  | assignment name value =>
      rw [graftStmt, last_push]
      exact ⟨_, node?_push_size _ _, (holds_graft a value).mono (within_push _ _)⟩
  | expression value => exact holds_graft a value

theorem root?_push (a : Arena) (n : Node) : (a.push n).root? = some a.size := by
  simp [root?]

/-- The program that is added last holds the statements added now after those that were there. -/
theorem holdsProgram_graftProgram (ids : List Nat) {xs : List Stmt}
    (h : List.Forall₂ a.HoldsStmt ids.reverse xs) (ys : List Stmt) :
    (a.graftProgram ids ys).HoldsProgram (xs ++ ys) := by
  induction ys generalizing a ids xs with
  | nil =>
      refine ⟨a.size, ids.reverse, root?_push _ _, node?_push_size _ _, ?_⟩
      rw [List.append_nil]
      exact h.imp fun _ _ hx => hx.mono (within_push _ _)
  | cons y ys ih =>
      have hx : List.Forall₂ (a.graftStmt y).HoldsStmt
          (List.reverse ((a.graftStmt y).last :: ids)) (xs ++ [y]) := by
        rw [List.reverse_cons]
        refine List.rel_append ?_ ?_
        · exact h.imp fun _ _ hx => hx.mono (within_graftStmt a y)
        · exact .cons (holdsStmt_graftStmt a y) .nil
      simpa only [graftProgram, List.append_assoc, List.singleton_append] using ih _ hx

section

variable {P : Arena → Prop} (push : ∀ b n, P b → n.type ≠ .program → (∀ child ∈ n.children, ∃ e, b.Holds child e) → P (b.push n))
include push

/-- Adding an expression keeps what is kept where one node is added over expressions that are there. -/
theorem graft_induction (h : P a) (e : Expr) : P (a.graft e) := by
  induction e generalizing a with
  | literal text | identifier name => exact push a _ h nofun fun _ hc => absurd hc List.not_mem_nil
  | binary op left right ihl ihr =>
      refine push _ _ (ihr (ihl h)) (by cases op <;> nofun) fun child hc => ?_
      rcases List.mem_pair.1 hc with rfl | rfl
      · exact ⟨left, (holds_graft a left).mono (within_graft _ right)⟩
      · exact ⟨right, holds_graft (a.graft left) right⟩

theorem graftStmt_induction (h : P a) (x : Stmt) : P (a.graftStmt x) := by
  have hvalue (value : Expr) : ∀ child ∈ [(a.graft value).last], ∃ e, (a.graft value).Holds child e := by
    intro child hc
    obtain rfl := List.mem_singleton.1 hc
    exact ⟨value, holds_graft a value⟩
  cases x with
  | declaration name init? =>
      cases init? with
      | none => exact push a _ h nofun fun _ hc => absurd hc List.not_mem_nil
      | some init => exact push _ _ (graft_induction push h init) nofun (hvalue init)
  | assignment name value => exact push _ _ (graft_induction push h value) nofun (hvalue value)
  | expression value => exact graft_induction push h value

end

theorem Holds.lt_size {id : Nat} {e : Expr} (h : a.Holds id e) : id < a.size := by
  cases e with
  | literal text | identifier name => exact lt_size_of_node? h
  | binary op left right =>
      obtain ⟨i, j, hn, -⟩ := h
      exact lt_size_of_node? hn

theorem Ordered.push_over {n : Node} (h : a.Ordered) (hn : ∀ child ∈ n.children, ∃ e, a.Holds child e) :
    (a.push n).Ordered := by
  apply h.push
  intro child hc
  obtain ⟨e, he⟩ := hn child hc
  exact he.lt_size

theorem Ordered.graftStmt (h : a.Ordered) (x : Stmt) : (a.graftStmt x).Ordered :=
  graftStmt_induction (fun _ _ hb _ hn => hb.push_over hn) h x

end Arena

end IntScript
