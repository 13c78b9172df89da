import IntScript.Proofs.Tree.Nodes

namespace IntScript

def Stmt.size : Stmt → Nat
  | .declaration _ init? => init?.elim 0 (·.parts.length) + 1
  | .assignment _ value => value.parts.length + 1
  | .expression value => value.parts.length

namespace Arena

variable {a : Arena} {e part : Expr} {x : Stmt} {i : Nat} {node : Node}

theorem size_graft (a : Arena) (e : Expr) : (a.graft e).size = a.size + e.parts.length := by
  induction e generalizing a with
  | literal text | identifier name => exact size_push a _
  | binary op left right ihl ihr =>
      rw [graft, size_push, ihr, ihl]
      simp only [Expr.parts, List.length_append, List.length_singleton, Nat.add_assoc]

theorem size_graftStmt (a : Arena) (x : Stmt) : (a.graftStmt x).size = a.size + x.size := by
  cases x with
  | declaration name init? =>
      cases init? with
      | none => exact size_push a _
      | some init => rw [graftStmt, size_push, size_graft, Stmt.size, Option.elim_some, Nat.add_assoc]
  | assignment name value => rw [graftStmt, size_push, size_graft, Stmt.size, Nat.add_assoc]
  | expression value => exact size_graft a value

/-- The parts of an expression stand one after the other, in their order. -/
theorem holds_graft_part (a : Arena) (h : e.parts[i]? = some part) : (a.graft e).Holds (a.size + i) part := by
  induction e generalizing a i with
  | literal text | identifier name =>
      cases i with
      | zero =>
          obtain rfl := Option.some.inj h
          exact node?_push_size a _
      | succ i => exact nomatch h
  | binary op left right ihl ihr =>
      have hself := holds_graft a (.binary op left right)
      have hlast : (a.graft (.binary op left right)).last = a.size + (left.parts ++ right.parts).length := by
        rw [last, size_graft, Expr.parts, List.length_append, List.length_singleton, Nat.add_sub_assoc (Nat.le_add_left _ _),
          Nat.add_sub_cancel]
      rw [Expr.parts, List.getElem?_append] at h
      split_ifs at h with hi
      · rw [List.getElem?_append] at h
        split_ifs at h with hl
        · exact (ihl a h).mono ((within_graft _ right).trans (within_push _ _))
        · have hright := ihr (a.graft left) h
          rw [size_graft, Nat.add_assoc, Nat.add_sub_of_le (Nat.le_of_not_lt hl)] at hright
          exact hright.mono (within_push _ _)
      · obtain ⟨hlt, rfl⟩ := List.getElem?_eq_some_iff.1 h
        have hi : i = (left.parts ++ right.parts).length := by
          rw [List.length_singleton] at hlt
          omega
        rw [List.getElem_singleton, hi, ← hlast]
        exact hself

theorem holds_graftStmt_part (a : Arena) (he : e ∈ x.expr?) (h : e.parts[i]? = some part) :
    (a.graftStmt x).Holds (a.size + i) part := by
  cases x with
  | declaration name init? =>
      obtain rfl := Option.mem_def.1 he
      exact (holds_graft_part a h).mono (within_push _ _)
  | assignment name value =>
      obtain rfl := Option.some.inj he
      exact (holds_graft_part a h).mono (within_push _ _)
  | expression value =>
      obtain rfl := Option.some.inj he
      exact holds_graft_part a h

/-- Apart from the expression, a statement has at most one node, which is none of an expression. -/
theorem lt_of_node?_graftStmt (hn : (a.graftStmt x).node? (a.size + i) = some node)
    (ht : node.statementType = .expressionStatement) : ∃ e ∈ x.expr?, i < e.parts.length := by
  have hpush {b : Arena} {n : Node} (hn : (b.push n).node? (a.size + i) = some node)
      (h : n.statementType ≠ .expressionStatement) : a.size + i < b.size := by
    rw [node?_push] at hn
    split_ifs at hn with hid
    · obtain rfl := Option.some.inj hn
      exact absurd ht h
    · exact lt_size_of_node? hn
  cases x with
  | declaration name init? =>
      cases init? with
      | none => exact absurd (hpush hn nofun) (Nat.not_lt.2 (Nat.le_add_right _ _))
      | some init =>
          have hlt := hpush hn nofun
          rw [size_graft] at hlt
          exact ⟨init, rfl, Nat.lt_of_add_lt_add_left hlt⟩
  | assignment name value =>
      have hlt := hpush hn nofun
      rw [size_graft] at hlt
      exact ⟨value, rfl, Nat.lt_of_add_lt_add_left hlt⟩
  | expression value =>
      have hlt := lt_size_of_node? hn
      rw [size_graftStmt] at hlt
      exact ⟨value, rfl, Nat.lt_of_add_lt_add_left hlt⟩

theorem within_graftProgram (a : Arena) (ids : List Nat) (xs : List Stmt) : a.Within (a.graftProgram ids xs) := by
  induction xs generalizing a ids with
  | nil => exact within_push a _
  | cons x xs ih => exact (within_graftStmt a x).trans (ih _ _)

end Arena

end IntScript
