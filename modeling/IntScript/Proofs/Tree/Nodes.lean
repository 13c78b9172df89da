import IntScript.Proofs.Tree.Expression

namespace IntScript

theorem Expr.parts_subset {e x : Expr} (h : x ∈ e.parts) : x.parts ⊆ e.parts := by
  induction e with
  | literal text | identifier name =>
      obtain rfl := List.mem_singleton.1 h
      exact List.Subset.refl _
  | binary op left right ihl ihr =>
      simp only [parts, List.mem_append, List.mem_singleton] at h
      intro y hy
      simp only [parts, List.mem_append, List.mem_singleton]
      rcases h with (h | h) | rfl
      · exact .inl (.inl (ihl h hy))
      · exact .inl (.inr (ihr h hy))
      · simpa only [parts, List.mem_append, List.mem_singleton] using hy

def Stmt.nodeType : Stmt → NodeType
  | .declaration _ _ => .declaration
  | .assignment _ _ => .assignment
  | .expression _ => .expressionStatement

namespace Arena

variable {a : Arena} {id : Nat} {n : Node}

/-- What is new in the arena stands for a part of the expression. -/
theorem node?_graft {e : Expr} (h : (a.graft e).node? id = some n) :
    a.node? id = some n ∨ ∃ x ∈ e.parts, (a.graft e).Holds id x := by
  induction e generalizing a with
  | literal text | identifier name =>
      rw [graft, node?_push] at h
      split_ifs at h with hid
      · refine .inr ⟨_, Expr.mem_parts_self _, ?_⟩
        rw [hid]
        exact node?_push_size a _
      · exact .inl h
  | binary op left right ihl ihr =>
      have hself := holds_graft a (.binary op left right)
      have hw := within_push ((a.graft left).graft right)
        (.binary op (a.graft left).last ((a.graft left).graft right).last)
      rw [graft, node?_push] at h
      split_ifs at h with hid
      · rw [graft, last_push, ← hid] at hself
        exact .inr ⟨_, Expr.mem_parts_self _, hself⟩
      · rcases ihr h with h | ⟨x, hx, hh⟩
        · rcases ihl h with h | ⟨x, hx, hh⟩
          · exact .inl h
          · refine .inr ⟨x, by simp [Expr.parts, hx], ?_⟩
            exact hh.mono ((within_graft _ right).trans hw)
        · exact .inr ⟨x, by simp [Expr.parts, hx], hh.mono hw⟩

/-- Every expression node stands for a part of the expression of one of the statements. -/
def Covered (a : Arena) (xs : List Stmt) : Prop :=
  ∀ id n, a.node? id = some n → n.statementType = .expressionStatement →
    ∃ x ∈ xs, ∃ e ∈ x.expr?, ∃ y ∈ e.parts, a.Holds id y

theorem covered_empty : empty.Covered [] := fun _ _ h => nomatch h

variable {xs : List Stmt}

theorem Covered.push (h : a.Covered xs) (hn : n.statementType ≠ .expressionStatement) : (a.push n).Covered xs := by
  intro id m hm hx
  rw [node?_push] at hm
  split_ifs at hm with hid
  · obtain rfl := Option.some.inj hm
    exact absurd hx hn
  · obtain ⟨x, hxs, e, he, y, hy, hh⟩ := h id m hm hx
    exact ⟨x, hxs, e, he, y, hy, hh.mono (within_push a n)⟩

theorem Covered.graft (h : a.Covered xs) {x : Stmt} {e : Expr} (he : e ∈ x.expr?) :
    (a.graft e).Covered (xs ++ [x]) := by
  intro id m hm hx
  rcases node?_graft hm with hm | ⟨y, hy, hh⟩
  · obtain ⟨z, hz, f, hf, y, hy, hh⟩ := h id m hm hx
    exact ⟨z, List.mem_append_left _ hz, f, hf, y, hy, hh.mono (within_graft a e)⟩
  · exact ⟨x, List.mem_append_right _ List.mem_cons_self, e, he, y, hy, hh⟩

theorem Covered.append (h : a.Covered xs) (ys : List Stmt) : a.Covered (xs ++ ys) := by
  intro id m hm hx
  obtain ⟨x, hxs, hrest⟩ := h id m hm hx
  exact ⟨x, List.mem_append_left _ hxs, hrest⟩

theorem Covered.graftStmt (h : a.Covered xs) (x : Stmt) : (a.graftStmt x).Covered (xs ++ [x]) := by
  cases x with
  | declaration name init? =>
      cases init? with
      | none => exact (h.append _).push nofun
      | some init => exact (h.graft (x := .declaration name (some init)) rfl).push nofun
  | assignment name value => exact (h.graft (x := .assignment name value) rfl).push nofun
  | expression value => exact h.graft (x := .expression value) rfl

theorem Covered.graftProgram (h : a.Covered xs) (ids : List Nat) (ys : List Stmt) :
    (a.graftProgram ids ys).Covered (xs ++ ys) := by
  induction ys generalizing a ids xs with
  | nil =>
      rw [List.append_nil]
      exact h.push nofun
  | cons y ys ih =>
      rw [List.append_cons]
      exact ih (h.graftStmt y) _

theorem last_graftStmt_lt (a : Arena) (x : Stmt) : (a.graftStmt x).last < (a.graftStmt x).size := by
  cases x with
  | declaration name init? => cases init? <;> simp [graftStmt]
  | assignment name value => simp [graftStmt]
  | expression value => exact last_graft_lt a value

theorem size_le_graftStmt (a : Arena) (x : Stmt) : a.size ≤ (a.graftStmt x).size := by
  by_contra hlt
  obtain ⟨n, hn⟩ := node?_of_lt_size (Nat.lt_of_not_le hlt)
  exact Nat.lt_irrefl _ (lt_size_of_node? (within_graftStmt a x _ n hn))

theorem Ordered.graftProgram (h : a.Ordered) {ids : List Nat} (hids : ∀ i ∈ ids, i < a.size) (xs : List Stmt) :
    (a.graftProgram ids xs).Ordered := by
  induction xs generalizing a ids with
  | nil => exact h.push fun i hi => hids i (List.mem_reverse.1 hi)
  | cons x xs ih =>
      refine ih (h.graftStmt x) fun i hi => ?_
      rcases List.mem_cons.1 hi with rfl | hi
      · exact last_graftStmt_lt a x
      · exact Nat.lt_of_lt_of_le (hids i hi) (size_le_graftStmt a x)

theorem ordered_graftProgram (xs : List Stmt) : (empty.graftProgram [] xs).Ordered :=
  ordered_empty.graftProgram (fun _ hi => absurd hi List.not_mem_nil) xs

def Typed (a : Arena) : Prop :=
  ∀ id n, a.node? id = some n → n.type ≠ .program → ∀ child ∈ n.children, ∃ e, a.Holds child e

theorem typed_empty : empty.Typed := fun _ _ h => nomatch h

theorem Typed.push (h : a.Typed) (hn : n.type ≠ .program → ∀ child ∈ n.children, ∃ e, a.Holds child e) :
    (a.push n).Typed := by
  intro id m hm ht child hc
  rw [node?_push] at hm
  split_ifs at hm with hid
  · obtain rfl := Option.some.inj hm
    obtain ⟨e, he⟩ := hn ht child hc
    exact ⟨e, he.mono (within_push a n)⟩
  · obtain ⟨e, he⟩ := h id m hm ht child hc
    exact ⟨e, he.mono (within_push a n)⟩

theorem Typed.graftStmt (h : a.Typed) (x : Stmt) : (a.graftStmt x).Typed :=
  graftStmt_induction (fun _ _ hb _ hn => hb.push fun _ => hn) h x

theorem Typed.graftProgram (h : a.Typed) (ids : List Nat) (xs : List Stmt) : (a.graftProgram ids xs).Typed := by
  induction xs generalizing a ids with
  | nil => exact h.push fun ht => absurd rfl ht
  | cons x xs ih => exact ih (h.graftStmt x) _

section Unique

variable {e e' : Expr} {x y : Stmt}

theorem Holds.statementType (h : a.Holds id e) : ∃ n, a.node? id = some n ∧ n.statementType = .expressionStatement := by
  cases e with
  | literal text | identifier name => exact ⟨_, h, rfl⟩
  | binary op left right =>
      obtain ⟨i, j, hn, -⟩ := h
      exact ⟨_, hn, by cases op <;> rfl⟩

/-- No two expressions stand at one place. -/
theorem Holds.unique (h : a.Holds id e) (h' : a.Holds id e') : e = e' := by
  induction e generalizing id e' with
  | literal text =>
      cases e' with
      | literal text' => exact congrArg Expr.literal (Node.literal.inj (Option.some.inj (h.symm.trans h')))
      | identifier name' => exact nomatch h.symm.trans h'
      | binary op' left' right' =>
          obtain ⟨i, j, hn, -⟩ := h'
          exact nomatch h.symm.trans hn
  | identifier name =>
      cases e' with
      | literal text' => exact nomatch h.symm.trans h'
      | identifier name' => exact congrArg Expr.identifier (Node.identifier.inj (Option.some.inj (h.symm.trans h')))
      | binary op' left' right' =>
          obtain ⟨i, j, hn, -⟩ := h'
          exact nomatch h.symm.trans hn
  | binary op left right ihl ihr =>
      obtain ⟨i, j, hn, hl, hr⟩ := h
      cases e' with
      | literal text' => exact nomatch hn.symm.trans h'
      | identifier name' => exact nomatch hn.symm.trans h'
      | binary op' left' right' =>
          obtain ⟨i', j', hn', hl', hr'⟩ := h'
          obtain ⟨rfl, rfl, rfl⟩ := Node.binary.inj (Option.some.inj (hn.symm.trans hn'))
          rw [ihl hl hl', ihr hr hr']

theorem HoldsStmt.statementType (h : a.HoldsStmt id x) :
    ∃ n, a.node? id = some n ∧ n.statementType = x.nodeType := by
  cases x with
  | declaration name init? =>
      cases init? with
      | none => exact ⟨_, h, rfl⟩
      | some init =>
          obtain ⟨i, hn, -⟩ := h
          exact ⟨_, hn, rfl⟩
  | assignment name value =>
      obtain ⟨i, hn, -⟩ := h
      exact ⟨_, hn, rfl⟩
  | expression value => exact Holds.statementType h

theorem HoldsStmt.unique (h : a.HoldsStmt id x) (h' : a.HoldsStmt id y) : x = y := by
  have htype : x.nodeType = y.nodeType := by
    obtain ⟨n, hn, hx⟩ := h.statementType
    obtain ⟨m, hm, hy⟩ := h'.statementType
    obtain rfl := Option.some.inj (hn.symm.trans hm)
    exact hx.symm.trans hy
  cases x with
  | declaration name init? =>
      cases y with
      | declaration name' init?' =>
          cases init? with
          | none =>
              cases init?' with
              | none =>
                  obtain ⟨rfl, -⟩ := Node.declaration.inj (Option.some.inj (h.symm.trans h'))
                  rfl
              | some init' =>
                  obtain ⟨i', hn', -⟩ := h'
                  exact nomatch h.symm.trans hn'
          | some init =>
              obtain ⟨i, hn, hi⟩ := h
              cases init?' with
              | none => exact nomatch hn.symm.trans h'
              | some init' =>
                  obtain ⟨i', hn', hi'⟩ := h'
                  obtain ⟨rfl, hii⟩ := Node.declaration.inj (Option.some.inj (hn.symm.trans hn'))
                  obtain rfl := Option.some.inj hii
                  rw [hi.unique hi']
      | assignment | expression => exact nomatch htype
  | assignment name value =>
      cases y with
      | assignment name' value' =>
          obtain ⟨i, hn, hi⟩ := h
          obtain ⟨i', hn', hi'⟩ := h'
          obtain ⟨rfl, rfl⟩ := Node.assignment.inj (Option.some.inj (hn.symm.trans hn'))
          rw [hi.unique hi']
      | declaration | expression => exact nomatch htype
  | expression value =>
      cases y with
      | expression value' => exact congrArg Stmt.expression (Holds.unique h h')
      | declaration | assignment => exact nomatch htype

/-- A tree holds one list of statements. -/
theorem HoldsProgram.unique {ys : List Stmt} (h : a.HoldsProgram xs) (h' : a.HoldsProgram ys) : xs = ys := by
  obtain ⟨root, ids, hroot, hn, hids⟩ := h
  obtain ⟨root', ids', hroot', hn', hids'⟩ := h'
  obtain rfl := Option.some.inj (hroot.symm.trans hroot')
  obtain rfl := Node.program.inj (Option.some.inj (hn.symm.trans hn'))
  clear hroot hroot' hn hn'
  induction hids generalizing ys with
  | nil =>
      cases hids'
      rfl
  | cons hx _ ih =>
      cases hids' with
      | cons hy hids' => rw [hx.unique hy, ih hids']

end Unique

end Arena

end IntScript
