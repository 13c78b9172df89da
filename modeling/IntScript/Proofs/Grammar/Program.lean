import IntScript.Grammar.Parse
import IntScript.Proofs.Grammar.StatementReading
import IntScript.Proofs.Tree.Nodes

namespace IntScript.Grammar

variable {rule : Rule} {n : Nat} {s : State} {ts us done : List Token} {xs : List Stmt}

theorem Program.append {ys : List Stmt} (h : Program n ts xs) (h' : Program n us ys) :
    Program n (ts ++ us) (xs ++ ys) := by
  induction h with
  | nil => exact h'
  | cons hx _ ih =>
      rw [List.append_assoc]
      exact .cons hx ih

theorem Statement.length_pos {x : Stmt} (h : Statement n ts x) : 0 < ts.length := by
  cases h <;> simp

/-- The loop over the statements comes to the end of the last one. The pushes that are left are
those that were left at the start, less those of the statements. -/
theorem statementsFrom_reaches (hr : StatementReads rule n) (h : Program n ts xs) (fuel : Nat)
    (ids : List Nat) (hn : s.nesting + n = maxNesting) (hs : s.cursor.rest = ts ++ us)
    (hfuel : (ts ++ us).length ≤ fuel) :
    ∃ fuel' ids' t, us.length ≤ fuel' ∧ t.cursor = s.cursor.skip ts.length ∧ t.nesting = s.nesting ∧
      t.arena.graftProgram ids' [] = s.arena.graftProgram ids xs ∧
      statementsFrom rule fuel ids s = statementsFrom rule fuel' ids' t := by
  induction h generalizing s fuel ids with
  | nil => exact ⟨fuel, ids, s, hfuel, rfl, rfl, rfl, rfl⟩
  | @cons ts vs x xs hx _ ih =>
      rw [List.append_assoc] at hs hfuel
      obtain ⟨t, ht, hafter⟩ := hr.node hn hs hx
      have hpos := hx.length_pos
      simp only [List.length_append] at hfuel
      obtain ⟨fuel, rfl⟩ := Nat.exists_eq_add_of_lt (Nat.lt_of_lt_of_le hpos (Nat.le_trans (Nat.le_add_right _ _) hfuel))
      have hrest : t.cursor.rest = vs ++ us := by
        rw [hafter.cursor]
        exact Cursor.rest_skip_append hs
      obtain ⟨fuel', ids', r, hl, hc, hk, ha, hrun⟩ := ih (s := t) (0 + fuel) (t.arena.last :: ids)
        (by rw [hafter.nesting, hn]) hrest (by simp only [List.length_append]; omega)
      refine ⟨fuel', ids', r, hl, ?_, hk.trans hafter.nesting, ?_, ?_⟩
      · rw [hc, hafter.cursor, Cursor.skip_skip, List.length_append]
      · rw [ha, hafter.arena]
        rfl
      · obtain ⟨t, hp⟩ : ∃ t, s.cursor.peek? = some t := by
          cases ts with
          | nil => simp at hpos
          | cons t ts => exact ⟨t, by rw [Cursor.peek?_eq_head?, hs]; rfl⟩
        rw [statementsFrom, hp, ht]
        exact hrun

theorem parseProgram_eq {c : Cursor} {p : Parsed} (h : programWithin (maxNesting + 1) c = some p) :
    parseProgram c = p := by
  simp [parseProgram, h]

theorem statement_additive_reads : StatementReads (statement (additive (maxNesting + 1))) maxNesting :=
  statement_reads (additive_reads (Nat.le_refl _))

variable {c : Cursor}

theorem parseProgram_reaches (h : Program maxNesting done xs) (hs : c.rest = done ++ us) :
    ∃ fuel ids t, us.length ≤ fuel ∧ t.cursor = c.skip done.length ∧ t.nesting + maxNesting = maxNesting ∧
      t.arena.graftProgram ids [] = Arena.empty.graftProgram [] xs ∧
      programWithin (maxNesting + 1) c =
        statementsFrom (statement (additive (maxNesting + 1))) fuel ids t := by
  have hn : (State.start c).nesting + maxNesting = maxNesting := Nat.zero_add _
  obtain ⟨fuel, ids, t, hl, hc, hk, ha, hrun⟩ := statementsFrom_reaches statement_additive_reads h
    c.remaining [] hn hs (Nat.le_of_eq (by rw [Cursor.remaining_eq_length, hs]))
  exact ⟨fuel, ids, t, hl, hc, by rw [hk, hn], ha, hrun⟩

theorem parseProgram_ok (h : Program maxNesting c.rest xs) :
    (parseProgram c).result = .ok (Arena.empty.graftProgram [] xs) := by
  obtain ⟨fuel, ids, t, -, hc, -, ha, hrun⟩ := parseProgram_reaches h (List.append_nil _).symm
  have hp : t.cursor.peek? = none := by
    rw [Cursor.peek?_eq_head?, hc, Cursor.rest_skip_append (List.append_nil _).symm]
    rfl
  have hend : statementsFrom (statement (additive (maxNesting + 1))) fuel ids t =
      some (t.succeed ids.reverse) := by
    cases fuel with
    | zero => rfl
    | succ fuel => rw [statementsFrom, hp]
  rw [parseProgram_eq (hrun.trans hend), ← ha]
  rfl

theorem parseProgram_next (h : Program maxNesting done xs) (hs : c.rest = done ++ us) (hne : us ≠ []) :
    ∃ t, t.cursor = c.skip done.length ∧ t.nesting + maxNesting = maxNesting ∧
      ((∀ r, statement (additive (maxNesting + 1)) t = some (.absent r) →
          (parseProgram c).result = .error (r.cursor.fault .unknownStatement)) ∧
        ∀ e r, statement (additive (maxNesting + 1)) t = some (.error e r) →
          (parseProgram c).result = .error e) := by
  obtain ⟨fuel, ids, t, hl, hc, hn, -, hrun⟩ := parseProgram_reaches h hs
  obtain ⟨first, us, rfl⟩ := List.exists_cons_of_ne_nil hne
  have hp : t.cursor.peek? = some first := by
    rw [Cursor.peek?_eq_head?, hc, Cursor.rest_skip_append hs]
    rfl
  cases fuel with
  | zero => simp at hl
  | succ fuel =>
      refine ⟨t, hc, hn, fun r hrep => ?_, fun e r hrep => ?_⟩
      · rw [parseProgram_eq (p := r.stop (r.cursor.fault .unknownStatement))
          (by rw [hrun, statementsFrom, hp, hrep])]
        rfl
      · rw [parseProgram_eq (p := r.stop e) (by rw [hrun, statementsFrom, hp, hrep])]
        rfl

theorem parseProgram_fault {reason : ParseError.Reason} (hd : Program maxNesting done xs)
    (hs : c.rest = done ++ (ts ++ us)) (h : StatementFault maxNesting ts us.head? reason) (hne : ts ++ us ≠ []) :
    (parseProgram c).result = .error ⟨reason, c.position + done.length + ts.length, us.head?⟩ := by
  obtain ⟨t, hc, hn, -, herror⟩ := parseProgram_next hd hs hne
  obtain ⟨r, hrep⟩ := statement_additive_reads.error hn (by rw [hc]; exact Cursor.rest_skip_append hs) h
  rw [herror _ r hrep, hc, Cursor.position_skip_append hs]

theorem parseProgram_unfinished (hd : Program maxNesting done xs) (hs : c.rest = done ++ (ts ++ us))
    (h : Unfinished maxNesting ts us.head?) (hne : ts ++ us ≠ []) :
    (parseProgram c).result = .error ⟨.unknownStatement, c.position + done.length, (ts ++ us).head?⟩ := by
  obtain ⟨t, hc, hn, habsent, -⟩ := parseProgram_next hd hs hne
  have hrest : t.cursor.rest = ts ++ us := by
    rw [hc]
    exact Cursor.rest_skip_append hs
  obtain ⟨r, hrep, hr⟩ := statement_additive_reads.absent hn hrest h
  rw [habsent r hrep, Cursor.fault, Cursor.peek?_eq_head?, hr, hrest, hc, Cursor.position_skip_append hs]

/-- Every token list is a program, or statements and then one that cannot be read. -/
theorem program_cases (us : List Token) :
    (∃ xs, Program maxNesting us xs) ∨
      ∃ done xs ts vs, us = done ++ (ts ++ vs) ∧ Program maxNesting done xs ∧ ts ++ vs ≠ [] ∧
        ((∃ reason, StatementFault maxNesting ts vs.head? reason) ∨ Unfinished maxNesting ts vs.head?) := by
  induction hk : us.length using Nat.strongRecOn generalizing us with
  | _ k ih =>
      by_cases hne : us = []
      · exact .inl ⟨[], hne ▸ .nil⟩
      have ho := statement_additive_reads.outcome (.start (.start us.toArray)) (Nat.zero_add _)
      have hrest : (State.start (.start us.toArray)).cursor.rest = us := Cursor.rest_start_toArray us
      generalize statement (additive (maxNesting + 1)) (.start (.start us.toArray)) = reply at ho
      cases ho with
      | @node ts vs x t hs h ht =>
          obtain rfl := hrest.symm.trans hs
          have hpos := h.length_pos
          obtain ⟨xs, hxs⟩ | ⟨done, xs, ws, zs, rfl, hd, hnil, hf⟩ :=
            ih vs.length (by rw [← hk, List.length_append]; omega) vs rfl
          · exact .inl ⟨x :: xs, .cons h hxs⟩
          · exact .inr ⟨ts ++ done, x :: xs, ws, zs, (List.append_assoc _ _ _).symm, .cons h hd, hnil, hf⟩
      | @absent ts vs t hs h hc =>
          obtain rfl := hrest.symm.trans hs
          exact .inr ⟨[], [], ts, vs, rfl, .nil, hne, .inr h⟩
      | @error ts vs reason t hs h =>
          obtain rfl := hrest.symm.trans hs
          exact .inr ⟨[], [], ts, vs, rfl, .nil, hne, .inl ⟨reason, h⟩⟩

theorem parseProgram_error_of_not_program (h : ¬ ∃ xs, Program maxNesting c.rest xs) :
    ∃ e, (parseProgram c).result = .error e := by
  rcases program_cases c.rest with hp | ⟨done, xs, ts, us, hs, hd, hne, ⟨reason, hf⟩ | hf⟩
  · exact absurd hp h
  · exact ⟨_, parseProgram_fault hd hs hf hne⟩
  · exact ⟨_, parseProgram_unfinished hd hs hf hne⟩

theorem program_of_parseProgram {a : Arena} (h : (parseProgram c).result = .ok a) :
    ∃ xs, Program maxNesting c.rest xs ∧ a = Arena.empty.graftProgram [] xs := by
  by_cases hp : ∃ xs, Program maxNesting c.rest xs
  · obtain ⟨xs, hxs⟩ := hp
    exact ⟨xs, hxs, Except.ok.inj (h.symm.trans (parseProgram_ok hxs))⟩
  · obtain ⟨e, he⟩ := parseProgram_error_of_not_program hp
    exact nomatch h.symm.trans he

theorem parseCalculation_eq {c : Cursor} {p : Parsed} (h : calculationWithin (maxNesting + 1) c = some p) :
    parseCalculation c = p := by
  simp [parseCalculation, h]

theorem parseCalculation_ok {e : Expr} (h : Additive maxNesting c.rest e) :
    (parseCalculation c).result = .ok (Arena.empty.graftProgram [] [.expression e]) := by
  have hs : (State.start c).cursor.rest = c.rest ++ [] := (List.append_nil _).symm
  have hr : additive (maxNesting + 1) (.start c) = some ((State.start c).took c.rest e).reply :=
    (additive_reads (Nat.le_refl _)).node (Nat.zero_add _) hs h (stops_nil _)
  have hp : ((State.start c).took c.rest e).cursor.peek?.isNone = true := by
    rw [Cursor.peek?_eq_head?, State.rest_took hs]
    rfl
  have hc : calculationWithin (maxNesting + 1) c =
      some (((State.start c).took c.rest e).succeed [((State.start c).took c.rest e).arena.last]) := by
    rw [calculationWithin, hr]
    exact if_pos hp
  rw [parseCalculation_eq hc]
  rfl

theorem additive_of_parseCalculation {a : Arena} (h : (parseCalculation c).result = .ok a) :
    ∃ e, Additive maxNesting c.rest e ∧ a = Arena.empty.graftProgram [] [.expression e] := by
  have ho := (additive_reads (Nat.le_refl maxNesting)).outcome (.start c) (Nat.zero_add _)
  generalize hrun : additive (maxNesting + 1) (.start c) = reply at ho
  cases ho with
  | @node ts us e hs he hu =>
      cases us with
      | nil =>
          have hts : c.rest = ts := hs.trans (List.append_nil ts)
          rw [← hts] at he
          exact ⟨e, he, Except.ok.inj (h.symm.trans (parseCalculation_ok he))⟩
      | cons t us =>
          have hp : ¬ ((State.start c).took ts e).cursor.peek?.isNone = true := by
            rw [Cursor.peek?_eq_head?, State.rest_took hs]
            simp
          have hc : calculationWithin (maxNesting + 1) c = some (((State.start c).took ts e).stop
              (((State.start c).took ts e).cursor.fault .trailingTokens)) := by
            rw [calculationWithin, hrun]
            exact if_neg hp
          rw [parseCalculation_eq hc] at h
          simp [State.stop] at h
  | absent hu =>
      rw [parseCalculation_eq (by rw [calculationWithin, hrun])] at h
      simp [State.stop] at h
  | @error ts us reason t hs hf =>
      rw [parseCalculation_eq (by rw [calculationWithin, hrun])] at h
      simp [State.stop] at h

theorem holdsProgram_empty (xs : List Stmt) : (Arena.empty.graftProgram [] xs).HoldsProgram xs :=
  Arena.holdsProgram_graftProgram [] .nil xs

/-- What comes out of parsing is a tree of statements. An expression alone counts as one. -/
theorem program_of_parse {a : Arena} (h : (parseProgram c).result = .ok a ∨ (parseCalculation c).result = .ok a) :
    ∃ ts xs, Program maxNesting ts xs ∧ a.Ordered ∧ a.HoldsProgram xs := by
  rcases h with h | h
  · obtain ⟨xs, hxs, rfl⟩ := program_of_parseProgram h
    exact ⟨c.rest, xs, hxs, Arena.ordered_graftProgram xs, holdsProgram_empty xs⟩
  · obtain ⟨e, he, rfl⟩ := additive_of_parseCalculation h
    exact ⟨_, _, .cons (.expression ";" he) .nil, Arena.ordered_graftProgram _, holdsProgram_empty _⟩

/-- Parsing succeeds on the derivations of the grammar and on nothing else, and the tree that it
builds is the one that a derivation denotes. -/
theorem parse_exact (c : Cursor) :
    ((∃ a, (parseProgram c).result = .ok a) ↔ ∃ xs, Program maxNesting c.rest xs) ∧
    (∀ a xs, (parseProgram c).result = .ok a → Program maxNesting c.rest xs → a.HoldsProgram xs) ∧
    ((∃ a, (parseCalculation c).result = .ok a) ↔ ∃ e, Additive maxNesting c.rest e) ∧
    ∀ a e, (parseCalculation c).result = .ok a → Additive maxNesting c.rest e →
      a.HoldsProgram [.expression e] := by
  refine ⟨⟨?_, ?_⟩, ?_, ⟨?_, ?_⟩, ?_⟩
  · rintro ⟨a, h⟩
    obtain ⟨xs, hxs, -⟩ := program_of_parseProgram h
    exact ⟨xs, hxs⟩
  · rintro ⟨xs, hxs⟩
    exact ⟨_, parseProgram_ok hxs⟩
  · intro a xs h hxs
    obtain rfl := Except.ok.inj (h.symm.trans (parseProgram_ok hxs))
    exact holdsProgram_empty xs
  · rintro ⟨a, h⟩
    obtain ⟨e, he, -⟩ := additive_of_parseCalculation h
    exact ⟨e, he⟩
  · rintro ⟨e, he⟩
    exact ⟨_, parseCalculation_ok he⟩
  · intro a e h he
    obtain rfl := Except.ok.inj (h.symm.trans (parseCalculation_ok he))
    exact holdsProgram_empty [.expression e]

end IntScript.Grammar
