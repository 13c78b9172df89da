import IntScript.Proofs.Grammar.Statement

namespace IntScript.Grammar

structure StatementReads (rule : Rule) (n : Nat) : Prop where
  outcome (s : State) (hn : s.nesting + n = maxNesting) : StatementOutcome n s (rule s)
  node {s : State} {ts us : List Token} {x : Stmt} (hn : s.nesting + n = maxNesting)
    (hs : s.cursor.rest = ts ++ us) (h : Statement n ts x) :
    ∃ t, rule s = some t.reply ∧ After s ts x t
  absent {s : State} {ts us : List Token} (hn : s.nesting + n = maxNesting)
    (hs : s.cursor.rest = ts ++ us) (h : Unfinished n ts us.head?) :
    ∃ t, rule s = some (.absent t) ∧ t.cursor = s.cursor
  error {s : State} {ts us : List Token} {reason : ParseError.Reason} (hn : s.nesting + n = maxNesting)
    (hs : s.cursor.rest = ts ++ us) (h : StatementFault n ts us.head? reason) :
    ∃ t, rule s = some (.error ⟨reason, s.cursor.position + ts.length, us.head?⟩ t)

variable {rule : Rule} {n : Nat} {s : State} {ts us : List Token} {e : Expr}

theorem orElse_node {first second : Rule} {t : State} (h : first s = some t.reply) :
    orElse first second s = some t.reply := by
  rw [orElse, h]
  rfl

theorem orElse_error {first second : Rule} {f : ParseError} {t : State}
    (h : first s = some (.error f t)) : orElse first second s = some (.error f t) := by
  rw [orElse, h]

theorem orElse_absent {first second : Rule} (h : first s = some (.absent s)) :
    orElse first second s = second s := by
  rw [orElse, h]

/-- The state after an expression and the semicolon that ends it, with the node that it becomes. -/
theorem after_value {x : Stmt} (pre ts : List Token) (semicolon : Token) (node : Node)
    (hx : (s.arena.graft e).push node = s.arena.graftStmt x) :
    After s (pre ++ (ts ++ [semicolon])) x { ((s.skip pre.length).took ts e).advance with
      arena := ((s.skip pre.length).arena.graft e).push node } where
  cursor := by
    change ((s.cursor.skip pre.length).skip ts.length).advance = _
    rw [Cursor.advance_skip, Cursor.skip_skip, List.length_append, List.length_append]
    rfl
  arena := hx
  nesting := rfl

section

variable (hr : Reads rule n (Additive n) (AdditiveFault n) isOperator)
include hr

theorem not_declaration (h : rule s ≠ some (.absent s)) :
    Stops (· == .keywordInt) s.cursor.rest.head? := by
  by_contra hi
  obtain ⟨⟨kind, int⟩, us, hs, hk⟩ := exists_cons_of_not_stops hi
  obtain rfl := beq_iff_eq.1 hk
  exact h (hr.absent (by rw [hs, List.head?_cons, stops_some]; rfl))

theorem identifier_reply {name equals : String} (hn : s.nesting + n = maxNesting)
    (hs : s.cursor.rest = ⟨.identifier, name⟩ :: ⟨.assign, equals⟩ :: us) :
    rule s = some (s.took [⟨.identifier, name⟩] (.identifier name)).reply :=
  hr.node hn (show s.cursor.rest = [_] ++ ⟨.assign, equals⟩ :: us from hs) (.one (.one (.identifier name))) (stops_some.2 rfl)

/-- A name with an equals sign after it is the whole expression that stands there. -/
theorem not_assignment (hn : s.nesting + n = maxNesting) (hs : s.cursor.rest = ts ++ us)
    (h : rule s = some (s.took ts e).reply) (ha : ¬ BeginsAssignment ts us.head?) (name equals : String)
    (vs : List Token) : s.cursor.rest ≠ ⟨.identifier, name⟩ :: ⟨.assign, equals⟩ :: vs := by
  intro hv
  have hp : (s.took ts e).cursor.position =
      (s.took [(⟨.identifier, name⟩ : Token)] (.identifier name)).cursor.position := by
    have he := h.symm.trans (identifier_reply hr hn hv)
    simp only [State.reply, Option.some.injEq, Reply.node.injEq] at he
    rw [he.2]
  rw [State.position_took hs, State.position_took (show s.cursor.rest = [_] ++ _ from hv), List.length_singleton,
    Nat.add_left_cancel_iff] at hp
  obtain ⟨t, rfl⟩ := List.length_eq_one_iff.1 hp
  rw [hv, List.singleton_append, List.cons.injEq] at hs
  obtain ⟨rfl, rfl⟩ := hs
  exact ha ⟨name, equals, rfl, rfl⟩

omit hr in
theorem statement_declare (rule : Rule) {int name semicolon : String}
    (hs : s.cursor.rest = ⟨.keywordInt, int⟩ :: ⟨.identifier, name⟩ :: ⟨.semicolon, semicolon⟩ :: us) :
    ∃ t, statement rule s = some t.reply ∧
      After s [⟨.keywordInt, int⟩, ⟨.identifier, name⟩, ⟨.semicolon, semicolon⟩] (.declaration name none) t := by
  have hrest : (s.skip 2).cursor.rest = ⟨.semicolon, semicolon⟩ :: us := rest_skip [_, _] hs
  refine ⟨{ s.skip 3 with arena := s.arena.push (.declaration name none) }, orElse_node ?_, rfl, rfl, rfl⟩
  rw [declaration_bare hs (stops_some.2 rfl), finish_semicolon hrest]
  rfl

theorem statement_define (hn : s.nesting + n = maxNesting) {int name equals semicolon : String}
    (hs : s.cursor.rest = ⟨.keywordInt, int⟩ :: ⟨.identifier, name⟩ :: ⟨.assign, equals⟩ ::
      (ts ++ ⟨.semicolon, semicolon⟩ :: us)) (h : Additive n ts e) :
    ∃ t, statement rule s = some t.reply ∧
      After s (⟨.keywordInt, int⟩ :: ⟨.identifier, name⟩ :: ⟨.assign, equals⟩ ::
        (ts ++ [⟨.semicolon, semicolon⟩])) (.declaration name (some e)) t := by
  have hrest := rest_skip [_, _, _] hs
  refine ⟨_, orElse_node ?_, after_value [⟨.keywordInt, int⟩, ⟨.identifier, name⟩, ⟨.assign, equals⟩] ts
    ⟨.semicolon, semicolon⟩ (.declaration name (some (s.arena.graft e).last)) rfl⟩
  rw [declaration_define hs]
  exact finishWith_node hr (s := s.skip 3) hn hrest h

theorem statement_assign (hn : s.nesting + n = maxNesting) {name equals semicolon : String}
    (hs : s.cursor.rest = ⟨.identifier, name⟩ :: ⟨.assign, equals⟩ ::
      (ts ++ ⟨.semicolon, semicolon⟩ :: us)) (h : Additive n ts e) :
    ∃ t, statement rule s = some t.reply ∧
      After s (⟨.identifier, name⟩ :: ⟨.assign, equals⟩ :: (ts ++ [⟨.semicolon, semicolon⟩]))
        (.assignment name e) t := by
  have hrest := rest_skip [_, _] hs
  have hd : declaration rule s = some (.absent s) :=
    declaration_absent (by rw [hs, List.head?_cons, stops_some]; rfl)
  refine ⟨_, (orElse_absent hd).trans (orElse_node ?_), after_value [⟨.identifier, name⟩, ⟨.assign, equals⟩]
    ts ⟨.semicolon, semicolon⟩ (.assignment name (s.arena.graft e).last) rfl⟩
  rw [assignment_assign hs]
  exact finishWith_node hr (s := s.skip 2) hn hrest h

theorem statement_of_node (hn : s.nesting + n = maxNesting) (hs : s.cursor.rest = ts ++ us)
    (h : Additive n ts e) (hu : Stops isOperator us.head?) (ha : ¬ BeginsAssignment ts us.head?) :
    ∃ t, Same s t ∧ statement rule s = expressionStatement rule t ∧
      t.cursor.rest = ts ++ us ∧ rule t = some (t.took ts e).reply := by
  have hnode := hr.node hn hs h hu
  have hne : rule s ≠ some (.absent s) := by
    rw [hnode]
    exact fun hc => nomatch Option.some.inj hc
  obtain ⟨t, hst, ht⟩ := statement_otherwise rule (not_declaration hr hne)
    (not_assignment hr hn hs hnode ha)
  have hts : t.cursor.rest = ts ++ us := by rw [hst.cursor, hs]
  exact ⟨t, hst, ht, hts, hr.node (by rw [hst.nesting, hn]) hts h hu⟩

theorem statement_expression (hn : s.nesting + n = maxNesting) {semicolon : String}
    (hs : s.cursor.rest = ts ++ ⟨.semicolon, semicolon⟩ :: us) (h : Additive n ts e) :
    ∃ t, statement rule s = some t.reply ∧
      After s (ts ++ [⟨.semicolon, semicolon⟩]) (.expression e) t := by
  have ha : ¬ BeginsAssignment ts (some ⟨.semicolon, semicolon⟩) := by
    rintro ⟨name, equals, -, hc⟩
    simp at hc
  obtain ⟨t, hst, hrun, hts, hnode⟩ := statement_of_node hr hn hs h (stops_some.2 rfl) ha
  have hp : (t.took ts e).peekKind? = some .semicolon := peekKind?_cons (State.rest_took hts)
  refine ⟨(t.took ts e).advance, ?_, ?_, ?_, hst.nesting⟩
  · rw [hrun, expressionStatement_eq, hnode]
    exact if_pos hp
  · change (t.cursor.skip ts.length).advance = _
    rw [Cursor.advance_skip, hst.cursor, List.length_append]
    rfl
  · change t.arena.graft e = _
    rw [hst.arena]
    rfl

theorem statement_unfinished (hn : s.nesting + n = maxNesting) (hs : s.cursor.rest = ts ++ us)
    (h : Unfinished n ts us.head?) : ∃ t, statement rule s = some (.absent t) ∧ t.cursor = s.cursor := by
  generalize hnext : us.head? = next at h
  cases h with
  | nothing hi ho =>
      have hhead : s.cursor.rest.head? = next := by rw [hs, List.nil_append, hnext]
      obtain ⟨t, hst, hrun⟩ := statement_otherwise rule (hhead ▸ hi) fun name equals vs hv => by
        rw [← hhead, hv, List.head?_cons, stops_some] at ho
        simp [startsOperand] at ho
      have habs : rule t = some (.absent t) := hr.absent (by rw [hst.cursor, hhead]; exact ho)
      exact ⟨t, by rw [hrun, expressionStatement_eq, habs], hst.cursor⟩
  | @expression _ e _ h ho hc ha =>
      obtain ⟨t, hst, hrun, hts, hnode⟩ := statement_of_node hr hn hs h (hnext ▸ ho) (hnext ▸ ha)
      have hp : (t.took ts e).peekKind? ≠ some .semicolon :=
        peekKind?_ne (by rw [State.rest_took hts, hnext]; exact hc)
      refine ⟨_, by rw [hrun, expressionStatement_eq, hnode]; exact if_neg hp, ?_⟩
      exact (Cursor.skip_moveTo t.cursor ts.length).trans hst.cursor

theorem statement_error {reason : ParseError.Reason} (hn : s.nesting + n = maxNesting)
    (hs : s.cursor.rest = ts ++ us) (h : StatementFault n ts us.head? reason) :
    ∃ t, statement rule s = some (.error ⟨reason, s.cursor.position + ts.length, us.head?⟩ t) := by
  generalize hnext : us.head? = next at h
  cases h with
  | unnamed int hstop =>
      have hs : s.cursor.rest = ⟨.keywordInt, int⟩ :: us := hs
      exact ⟨_, orElse_error (by rw [declaration_unnamed hs (hnext ▸ hstop), hnext]; rfl)⟩
  | bare int name ha hc =>
      have hrest : (s.skip 2).cursor.rest = us := rest_skip [_, _] hs
      have hpos : (s.skip 2).cursor.position = s.cursor.position + 2 := position_skip [_, _] hs
      refine ⟨s.skip 2, orElse_error ?_⟩
      rw [declaration_bare hs (hnext ▸ ha), finish_missing (by rw [hrest, hnext]; exact hc), hrest, hpos, hnext]
      rfl
  | @define ts _ _ int name equals h =>
      have hrest := rest_skip [_, _, _] hs
      obtain ⟨t, ht⟩ := finishWith_error hr (s := s.skip 3) hn (.declaration name ∘ some) hrest (hnext ▸ h)
      refine ⟨t, orElse_error ?_⟩
      rw [declaration_define hs, ht, hnext]
      exact congrArg (fun k => some (Reply.error ⟨reason, k, next⟩ t)) (position_skip_add [_, _, _] hs)
  | @assign ts _ _ name equals h =>
      have hrest := rest_skip [_, _] hs
      have hd : declaration rule s = some (.absent s) :=
        declaration_absent (by rw [hs, List.cons_append, List.head?_cons, stops_some]; rfl)
      obtain ⟨t, ht⟩ := finishWith_error hr (s := s.skip 2) hn (.assignment name) hrest (hnext ▸ h)
      refine ⟨t, (orElse_absent hd).trans (orElse_error ?_)⟩
      rw [assignment_assign hs, ht, hnext]
      exact congrArg (fun k => some (Reply.error ⟨reason, k, next⟩ t)) (position_skip_add [_, _] hs)
  | expression h =>
      obtain ⟨t, ht⟩ := hr.error hn hs (hnext ▸ h)
      have hne : rule s ≠ some (.absent s) := by
        rw [ht]
        exact fun hc => nomatch Option.some.inj hc
      obtain ⟨r, hst, hrun⟩ := statement_otherwise rule (not_declaration hr hne) fun name equals vs hv => by
        rw [identifier_reply hr hn hv] at ht
        exact nomatch Option.some.inj ht
      obtain ⟨t, ht⟩ := hr.error (s := r) (by rw [hst.nesting, hn]) (by rw [hst.cursor, hs]) (hnext ▸ h)
      exact ⟨t, by rw [hrun, expressionStatement_eq, ht, hst.cursor, hnext]⟩

theorem outcome_of_fault {reason : ParseError.Reason} (hn : s.nesting + n = maxNesting)
    (ts : List Token) (hs : s.cursor.rest = ts ++ us) (h : StatementFault n ts us.head? reason) :
    StatementOutcome n s (statement rule s) := by
  obtain ⟨t, ht⟩ := statement_error hr hn hs h
  rw [ht]
  exact .error hs h

theorem outcome_of_unfinished (hn : s.nesting + n = maxNesting) (ts : List Token) (hs : s.cursor.rest = ts ++ us)
    (h : Unfinished n ts us.head?) : StatementOutcome n s (statement rule s) := by
  obtain ⟨t, ht, hc⟩ := statement_unfinished hr hn hs h
  rw [ht]
  exact .absent hs h hc

theorem outcome_of_int (hn : s.nesting + n = maxNesting) {int : String}
    (hs : s.cursor.rest = ⟨.keywordInt, int⟩ :: us) : StatementOutcome n s (statement rule s) := by
  by_cases hname : Stops (· == .identifier) us.head?
  · exact outcome_of_fault hr hn [_] hs (.unnamed int hname)
  obtain ⟨⟨kind, name⟩, us, rfl, hk⟩ := exists_cons_of_not_stops hname
  obtain rfl := beq_iff_eq.1 hk
  by_cases hassign : Stops (· == .assign) us.head?
  · by_cases hend : Stops (· == .semicolon) us.head?
    · exact outcome_of_fault hr hn [_, _] hs (.bare int name hassign hend)
    · obtain ⟨⟨kind, semicolon⟩, us, rfl, hk⟩ := exists_cons_of_not_stops hend
      obtain rfl := beq_iff_eq.1 hk
      obtain ⟨t, ht, hafter⟩ := statement_declare rule hs
      rw [ht]
      exact .node hs (.declare int name semicolon) hafter
  · obtain ⟨⟨kind, equals⟩, us, rfl, hk⟩ := exists_cons_of_not_stops hassign
    obtain rfl := beq_iff_eq.1 hk
    have hrest : (s.skip 3).cursor.rest = us := rest_skip [_, _, _] hs
    obtain ⟨ts, e, semicolon, vs, hv, h⟩ | ⟨ts, vs, reason, hv, h⟩ :=
      finishWith_cases hr (s := s.skip 3) hn (.missingInitializer name)
    · obtain rfl := hrest.symm.trans hv
      obtain ⟨t, ht, hafter⟩ := statement_define hr hn hs h
      rw [ht]
      exact .node (show s.cursor.rest = _ ++ vs by simp [hs]) (.define int name equals semicolon h) hafter
    · obtain rfl := hrest.symm.trans hv
      exact outcome_of_fault hr hn (_ :: _ :: _ :: ts) hs (.define int name equals h)

theorem outcome_of_assignment (hn : s.nesting + n = maxNesting) {name equals : String}
    (hs : s.cursor.rest = ⟨.identifier, name⟩ :: ⟨.assign, equals⟩ :: us) :
    StatementOutcome n s (statement rule s) := by
  have hrest : (s.skip 2).cursor.rest = us := rest_skip [_, _] hs
  obtain ⟨ts, e, semicolon, vs, hv, h⟩ | ⟨ts, vs, reason, hv, h⟩ :=
    finishWith_cases hr (s := s.skip 2) hn (.missingAssignedValue name)
  · obtain rfl := hrest.symm.trans hv
    obtain ⟨t, ht, hafter⟩ := statement_assign hr hn hs h
    rw [ht]
    exact .node (show s.cursor.rest = _ ++ vs by simp [hs]) (.assign name equals semicolon h) hafter
  · obtain rfl := hrest.symm.trans hv
    exact outcome_of_fault hr hn (_ :: _ :: ts) hs (.assign name equals h)

theorem outcome_of_expression (hn : s.nesting + n = maxNesting)
    (hi : Stops (· == .keywordInt) s.cursor.rest.head?)
    (ha : ∀ name equals us, s.cursor.rest ≠ ⟨.identifier, name⟩ :: ⟨.assign, equals⟩ :: us) :
    StatementOutcome n s (statement rule s) := by
  have ho := hr.outcome s hn
  generalize rule s = reply at ho
  cases ho with
  | @node ts us e hs h hu =>
      by_cases hend : Stops (· == .semicolon) us.head?
      · refine outcome_of_unfinished hr hn _ hs (.expression h hu hend ?_)
        rintro ⟨name, equals, rfl, hnext⟩
        obtain ⟨vs, rfl⟩ := List.head?_eq_some_iff.1 hnext
        exact ha name equals vs hs
      · obtain ⟨⟨kind, semicolon⟩, us, rfl, hk⟩ := exists_cons_of_not_stops hend
        obtain rfl := beq_iff_eq.1 hk
        obtain ⟨t, ht, hafter⟩ := statement_expression hr hn hs h
        rw [ht]
        exact .node (show s.cursor.rest = _ ++ us by simp [hs]) (.expression semicolon h) hafter
  | absent hu => exact outcome_of_unfinished hr hn [] rfl (.nothing hi hu)
  | error hs h => exact outcome_of_fault hr hn _ hs (.expression h)

theorem statement_outcome (s : State) (hn : s.nesting + n = maxNesting) :
    StatementOutcome n s (statement rule s) := by
  by_cases hi : Stops (· == .keywordInt) s.cursor.rest.head?
  · by_cases ha : ∃ name equals us, s.cursor.rest = ⟨.identifier, name⟩ :: ⟨.assign, equals⟩ :: us
    · obtain ⟨name, equals, us, hs⟩ := ha
      exact outcome_of_assignment hr hn hs
    · exact outcome_of_expression hr hn hi fun name equals us hs => ha ⟨name, equals, us, hs⟩
  · obtain ⟨⟨kind, int⟩, us, hs, hk⟩ := exists_cons_of_not_stops hi
    obtain rfl := beq_iff_eq.1 hk
    exact outcome_of_int hr hn hs

theorem statement_node {x : Stmt} (hn : s.nesting + n = maxNesting) (hs : s.cursor.rest = ts ++ us)
    (h : Statement n ts x) : ∃ t, statement rule s = some t.reply ∧ After s ts x t := by
  cases h with
  | declare int name semicolon => exact statement_declare rule hs
  | define int name equals semicolon h => exact statement_define hr hn (by simpa using hs) h
  | assign name equals semicolon h => exact statement_assign hr hn (by simpa using hs) h
  | expression semicolon h => exact statement_expression hr hn (by simpa using hs) h

theorem statement_reads : StatementReads (statement rule) n where
  outcome s hn := statement_outcome hr s hn
  node hn hs h := statement_node hr hn hs h
  absent hn hs h := statement_unfinished hr hn hs h
  error hn hs h := statement_error hr hn hs h

end

end IntScript.Grammar
