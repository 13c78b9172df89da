import IntScript.Proofs.Evaluation.Frame
import IntScript.Proofs.Grammar.Written
import IntScript.Proofs.Session.Stop

namespace IntScript

def Arena.SoleExpression (a : Arena) : Prop :=
  ∃ id n, a.statements = [id] ∧ a.node? id = some n ∧ n.statementType = .expressionStatement

theorem Arena.soleExpression_iff {a : Arena} {xs : List Stmt} (h : a.HoldsProgram xs) :
    a.SoleExpression ↔ ∃ e, xs = [.expression e] := by
  have hids := h.statements
  constructor
  · rintro ⟨id, n, hs, hn, htype⟩
    rw [hs] at hids
    obtain ⟨x, _, hx, hnil, rfl⟩ := List.forall₂_cons_left_iff.1 hids
    obtain rfl := List.forall₂_nil_left_iff.1 hnil
    obtain ⟨m, hm, hxm⟩ := hx.statementType
    obtain rfl := Option.some.inj (hn.symm.trans hm)
    cases x with
    | expression e => exact ⟨e, rfl⟩
    | declaration | assignment => exact nomatch htype.symm.trans hxm
  · rintro ⟨e, rfl⟩
    obtain ⟨id, _, hx, hnil, hs⟩ := List.forall₂_cons_right_iff.1 hids
    obtain rfl := List.forall₂_nil_right_iff.1 hnil
    obtain ⟨n, hn, htype⟩ := hx.statementType
    exact ⟨id, n, hs, hn, htype⟩

variable {source : String} {e : Expr}

theorem Grammar.program_expression_iff {n : Nat} {ts : List Token} (text : String) :
    Program n (ts ++ [⟨.semicolon, text⟩]) [.expression e] ↔ Additive n ts e := by
  constructor
  · intro h
    generalize hall : ts ++ [⟨.semicolon, text⟩] = all at h
    cases h with
    | cons hx hxs =>
        cases hxs with
        | nil =>
            rw [List.append_nil] at hall
            cases hx with
            | expression semicolon he =>
                obtain ⟨rfl, -⟩ := List.append_inj' hall rfl
                exact he
  · exact fun h => (Statement.expression text h).singleton

theorem parses_semicolon_iff :
    Parses (source ++ ";") [.expression e] ↔ Grammar.Additive maxNesting (tokenize source).toList e := by
  have htokens : (tokenize (source ++ ";")).toList = (tokenize source).toList ++ [⟨.semicolon, ";"⟩] := by
    simp only [Lexer.toList_tokenize, String.toList_append]
    exact Lexer.tokens_semicolon source.toList
  rw [Parses, htokens]
  exact Grammar.program_expression_iff ";"

theorem parseExpression_eq_ok_iff {a : Arena} : parseExpression source = .ok a ↔
    ∃ e, Parses (source ++ ";") [.expression e] ∧ a = Arena.empty.graftProgram [] [.expression e] := by
  constructor
  · intro h
    obtain ⟨e, he, rfl⟩ := Grammar.additive_of_parseCalculation h
    exact ⟨e, parses_semicolon_iff.2 he, rfl⟩
  · rintro ⟨e, he, rfl⟩
    exact Grammar.parseCalculation_ok (c := .start (tokenize source)) (parses_semicolon_iff.1 he)

namespace Execution

variable {env : Environment} {xs : List Stmt} {v : Int64} {err : EvalError}

theorem of_expression_ok (h : e.value env = .ok v) : of env [.expression e] = ⟨env, [.value v], none⟩ := by
  have heffect : (Stmt.expression e).effect env = .ok (env, .value v) := by
    rw [Stmt.effect, h]
    rfl
  rw [of_cons_ok heffect]
  rfl

theorem of_expression_error (h : e.value env = .error err) : of env [.expression e] = ⟨env, [], some err⟩ := by
  apply of_cons_error
  rw [Stmt.effect, h]
  rfl

theorem exists_expression (herror : (of env xs).error? = none) (h : (of env xs).outcomes = [.value v]) :
    ∃ e, xs = [.expression e] ∧ e.value env = .ok v := by
  have hlength := length_of_none herror
  rw [h] at hlength
  obtain ⟨x, rfl⟩ := List.length_eq_one_iff.1 hlength.symm
  have hlt : 0 < (of env [x]).outcomes.length := by
    rw [h]
    exact Nat.one_pos
  obtain ⟨y, outcome, hy, ho, heffect⟩ := step_of_lt hlt
  obtain rfl := Option.some.inj hy
  rw [h] at ho
  obtain rfl := Option.some.inj ho
  have hdoes : x.Does env (of env [x]).env (.value v) := Stmt.does_of_effect heffect
  generalize (of env [x]).env = env' at hdoes
  cases hdoes with
  | @tell e v hv => exact ⟨e, rfl, hv⟩

end Execution

namespace Session

structure Calculates (s : Session) (source : String) : Prop where
  session : (s.runExpression source).session = s
  value (v : Int64) : (s.runExpression source).result = .ok v ↔
    (s.run (source ++ ";")).error? = none ∧ (s.run (source ++ ";")).outcomes = #[.value v]
  error (a b : Arena) (ha : parseExpression source = .ok a) (hb : parse (source ++ ";") = .ok b) (e : ScriptError) :
    ((s.runExpression source).result = .error e ↔ (s.run (source ++ ";")).error? = some e) ∧
      ((s.run (source ++ ";")).error? = some e → ∃ err, e = .eval err)

variable {s : Session}

theorem run_error {err : ParseError} (h : parse source = .error err) :
    s.run source = s.fail (.parse err) (readEvents (tokenize source) (parseProgram (.start (tokenize source)))) := by
  have hp : (parseProgram (.start (tokenize source))).result = .error err := h
  rw [run, hp]

theorem runExpression_error {err : ParseError} (h : parseExpression source = .error err) : s.runExpression source =
    s.fail (.parse err) (readEvents (tokenize source) (parseCalculation (.start (tokenize source)))) := by
  have hp : (parseCalculation (.start (tokenize source))).result = .error err := h
  unfold runExpression
  dsimp only
  rw [hp]

theorem runExpression_ok {a : Arena} (h : parseExpression source = .ok a) : s.runExpression source =
    (s.execute a).after (readEvents (tokenize source) (parseCalculation (.start (tokenize source)))) := by
  have hp : (parseCalculation (.start (tokenize source))).result = .ok a := h
  unfold runExpression
  dsimp only
  rw [hp]

theorem runExpression_tells (h : Parses (source ++ ";") [.expression e]) (s : Session) :
    (s.runExpression source).Tells s (Execution.of s.env [.expression e]) := by
  rw [runExpression_ok (parseExpression_eq_ok_iff.2 ⟨e, h, rfl⟩)]
  apply Report.Tells.after
  exact execute_tells (Arena.ordered_graftProgram _) (Grammar.holdsProgram_empty [.expression e]) s

theorem result_of_tells {r : Report} (h : r.Tells s (Execution.of s.env [.expression e])) :
    r.result = (e.value s.env).mapError .eval := by
  cases hv : e.value s.env with
  | ok v =>
      rw [Execution.of_expression_ok hv] at h
      rw [Report.result, h.error?_eq_none rfl, Report.value, h.outcomes]
      rfl
  | error err =>
      rw [Execution.of_expression_error hv] at h
      rw [Report.result, h.error?_eq_some rfl]
      rfl

theorem calculates_of_parses (h : Parses (source ++ ";") [.expression e]) (s : Session) : s.Calculates source := by
  have hcalculation := runExpression_tells h s
  have hresult := result_of_tells hcalculation
  have hrun := run_tells h s
  cases hv : e.value s.env with
  | ok v =>
      rw [hv] at hresult
      rw [Execution.of_expression_ok hv] at hcalculation hrun
      refine ⟨hcalculation.session, fun w => ?_, fun a b _ _ e => ?_⟩
      · rw [hresult, hrun.error?_eq_none rfl, hrun.outcomes]
        simp [Except.mapError]
      · rw [hresult, hrun.error?_eq_none rfl]
        exact ⟨⟨nofun, nofun⟩, nofun⟩
  | error err =>
      rw [hv] at hresult
      rw [Execution.of_expression_error hv] at hcalculation hrun
      refine ⟨hcalculation.session, fun w => ?_, fun a b _ _ e => ?_⟩
      · rw [hresult, hrun.error?_eq_some rfl]
        exact ⟨nofun, nofun⟩
      · rw [hresult, hrun.error?_eq_some rfl]
        refine ⟨?_, fun he => ⟨err, (Option.some.inj he).symm⟩⟩
        simp [Except.mapError]

theorem calculates_of_error {err : ParseError} (h : parseExpression source = .error err) (s : Session) :
    s.Calculates source where
  session := by rw [runExpression_error h, fail]
  value v := by
    rw [runExpression_error h]
    -- With its semicolon the text may well be run, but only an expression would tell one value alone.
    apply iff_of_false nofun
    rintro ⟨herror, houtcomes⟩
    cases hp : parse (source ++ ";") with
    | error err' =>
        rw [run_error hp] at herror
        exact nomatch herror
    | ok a =>
        obtain ⟨xs, hxs, -⟩ := parses_of_parse hp
        have hrun := run_tells hxs s
        rw [hrun.error?] at herror
        rw [hrun.outcomes] at houtcomes
        obtain ⟨e, rfl, -⟩ := Execution.exists_expression (Option.map_eq_none_iff.1 herror) (congrArg Array.toList houtcomes)
        exact nomatch h.symm.trans (parseExpression_eq_ok_iff.2 ⟨e, hxs, rfl⟩)
  error a b ha _ := nomatch h.symm.trans ha

/-- Calculating is running an expression statement without its semicolon: the same texts can be parsed, to the same
trees, and the same values and errors come out of them. Nothing that is calculated changes the session. -/
theorem calculation_as_statement (source : String) :
    (∀ a, parseExpression source = .ok a ↔ parse (source ++ ";") = .ok a ∧ a.SoleExpression) ∧
    ∀ s : Session, s.Calculates source := by
  refine ⟨fun a => ⟨fun h => ?_, ?_⟩, fun s => ?_⟩
  · obtain ⟨e, he, rfl⟩ := parseExpression_eq_ok_iff.1 h
    exact ⟨he.parse_eq, (Arena.soleExpression_iff (Grammar.holdsProgram_empty _)).2 ⟨e, rfl⟩⟩
  · rintro ⟨h, hsole⟩
    obtain ⟨xs, hxs, rfl⟩ := parses_of_parse h
    obtain ⟨e, rfl⟩ := (Arena.soleExpression_iff (Grammar.holdsProgram_empty _)).1 hsole
    exact parseExpression_eq_ok_iff.2 ⟨e, hxs, rfl⟩
  · cases h : parseExpression source with
    | ok a =>
        obtain ⟨e, he, -⟩ := parseExpression_eq_ok_iff.1 h
        exact calculates_of_parses he s
    | error err => exact calculates_of_error h s

def difference : Expr := .binary .sub (.literal "8") (.literal "5")

theorem calculation_as_statement_difference :
    parseExpression "8-5" = .ok (Arena.empty.graftProgram [] [.expression difference]) ∧
    parse ("8-5" ++ ";") = .ok (Arena.empty.graftProgram [] [.expression difference]) ∧
    (Arena.empty.graftProgram [] [.expression difference]).SoleExpression ∧
    (start.runExpression "8-5").result = .ok 3 ∧
    (start.run ("8-5" ++ ";")).error? = none ∧ (start.run ("8-5" ++ ";")).outcomes = #[.value 3] := by
  have htokens : (tokenize "8-5").toList = difference.tokens := rfl
  have hparses : Parses ("8-5" ++ ";") [.expression difference] := by
    rw [parses_semicolon_iff, htokens]
    exact Grammar.additive_tokens (by decide)
  have hparse := parseExpression_eq_ok_iff.2 ⟨difference, hparses, rfl⟩
  have hresult : (start.runExpression "8-5").result = .ok 3 :=
    (result_of_tells (runExpression_tells hparses start)).trans rfl
  obtain ⟨htrees, hcalculates⟩ := calculation_as_statement "8-5"
  obtain ⟨hprogram, hsole⟩ := (htrees _).1 hparse
  exact ⟨hparse, hprogram, hsole, hresult, ((hcalculates start).value 3).1 hresult⟩

end Session

end IntScript
