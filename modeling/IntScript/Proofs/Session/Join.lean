import IntScript.Log.Format
import IntScript.Proofs.Session.Execution
import IntScript.Proofs.Text.Lines
import IntScript.Shell.Options

namespace IntScript

def Report.andThen (r : Report) (source : String) : Report :=
  match r.error? with
  | some _ => r
  | none =>
      let next := r.session.run source
      ⟨next.session, r.outcomes ++ next.outcomes, r.events ++ next.events, next.error?⟩

/-- The reports are the same but for the events. -/
structure Report.Agrees (r r' : Report) : Prop where
  session : r.session = r'.session
  outcomes : r.outcomes = r'.outcomes
  error? : r.error? = r'.error?

namespace Report

variable {r r' : Report} {s : Session} {x : Execution} {source : String} {xs : List Stmt}

theorem Tells.agrees (h : r.Tells s x) (h' : r'.Tells s x) : r.Agrees r' where
  session := h.session.trans h'.session.symm
  outcomes := h.outcomes.trans h'.outcomes.symm
  error? := h.error?.trans h'.error?.symm

theorem Tells.andThen (h : r.Tells s x) (hp : Parses source xs) : (r.andThen source).Tells s (x.andThen xs) := by
  cases hx : x.error? with
  | some e =>
      have hr := h.error?_eq_some hx
      have hxs : x.andThen xs = x := by rw [Execution.andThen, hx]
      have hrs : r.andThen source = r := by rw [Report.andThen, hr]
      rw [hxs, hrs]
      exact h
  | none =>
      have hr := h.error?_eq_none hx
      have hnext := Session.run_tells hp r.session
      rw [h.session] at hnext
      simp only [Report.andThen, Execution.andThen, hr, hx, h.session]
      exact ⟨hnext.session, by simp [h.outcomes, hnext.outcomes], hnext.error?⟩

end Report

theorem renderOutcomes_append (a b : Array Outcome) :
    renderOutcomes (a ++ b) = renderOutcomes a ++ renderOutcomes b := by
  have happ (text : String) (os : List Outcome) :
      os.foldl (fun text o => text ++ o.render ++ "\n") text =
        text ++ os.foldl (fun text o => text ++ o.render ++ "\n") "" := by
    induction os generalizing text with
    | nil => simp
    | cons o os ih =>
        rw [List.foldl_cons, List.foldl_cons, ih, ih ("" ++ o.render ++ "\n")]
        simp [String.append_assoc]
  simp only [renderOutcomes, ← Array.foldl_toList, Array.toList_append, List.foldl_append]
  exact happ _ _

theorem parses_join {sources : List String} {xss : List (List Stmt)} (h : List.Forall₂ Parses sources xss) :
    Parses (String.join sources) xss.flatten := by
  induction h with
  | nil => exact parses_empty
  | @cons source xs sources xss hx _ ih =>
      rw [String.join_cons]
      exact hx.append ih

namespace Options

variable [Subscriber] {t : Threshold} {files : Files} {names contents : List String} {xss : List (List Stmt)}

/-- Files that are read and parse are executed one after the other, as one list of statements. -/
theorem loadAll_tells (hr : List.Forall₂ (fun name source => files.read name = .ok source) names contents)
    (hp : List.Forall₂ Parses contents xss) (e : Effect) (he : e.promptOpen = true) :
    (loadAll t files names e).session.env = (Execution.of e.session.env xss.flatten).env ∧
    (loadAll t files names e).output.results =
      e.output.results ++ renderOutcomes (Execution.of e.session.env xss.flatten).outcomes.toArray ∧
    (loadAll t files names e).promptOpen = (Execution.of e.session.env xss.flatten).error?.isNone := by
  induction hr generalizing xss e with
  | nil =>
      cases hp
      exact ⟨rfl, by simp [loadAll, Execution.of, renderOutcomes], he⟩
  | @cons name source names contents hread _ ih =>
      cases hp with
      | @cons _ xs _ xss hx hp =>
          have htells := (Session.run_tells hx e.session).after #[.loading name source.utf8ByteSize]
          rw [List.flatten_cons, Execution.of_append, loadAll, hread, load, Session.load]
          generalize (e.session.run source).after #[.loading name source.utf8ByteSize] = r at htells
          generalize Execution.of e.session.env xs = x at htells
          cases herr : x.error? with
          | some err =>
              have hr := htells.error?_eq_some herr
              simp only [Execution.andThen, herr, hr, Option.isNone_some, Bool.false_eq_true, ↓reduceIte]
              refine ⟨by rw [htells.session], ?_, trivial⟩
              rw [← htells.outcomes]
              rfl
          | none =>
              have hr := htells.error?_eq_none herr
              simp only [Execution.andThen, herr, hr, Option.isNone_none, ↓reduceIte]
              have hrest := ih hp ⟨r.session, e.output ++ r.output t (loadError name), true⟩ rfl
              rw [htells.session] at hrest ⊢
              refine ⟨hrest.1, hrest.2.1.trans ?_, hrest.2.2⟩
              rw [← List.append_toArray, renderOutcomes_append, ← String.append_assoc, ← htells.outcomes]
              rfl

end Options

namespace Session

open Arena

variable {first second : String}

structure Joins (s : Session) (first second : String) : Prop where
  trees : ∀ b, parse second = .ok b → ∃ a c xs ys, parse first = .ok a ∧ parse (first ++ second) = .ok c ∧
    a.HoldsProgram xs ∧ b.HoldsProgram ys ∧ c.HoldsProgram (xs ++ ys)
  error : ∀ e, parse second = .error e →
    parse (first ++ second) = .error { e with position := e.position + (tokenize first).size }
  run : ∀ b, parse second = .ok b → (s.run (first ++ second)).Agrees ((s.run first).andThen second)

theorem joins_of_parses {xs : List Stmt} (h : Parses first xs) (s : Session) (second : String) : s.Joins first second where
  trees b hb := by
    obtain ⟨ys, hys, rfl⟩ := parses_of_parse hb
    exact ⟨_, _, xs, ys, h.parse_eq, (h.append hys).parse_eq, Grammar.holdsProgram_empty xs,
      Grammar.holdsProgram_empty ys, Grammar.holdsProgram_empty (xs ++ ys)⟩
  error e he := h.error_append he
  run b hb := by
    obtain ⟨ys, hys, -⟩ := parses_of_parse hb
    refine (run_tells (h.append hys) s).agrees ?_
    rw [Execution.of_append]
    exact (run_tells h s).andThen hys

def Loadable (files : Files) (names contents : List String) : Prop :=
  List.Forall₂ (fun name source => files.read name = .ok source ∧ ∃ a, parse source = .ok a) names contents

theorem Loadable.split {files : Files} {names contents : List String} (h : Loadable files names contents) :
    List.Forall₂ (fun name source => files.read name = .ok source) names contents ∧
      ∃ xss, List.Forall₂ Parses contents xss := by
  induction h with
  | nil => exact ⟨.nil, [], .nil⟩
  | cons h _ ih =>
      obtain ⟨hread, a, ha⟩ := h
      obtain ⟨hreads, xss, hxss⟩ := ih
      obtain ⟨xs, hxs, -⟩ := parses_of_parse ha
      exact ⟨.cons hread hreads, xs :: xss, .cons hxs hxss⟩

/-- Scripts may be run one after the other or as one text: a script that parses joins with every other,
and so does any number of files that are loaded before the prompt. -/
theorem run_joined [Subscriber] (s : Session) (first second : String) (a : Arena) (h : parse first = .ok a) :
    s.Joins first second ∧
    ∀ (o : Options) (t : Threshold) (files : Files) (input : ByteArray) (contents : List String),
      o.help = false → o.nonInteractive = false → Loadable files o.files contents →
        (o.apply t files input s).session.env = (s.run (String.join contents)).session.env ∧
        (o.apply t files input s).output.results = renderOutcomes (s.run (String.join contents)).outcomes ∧
        (o.apply t files input s).promptOpen = (s.run (String.join contents)).error?.isNone := by
  refine ⟨?_, fun o t files input contents hhelp hprompt hload => ?_⟩
  · obtain ⟨xs, hxs, -⟩ := parses_of_parse h
    exact joins_of_parses hxs s second
  · obtain ⟨hreads, xss, hxss⟩ := hload.split
    have hjoined := run_tells (parses_join hxss) s
    obtain ⟨henv, hresults, hopen⟩ := Options.loadAll_tells (t := t) hreads hxss ⟨{ s with verbose := o.verbose }, .empty, true⟩ rfl
    simp only [Options.apply, hhelp, hprompt, Bool.false_eq_true, ↓reduceIte]
    refine ⟨by rw [henv, hjoined.session], hresults.trans ?_, hopen.trans ?_⟩
    · simp [hjoined.outcomes, Output.empty]
    · simp [hjoined.error?]

theorem decode_toUTF8 (text : String) : decode text.toUTF8 = .ok text := by
  rw [decode, Text.fromUTF8?_toUTF8]

theorem read_toUTF8 {files : Files} {name text : String}
    (h : files.contents.lookup name = some (.ok text.toUTF8)) : files.read name = .ok text := by
  rw [Files.read, h]
  exact decode_toUTF8 text

def sevenFirst : List Stmt := [.declaration "x" (some (.literal "7"))]

def quotient : List Stmt := [.expression (.binary .div (.identifier "x") (.literal "0"))]

def quotientFiles : Files := ⟨[("a", .ok "int x = 7;".toUTF8), ("b", .ok "x / 0;".toUTF8)]⟩

theorem loadable_quotientFiles : Loadable quotientFiles ["a", "b"] ["int x = 7;", "x / 0;"] := by
  refine .cons ⟨read_toUTF8 rfl, ?_⟩ (.cons ⟨read_toUTF8 rfl, ?_⟩ .nil)
  · exact ⟨empty.graftProgram [] sevenFirst, rfl⟩
  · exact ⟨empty.graftProgram [] quotient, rfl⟩

theorem run_joined_quotient :
    parse "int x = 7;" = .ok (empty.graftProgram [] sevenFirst) ∧
    start.Joins "int x = 7;" "x / 0;" ∧
    Loadable quotientFiles ["a", "b"] ["int x = 7;", "x / 0;"] ∧
    (Options.apply ⟨false, true, false, ["a", "b"]⟩ none quotientFiles .empty start).session.env.bindings =
      [("x", some 7)] ∧
    (Options.apply ⟨false, true, false, ["a", "b"]⟩ none quotientFiles .empty start).output.results = "x: 7\n" ∧
    (Options.apply ⟨false, true, false, ["a", "b"]⟩ none quotientFiles .empty start).promptOpen = false := by
  have h := run_joined start "int x = 7;" "x / 0;" (empty.graftProgram [] sevenFirst) rfl
  obtain ⟨henv, hresults, hopen⟩ := h.2 ⟨false, true, false, ["a", "b"]⟩ none quotientFiles .empty _ rfl rfl
    loadable_quotientFiles
  refine ⟨rfl, h.1, loadable_quotientFiles, ?_, ?_, ?_⟩
  · rw [henv]
    decide +kernel
  · rw [hresults]
    decide +kernel
  · rw [hopen]
    decide +kernel

end Session

end IntScript
