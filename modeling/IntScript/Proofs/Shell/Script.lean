import IntScript.Editor.Standard
import IntScript.Proofs.Session.Join
import IntScript.Proofs.Session.Relays
import IntScript.Proofs.Shell.Ready
import IntScript.Shell.Setting

namespace IntScript

open Grammar Lexer

namespace Output

theorem append_assoc (o p q : Output) : o ++ p ++ q = o ++ (p ++ q) :=
  congrArg₂ Output.mk String.append_assoc String.append_assoc

theorem empty_append (o : Output) : empty ++ o = o :=
  congrArg₂ Output.mk String.empty_append String.empty_append

theorem append_empty (o : Output) : o ++ empty = o :=
  congrArg₂ Output.mk String.append_empty String.append_empty

end Output

namespace Shell

variable {lines : List String} {xs : List Stmt}

def inputs (lines : List String) : List Input :=
  lines.map .line ++ [.interrupted .ended, .interrupted .ended]

theorem inputs_toUTF8 (text : String) : Setting.inputs text.toUTF8 = inputs (Text.lines text) := by
  rw [Setting.inputs, inputs, Text.rawLines_toUTF8, List.map_map]
  congr 2
  funext line
  change (String.fromUTF8? line.toUTF8).elim (.interrupted .unreadable) .line = Input.line line
  rw [Text.fromUTF8?_toUTF8]
  rfl

theorem parse?_of_head? {line : String} (h : (Text.trimStart line.toList).head? ≠ some ':') :
    CommandLine.parse? line = none := by
  rw [CommandLine.parse?]
  split
  · rename_i cs hcs
    rw [Text.trim] at hcs
    rw [← Text.trimEnd_append (Text.trimStart line.toList), hcs] at h
    exact absurd rfl h
  · rfl

theorem ready_lines {text : String} (h : Parses text xs)
    (hlast : Text.lastVisible? text = some ';' ∨ Text.lastVisible? text = none)
    (hplain : ∀ line ∈ Text.lines text, (Text.trimStart line.toList).head? ≠ some ':') :
    Ready none (Text.lines text) xs where
  waits := nofun
  program := by
    have htokens : (Text.lines text).flatMap (tokens ·.toList) = tokens text.toList := by
      simp [Text.lines, List.flatMap_map, tokens_cutAfter]
    rw [htokens]
    exact parses_iff.1 h
  ended := by
    rw [Text.join_lines, Option.bind_none, Option.or_none]
    rcases hlast with hlast | hlast <;> simp [hlast]
  plain line hl := parse?_of_head? (hplain line hl)

section

variable [Subscriber]

def told (t : Threshold) (rs : List Report) : Output :=
  rs.foldr (fun r output => r.output t ScriptError.line ++ output) .empty

theorem results_told (t : Threshold) (rs : List Report) :
    (told t rs).results = renderOutcomes (rs.flatMap (·.outcomes.toList)).toArray := by
  induction rs with
  | nil => rfl
  | cons r rs ih =>
      change renderOutcomes r.outcomes ++ (told t rs).results = _
      rw [ih, ← renderOutcomes_append, List.flatMap_cons]
      exact congrArg renderOutcomes (Array.toList_inj.1 (by simp))

variable [LineEditor] {sh : Shell}

def report? (sh : Shell) (input : Input) : Option Report :=
  if sh.running then
    match (Reader.next sh.pending? input).1 with
    | .script text => some (sh.session.run text)
    | _ => none
  else none

def reports (files : Files) : Shell → List Input → List Report
  | _, [] => []
  | sh, input :: inputs => (sh.report? input).toList ++ reports files (sh.step files input).1 inputs

theorem run_cons (files : Files) (prompts : Bool) (sh : Shell) (input : Input) (inputs : List Input) :
    run files prompts sh (input :: inputs) =
      ((run files prompts (sh.step files input).1 inputs).1,
        (if prompts then .print sh.prompt else .empty) ++ (sh.step files input).2 ++
          (run files prompts (sh.step files input).1 inputs).2) := by
  have hfold (sh : Shell) (o : Output) :
      inputs.foldl (fun x input => ((x.1.step files input).1,
        x.2 ++ (if prompts then Output.print x.1.prompt else .empty) ++ (x.1.step files input).2)) (sh, o) =
      ((run files prompts sh inputs).1, o ++ (run files prompts sh inputs).2) := by
    induction inputs generalizing sh o with
    | nil => rw [run, List.foldl_nil, List.foldl_nil, Output.append_empty]
    | cons input inputs ih =>
        rw [run, List.foldl_cons, List.foldl_cons]
        dsimp only
        rw [ih, ih, Output.empty_append, Output.append_assoc, Output.append_assoc, Output.append_assoc]
  rw [run, List.foldl_cons]
  dsimp only
  rw [hfold, Output.empty_append]

theorem step_quiet (files : Files) {input : Input} {action : Action} {text? : Option String} (hr : sh.running = true)
    (h : Reader.next sh.pending? input = (action, text?)) (hq : action = .wait ∨ action = .skip) :
    sh.step files input = ({ sh with pending? := text? }, .empty) ∧ sh.report? input = none := by
  rw [step, report?, if_pos hr, if_pos hr, h]
  rcases hq with rfl | rfl <;> exact ⟨rfl, rfl⟩

theorem step_script (files : Files) {input : Input} {text : String} (hr : sh.running = true)
    (h : Reader.next sh.pending? input = (.script text, none)) :
    (∃ history, sh.step files input =
      ({ sh with session := (sh.session.run text).session, history, pending? := none },
        (sh.session.run text).output sh.threshold ScriptError.line)) ∧
    sh.report? input = some (sh.session.run text) := by
  rw [step, report?, if_pos hr, if_pos hr, h]
  exact ⟨⟨_, rfl⟩, rfl⟩

/-- Lines of a whole program are run piece by piece. -/
theorem run_ready (files : Files) (prompts : Bool) (h : Ready sh.pending? lines xs) (hr : sh.running = true) :
    (∃ xss, xss.flatten = xs ∧
      Relays sh.session xss (sh.reports files (inputs lines)) (sh.run files prompts (inputs lines)).1.session) ∧
    (sh.run files false (inputs lines)).2 = told sh.threshold (sh.reports files (inputs lines)) := by
  induction lines generalizing sh xs with
  | nil =>
      obtain ⟨hp, rfl⟩ := h.of_nil
      obtain ⟨session, history, fixed?, pending?, running⟩ := sh
      obtain rfl : pending? = none := hp
      obtain rfl : running = true := hr
      exact ⟨⟨[], rfl, .nil session⟩, rfl⟩
  | cons line lines ih =>
      -- A line that is not run leaves the same statements to the lines after it, one that is run takes the
      -- first of them.
      rw [inputs, List.map_cons, List.cons_append, run_cons, run_cons, reports]
      change (∃ xss, _ ∧ Relays _ _ (_ ++ reports files _ (inputs lines)) (run files prompts _ (inputs lines)).1.session) ∧
        _ ++ (run files false _ (inputs lines)).2 = told _ (_ ++ reports files _ (inputs lines))
      rcases h.step with ⟨action, text?, hnext, hquiet, hready⟩ | ⟨text, ys, zs, hnext, rfl, hys, hready⟩
      · obtain ⟨hstep, hreport⟩ := step_quiet files hr hnext hquiet
        rw [hstep, hreport]
        have hready' : Ready { sh with pending? := text? }.pending? lines xs := hready
        obtain ⟨hrelays, hout⟩ := ih hready' hr
        refine ⟨hrelays, ?_⟩
        rw [hout]
        exact (Output.empty_append _).trans (Output.empty_append _)
      · obtain ⟨⟨history, hstep⟩, hreport⟩ := step_script files hr hnext
        rw [hstep, hreport]
        have htells := Session.run_tells hys sh.session
        have hready' : Ready { sh with
          session := (sh.session.run text).session, history, pending? := none }.pending? lines zs := hready
        obtain ⟨⟨xss, rfl, hrelays⟩, hout⟩ := ih hready' hr
        refine ⟨⟨ys :: xss, rfl, .cons htells hrelays⟩, ?_⟩
        have ht : threshold { sh with
          session := (sh.session.run text).session, history, pending? := none } = sh.threshold := by
          simp only [threshold, htells.session]
        rw [hout, ht]
        exact congrArg (· ++ _) (Output.empty_append _)

/-- A program that is entered line by line has the outcomes and the error that it has as a whole. -/
theorem run_lines (s : Session) (history : History) (fixed? : Option Threshold) (files : Files) (text : String)
    (a : Arena) (h : parse text = .ok a)
    (hlast : Text.lastVisible? text = some ';' ∨ Text.lastVisible? text = none)
    (hplain : ∀ line ∈ Text.lines text, (Text.trimStart line.toList).head? ≠ some ':') :
    let sh := start s history fixed?
    let inputs := Setting.inputs text.toUTF8
    ((s.run text).error? = none →
      (∀ prompts, (sh.run files prompts inputs).1.session = (s.run text).session) ∧
      (∀ r ∈ sh.reports files inputs, r.error? = none) ∧
      (sh.reports files inputs).flatMap (·.outcomes.toList) = (s.run text).outcomes.toList ∧
      (sh.run files false inputs).2.results = renderOutcomes (s.run text).outcomes) ∧
    (∀ e, (s.run text).error? = some e →
      ∃ before r after, sh.reports files inputs = before ++ r :: after ∧
        (∀ b ∈ before, b.error? = none) ∧ r.error? = some e ∧
        (before ++ [r]).flatMap (·.outcomes.toList) = (s.run text).outcomes.toList) ∧
    (sh.run files false inputs).2 = told sh.threshold (sh.reports files inputs) := by
  intro sh inputs
  obtain ⟨xs, hxs, -⟩ := parses_of_parse h
  have hready : Ready sh.pending? (Text.lines text) xs := ready_lines hxs hlast hplain
  have htells := Session.run_tells hxs s
  have hinputs : inputs = Shell.inputs (Text.lines text) := inputs_toUTF8 text
  rw [hinputs]
  obtain ⟨-, hout⟩ := run_ready files false hready rfl
  refine ⟨fun he => ?_, fun e he => ?_, hout⟩
  · rw [htells.error?, Option.map_eq_none_iff] at he
    have hok (prompts : Bool) :
        (sh.run files prompts (Shell.inputs (Text.lines text))).1.session = { s with env := (Execution.of s.env xs).env } ∧
        (∀ r ∈ sh.reports files (Shell.inputs (Text.lines text)), r.error? = none) ∧
        (sh.reports files (Shell.inputs (Text.lines text))).flatMap (·.outcomes.toList) =
          (Execution.of s.env xs).outcomes := by
      obtain ⟨⟨xss, rfl, hrelays⟩, -⟩ := run_ready files prompts hready rfl
      exact hrelays.of_ok he
    obtain ⟨-, hnone, houtcomes⟩ := hok false
    have hall : (sh.reports files (Shell.inputs (Text.lines text))).flatMap (·.outcomes.toList) =
        (s.run text).outcomes.toList := by rw [houtcomes, htells.outcomes]
    refine ⟨fun prompts => ?_, hnone, hall, ?_⟩
    · rw [(hok prompts).1, htells.session]
    · rw [hout, results_told, hall]
  · rw [htells.error?, Option.map_eq_some_iff] at he
    obtain ⟨e, he, rfl⟩ := he
    obtain ⟨⟨xss, rfl, hrelays⟩, -⟩ := run_ready files false hready rfl
    obtain ⟨before, r, after, hrs, hbefore, hr, houtcomes⟩ := hrelays.of_error he
    refine ⟨before, r, after, hrs, hbefore, hr, ?_⟩
    rw [houtcomes, htells.outcomes]
    rfl

end

def sevenThenName : List Stmt := [.declaration "x" (some (.literal "7")), .expression (.identifier "x")]

theorem parses_sevenThenName : Parses "int x\n= 7; x\n;" sevenThenName := by
  have ht : (tokenize "int x\n= 7; x\n;").toList =
      (⟨.keywordInt, "int"⟩ :: ⟨.identifier, "x"⟩ :: ⟨.assign, "="⟩ :: ([⟨.intLiteral, "7"⟩] ++ [⟨.semicolon, ";"⟩])) ++
        ([⟨.identifier, "x"⟩] ++ [⟨.semicolon, ";"⟩] ++ []) := by decide
  rw [Parses, ht]
  refine .cons (.define "int" "x" "=" ";" (.one (.one (.literal "7")))) (.cons ?_ .nil)
  exact .expression ";" (.one (.one (.identifier "x")))

theorem run_lines_seven_then_name :
    parse "int x\n= 7; x\n;" = .ok (Arena.empty.graftProgram [] sevenThenName) ∧
    Text.lines "int x\n= 7; x\n;" = ["int x\n", "= 7; x\n", ";"] ∧
    (Session.start.run "int x\n= 7; x\n;").error? = none ∧
    ((start .start .empty none).run ⟨[]⟩ false (Setting.inputs "int x\n= 7; x\n;".toUTF8)).1.session.env.bindings =
      [("x", some 7)] ∧
    ((start .start .empty none).reports ⟨[]⟩ (Setting.inputs "int x\n= 7; x\n;".toUTF8)).flatMap (·.outcomes.toList) =
      [.binding "x" (some 7), .value 7] ∧
    ((start .start .empty none).run ⟨[]⟩ false (Setting.inputs "int x\n= 7; x\n;".toUTF8)).2.results = "x: 7\n7\n" := by
  have hparse := parses_sevenThenName.parse_eq
  have hlines : Text.lines "int x\n= 7; x\n;" = ["int x\n", "= 7; x\n", ";"] := by decide
  have htells := Session.run_tells parses_sevenThenName .start
  have hrun : (Session.start.run "int x\n= 7; x\n;").error? = none := by
    rw [htells.error?]
    decide
  have h := run_lines .start .empty none ⟨[]⟩ _ _ hparse (.inl (by decide)) (by rw [hlines]; decide)
  obtain ⟨hsession, -, houtcomes, hresults⟩ := h.1 hrun
  refine ⟨hparse, hlines, hrun, ?_, ?_, ?_⟩
  · rw [hsession false, htells.session]
    decide +kernel
  · rw [houtcomes, htells.outcomes]
    decide
  · rw [hresults, htells.outcomes]
    decide

end Shell

end IntScript
