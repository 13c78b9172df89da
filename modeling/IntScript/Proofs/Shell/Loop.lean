import IntScript.Proofs.Shell.Chunk
import IntScript.Proofs.Shell.Script

namespace IntScript

namespace Chunk

def session (files : Files) (fixedFilter : Bool) (s : Session) : Chunk → Session
  | command _ (.known c argument?) => (c.run argument? files fixedFilter s).session
  | script first more => (s.run (join first more)).session
  | _ => s

def entry? : Chunk → Option String
  | command text _ => some text
  | script first more => some (join first more)
  | _ => none

def output [Subscriber] (files : Files) (fixed? : Option Threshold) (s : Session) : Chunk → Output
  | command _ (.unknown name) => .tell ("unknown command ':" ++ name ++ "', see :help\n")
  | command _ (.known c argument?) =>
      let e := c.run argument? files fixed?.isSome s
      .tell (Subscriber.render (Log.threshold fixed? s.verbose) e.events) ++ e.output
  | script first more => (s.run (join first more)).output (Log.threshold fixed? s.verbose) ScriptError.line
  | exit _ => .print "good bye!\n"
  | blank _ => .empty
  | dropped _ _ reason | stopped reason => reason.output

def prompts (chunk : Chunk) : Output :=
  .print ("> " ++ String.join (List.replicate (chunk.inputs.length - 1) "& "))

def transcript [Subscriber] (files : Files) (fixed? : Option Threshold) (prompts : Bool) : Session → List Chunk → Output
  | _, [] => .empty
  | s, chunk :: chunks =>
      (if prompts then chunk.prompts else .empty) ++ chunk.output files fixed? s ++
        transcript files fixed? prompts (chunk.session files fixed?.isSome s) chunks

end Chunk

namespace Shell

theorem begin_cases (text : String) :
    (∃ text', Reader.begin text = (.wait, some text')) ∨ ∃ action ≠ .wait, Reader.begin text = (action, none) := by
  rw [Reader.begin]
  split_ifs
  · exact .inl ⟨text, rfl⟩
  · exact .inr ⟨.skip, by simp, rfl⟩
  · exact .inr ⟨.script text, by simp, rfl⟩

/-- A text is pending exactly as long as the prompt waits. -/
theorem next_cases (pending? : Option String) (input : Input) :
    (∃ text, Reader.next pending? input = (.wait, some text)) ∨
      ∃ action ≠ .wait, Reader.next pending? input = (action, none) := by
  cases input with
  | interrupted reason =>
      cases pending? with
      | none => exact .inr ⟨.stop reason, by simp, rfl⟩
      | some text => exact .inr ⟨.drop reason, by simp, rfl⟩
  | line line =>
      cases pending? with
      | none =>
          rw [Reader.next, Reader.first]
          split
          · next command _ => exact .inr ⟨.command line command, by simp, rfl⟩
          · split_ifs
            · exact .inr ⟨.exit, by simp, rfl⟩
            · exact begin_cases line
      | some text =>
          rw [Reader.next, Reader.extend]
          split_ifs
          · exact .inr ⟨.script (text ++ "\n" ++ line), by simp, rfl⟩
          · exact .inl ⟨text ++ "\n" ++ line, rfl⟩

theorem print_append (a b : String) : Output.print (a ++ b) = .print a ++ .print b :=
  congrArg (Output.mk _) String.empty_append.symm

variable [LineEditor]

def past (files : Files) (sh : Shell) (chunk : Chunk) : Shell :=
  { sh with
    session := chunk.session files sh.fixed?.isSome sh.session
    history := chunk.entry?.elim sh.history (LineEditor.remember sh.history)
    pending? := none
    running := if chunk.isFinal then false else sh.running }

theorem history_past (files : Files) (sh : Shell) (chunk : Chunk) (chunks : List Chunk) :
    (chunks.filterMap Chunk.entry?).foldl LineEditor.remember (sh.past files chunk).history =
      ((chunk :: chunks).filterMap Chunk.entry?).foldl LineEditor.remember sh.history := by
  rw [List.filterMap_cons, past]
  cases chunk.entry? <;> rfl

variable [Subscriber]

def reads (files : Files) : Shell → List Input → List Input
  | _, [] => []
  | sh, input :: inputs => if sh.running then input :: reads files (sh.step files input).1 inputs else []

/-- The prompt reads the chunks and no more, and does what each of them says. -/
structure Follows (files : Files) (prompts : Bool) (sh : Shell) (inputs : List Input) (chunks : List Chunk) : Prop where
  stops : (sh.run files prompts inputs).1.running = false
  reads : sh.reads files inputs = chunks.flatMap Chunk.inputs
  session : (sh.run files prompts inputs).1.session =
    chunks.foldl (Chunk.session files sh.fixed?.isSome) sh.session
  history : (sh.run files prompts inputs).1.history = (chunks.filterMap Chunk.entry?).foldl LineEditor.remember sh.history
  output : (sh.run files prompts inputs).2 = Chunk.transcript files sh.fixed? prompts sh.session chunks

variable {sh : Shell} {action : Action} {inputs rest : List Input} {chunks : List Chunk}

theorem step_wait (files : Files) {input : Input} {text : String} (hr : sh.running = true)
    (h : Reader.next sh.pending? input = (.wait, some text)) :
    sh.step files input = ({ sh with pending? := some text }, .empty) := by
  rw [step, if_pos hr, h]
  rfl

theorem step_act (files : Files) {input : Input} (hr : sh.running = true)
    (h : Reader.next sh.pending? input = (action, none)) :
    sh.step files input = perform files { sh with pending? := none } action := by
  rw [step, if_pos hr, h]

/-- The prompt waits for some inputs and acts on the one after them. -/
theorem run_scan (files : Files) (prompts : Bool) (hr : sh.running = true)
    (h : Reader.scan sh.pending? inputs = some (action, rest)) :
    ∃ input waits, inputs = input :: waits ++ rest ∧
      sh.run files prompts inputs =
        (((perform files { sh with pending? := none } action).1.run files prompts rest).1,
          (if prompts then .print (sh.prompt ++ String.join (List.replicate waits.length "& ")) else .empty) ++
            (perform files { sh with pending? := none } action).2 ++
              ((perform files { sh with pending? := none } action).1.run files prompts rest).2) ∧
      sh.reads files inputs =
        input :: waits ++ (perform files { sh with pending? := none } action).1.reads files rest := by
  induction inputs generalizing sh with
  | nil => exact nomatch h
  | cons input inputs ih =>
      rw [run_cons, reads, if_pos hr]
      rcases next_cases sh.pending? input with ⟨text, hn⟩ | ⟨act, hne, hn⟩
      · have hscan : Reader.scan (some text) inputs = some (action, rest) := by rwa [Reader.scan, hn] at h
        have hwaits : ({ sh with pending? := some text } : Shell).running = true := hr
        obtain ⟨next, waits, rfl, hrun, hreads⟩ := ih hwaits hscan
        have hprompt : prompt { sh with pending? := some text } = "& " := if_pos hr
        refine ⟨input, next :: waits, rfl, ?_, ?_⟩
        · rw [step_wait files hr hn, hrun, hprompt, List.length_cons, List.replicate_succ, String.join_cons]
          cases prompts with
          | false => simp only [Output.empty_append, Bool.false_eq_true, if_false]
          | true => simp only [Output.append_empty, if_true, print_append, Output.append_assoc]
        · rw [step_wait files hr hn, hreads]
          rfl
      · have hscan : some (act, inputs) = some (action, rest) := by
          rw [Reader.scan, hn] at h
          cases act <;> first | exact absurd rfl hne | exact h
        obtain ⟨rfl, rfl⟩ := Prod.mk.inj (Option.some.inj hscan)
        refine ⟨input, [], rfl, ?_, ?_⟩
        · rw [step_act files hr hn]
          rw [List.length_nil, List.replicate_zero]
          simp [String.join]
        · rw [step_act files hr hn]
          rfl

theorem perform_action (files : Files) (sh : Shell) (chunk : Chunk) :
    perform files { sh with pending? := none } chunk.action =
      (sh.past files chunk, chunk.output files sh.fixed? sh.session) := by
  cases chunk with
  | command text line => cases line <;> rfl
  | exit | blank | script | dropped | stopped => rfl

/-- The inputs of a chunk are read and do what the chunk says, whatever comes after them. -/
theorem run_chunk (files : Files) (prompts : Bool) (hr : sh.running = true) (hp : sh.pending? = none) {chunk : Chunk}
    (h : chunk.Proper) (rest : List Input) :
    sh.run files prompts (chunk.inputs ++ rest) =
      (((sh.past files chunk).run files prompts rest).1, (if prompts then chunk.prompts else .empty) ++
        chunk.output files sh.fixed? sh.session ++ ((sh.past files chunk).run files prompts rest).2) ∧
    sh.reads files (chunk.inputs ++ rest) = chunk.inputs ++ (sh.past files chunk).reads files rest := by
  have hscan : Reader.scan sh.pending? (chunk.inputs ++ rest) = some (chunk.action, rest) := by
    rw [hp]
    exact Chunk.scan_inputs h rest
  obtain ⟨input, waits, he, hrun, hreads⟩ := run_scan files prompts hr hscan
  have hinputs : chunk.inputs = input :: waits := List.append_cancel_right he
  have hprompt : sh.prompt = "> " := by
    rw [prompt, if_pos hr, hp]
    rfl
  rw [perform_action] at hrun hreads
  refine ⟨?_, ?_⟩
  · rw [hrun, hprompt, Chunk.prompts, hinputs, List.length_cons, Nat.add_sub_cancel]
  · rw [hreads, hinputs]

theorem run_stopped (files : Files) (prompts : Bool) (hr : sh.running = false) (inputs : List Input) :
    sh.run files prompts inputs = (sh, .empty) ∧ sh.reads files inputs = [] := by
  induction inputs with
  | nil => exact ⟨rfl, rfl⟩
  | cons input inputs ih =>
      have hstep : sh.step files input = (sh, .empty) := by simp [step, hr]
      have hprompt : sh.prompt = "" := by simp [prompt, hr]
      constructor
      · rw [run_cons, hstep, ih.1, hprompt]
        cases prompts <;> rfl
      · simp [reads, hr]

theorem follows_nil (files : Files) (prompts : Bool) (hr : sh.running = false) (inputs : List Input) :
    sh.Follows files prompts inputs [] := by
  obtain ⟨hrun, hreads⟩ := run_stopped files prompts hr inputs
  exact ⟨by rw [hrun, hr], hreads, by rw [hrun]; rfl, by rw [hrun]; rfl, by rw [hrun]; rfl⟩

theorem Follows.cons {files : Files} {prompts : Bool} {chunk : Chunk} (hr : sh.running = true) (hp : sh.pending? = none)
    (hc : chunk.Proper) (h : (sh.past files chunk).Follows files prompts rest chunks) :
    sh.Follows files prompts (chunk.inputs ++ rest) (chunk :: chunks) := by
  obtain ⟨hrun, hreads⟩ := run_chunk files prompts hr hp hc rest
  refine ⟨?_, ?_, ?_, ?_, ?_⟩
  · rw [hrun]
    exact h.stops
  · rw [hreads, h.reads, List.flatMap_cons]
  · rw [hrun]
    exact h.session
  · rw [hrun]
    exact h.history.trans (history_past files sh chunk chunks)
  · rw [hrun, h.output]
    rfl

theorem follows_of_cuts (files : Files) (prompts : Bool) (h : Cuts inputs chunks rest) (hr : sh.running = true)
    (hp : sh.pending? = none) : sh.Follows files prompts inputs chunks := by
  induction h generalizing sh with
  | last rest hc hf => exact (follows_nil files prompts (if_pos hf) rest).cons hr hp hc
  | @next chunk inputs chunks rest hc hf _ ih =>
      have hgo : (sh.past files chunk).running = true := by
        rw [past, hf]
        exact hr
      exact (ih hgo rfl).cons hr hp hc

/-- Whatever is read before the input ends for good, there is one way to cut it into chunks, for all sessions alike. The
prompt does what the chunks say, one after the other, reads nothing behind the last one and stops. -/
theorem run_chunks (results : List Input) :
    ∃ chunks : List Chunk, (chunks.flatMap Chunk.inputs).length ≤ results.length + 2 ∧
      ∀ k, let inputs := results ++ List.replicate (k + 2) (.interrupted .ended)
        (∃ rest, Cuts inputs chunks rest) ∧
        (∀ chunks' rest, Cuts inputs chunks' rest → chunks' = chunks) ∧
        ∀ s history fixed? files prompts, (start s history fixed?).Follows files prompts inputs chunks := by
  obtain ⟨chunks, rest, h⟩ := Cuts.exists_cuts results .ended
  refine ⟨chunks, ?_, fun k => ?_⟩
  · have hlength := congrArg List.length h.eq_append
    simp only [List.length_append, List.length_cons, List.length_nil] at hlength
    omega
  · have hk := h.append (List.replicate k (.interrupted .ended))
    rw [List.append_assoc] at hk
    have hinputs : results ++ List.replicate (k + 2) (.interrupted .ended) =
        results ++ ([.interrupted .ended, .interrupted .ended] ++ List.replicate k (.interrupted .ended)) := by
      rw [Nat.add_comm, List.replicate_add]
      rfl
    rw [hinputs]
    refine ⟨⟨_, hk⟩, fun chunks' rest' h' => (hk.unique h').1, ?_⟩
    exact fun s history fixed? files prompts => follows_of_cuts files prompts hk rfl rfl

end Shell

end IntScript
