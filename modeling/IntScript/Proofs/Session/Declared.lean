import IntScript.Proofs.Grammar.Writing
import IntScript.Proofs.Session.Calculation
import IntScript.Proofs.Session.Names

namespace IntScript

def Environment.Named (env : Environment) : Prop := ∀ name, env.isDeclared name = true → IsName name

theorem Environment.named_empty : Environment.empty.Named := by
  intro name h
  rw [isDeclared, empty, Std.ExtTreeMap.contains_empty] at h
  exact nomatch h

theorem Stmt.isName_of_target? {x : Stmt} {name : String} (hx : x.WellNamed) (h : x.target? = some name) : IsName name := by
  cases x with
  | declaration | assignment => exact Option.some.inj h ▸ hx.1
  | expression => exact nomatch h

theorem Execution.named {env : Environment} {xs : List Stmt} (henv : env.Named) (hxs : ∀ x ∈ xs, x.WellNamed) :
    (of env xs).env.Named := by
  intro name h
  by_cases ht : ∃ x ∈ xs.take (of env xs).outcomes.length, x.target? = some name
  · obtain ⟨x, hx, ht⟩ := ht
    exact Stmt.isName_of_target? (hxs x (List.mem_of_mem_take hx)) ht
  · have hslots := slots_of_untargeted fun x hx hn => ht ⟨x, hx, hn⟩
    rw [Environment.isDeclared_eq, hslots, ← Environment.isDeclared_eq] at h
    exact henv name h

/-- The names of a script that can be parsed come from its text. -/
theorem Parses.wellNamed {source : String} {xs : List Stmt} (h : Parses source xs) : ∀ x ∈ xs, x.WellNamed :=
  Grammar.wellNamed_of_program h fun _ ht => Token.lexical_of_mem_tokenize (Array.mem_toList_iff.1 ht)

namespace Session

inductive Reached : Session → Prop
  | start : Reached start
  | run {s} (h : Reached s) (source : String) : Reached (s.run source).session
  | load {s} (h : Reached s) (name : String) (content : Except ReadError String) : Reached (s.load name content).session
  | calculate {s} (h : Reached s) (source : String) : Reached (s.runExpression source).session
  | switch {s} (h : Reached s) (verbose : Bool) : Reached { s with verbose }

variable {s : Session}

theorem run_named (h : s.env.Named) (source : String) : (s.run source).session.env.Named := by
  cases hp : parse source with
  | error e =>
      rw [run_error hp]
      exact h
  | ok a =>
      obtain ⟨xs, hxs, -⟩ := parses_of_parse hp
      rw [(run_tells hxs s).session]
      exact Execution.named h hxs.wellNamed

theorem load_named (h : s.env.Named) (name : String) (content : Except ReadError String) :
    (s.load name content).session.env.Named := by
  cases content with
  | error e => exact h
  | ok source => exact run_named h source

theorem runExpression_session (s : Session) (source : String) : (s.runExpression source).session = s := by
  cases h : parseExpression source with
  | error e => exact (calculates_of_error h s).session
  | ok a =>
      obtain ⟨e, he, -⟩ := parseExpression_eq_ok_iff.1 h
      exact (calculates_of_parses he s).session

/-- However a session came about, its variables have names that the lexer reads as such. -/
theorem Reached.named (h : s.Reached) : s.env.Named := by
  induction h with
  | start => exact Environment.named_empty
  | run _ source ih => exact run_named ih source
  | load _ name content ih => exact load_named ih name content
  | @calculate s _ source ih =>
      rw [runExpression_session]
      exact ih
  | switch _ verbose ih => exact ih

end Session

end IntScript
