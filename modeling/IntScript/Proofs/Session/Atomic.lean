import IntScript.Proofs.Evaluation.Frame
import IntScript.Proofs.Session.Stop

namespace IntScript

def Node.target? : Node → Option String
  | .declaration name _ | .assignment name _ => some name
  | _ => none

namespace Arena

variable {a : Arena} {id : Nat} {n : Node} {e : Expr} {x : Stmt} {env env' : Environment} {outcome : Outcome}

theorem Holds.target? (h : a.Holds id e) : ∃ n, a.node? id = some n ∧ n.target? = none := by
  cases e with
  | literal text | identifier name => exact ⟨_, h, rfl⟩
  | binary op left right =>
      obtain ⟨i, j, hn, -⟩ := h
      exact ⟨_, hn, rfl⟩

theorem HoldsStmt.target? (h : a.HoldsStmt id x) : ∃ n, a.node? id = some n ∧ n.target? = x.target? := by
  cases x with
  | declaration name init? =>
      cases init? with
      | none => exact ⟨_, h, rfl⟩
      | some init =>
          obtain ⟨i, hn, -⟩ := h
          exact ⟨_, hn, rfl⟩
  | assignment name value =>
      obtain ⟨i, hn, -⟩ := h
      exact ⟨_, hn, rfl⟩
  | expression value => exact Holds.target? h

end Arena

namespace Session

inductive Request where
  | run (source : String)
  | calculate (source : String)
  | execute (tree : Arena) (ordered : tree.Ordered)
  | load (name : String) (content : Except ReadError String)

def perform (s : Session) : Request → Report
  | .run source => s.run source
  | .calculate source => s.runExpression source
  | .execute tree _ => s.execute tree
  | .load name content => s.load name content

def after (s : Session) (requests : List Request) : Session :=
  requests.foldl (fun s request => (s.perform request).session) s

section

variable {a : Arena} {name : String} {s : Session}

end

end Session

end IntScript
