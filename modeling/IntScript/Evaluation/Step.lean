import IntScript.Evaluation.Environment
import IntScript.Tree.Node

namespace IntScript

inductive Step where
  | calculating (depth : Nat) (type : NodeType) (text : String)
  | result (depth : Nat) (value? : Option Int64)
  deriving DecidableEq, Repr

structure Run where
  env : Environment
  steps : Array Step

def Run.start (env : Environment) : Run := ⟨env, #[]⟩

/-- A computation that may fail, and whose effects up to the failure stay. There is no outcome at
all where the tree is not well formed or the bound on the depth is passed. -/
abbrev Eval := ExceptT EvalError (StateT Run Option)

namespace Eval

def noOutcome {α : Type} : Eval α := ExceptT.mk fun _ => none

def note (step : Step) : Eval Unit := modify fun run => { run with steps := run.steps.push step }

def begin (depth : Nat) (node : Node) : Eval Unit := note (.calculating depth node.type node.text)

def lookUp (name : String) : Eval Int64 := do ofExcept ((← get).env.get name)

def declare (name : String) (value? : Option Int64) : Eval Unit :=
  modify fun run => { run with env := run.env.declare name value? }

def requireDeclared (name : String) : Eval Unit := do
  unless (← get).env.isDeclared name do throw (.unknownVariable name)

def assign (name : String) (value : Int64) : Eval Unit := do
  let env ← ofExcept ((← get).env.assign name value)
  modify fun run => { run with env }

end Eval

end IntScript
