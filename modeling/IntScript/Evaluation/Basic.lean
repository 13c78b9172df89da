import IntScript.Evaluation.Step
import IntScript.Number.Literal
import IntScript.Tree.Arena

namespace IntScript

namespace Eval

/-- The operators on the way down to the leftmost operand with their right operands, the lowest one first, as a stack
that knows its length. -/
inductive Spine : Nat → Type
  | nil : Spine 0
  | push {length : Nat} (op : Operator) (right : Nat) (spine : Spine length) : Spine (length + 1)

structure Descent where
  {length : Nat}
  spine : Spine length
  leftmost : Nat

/-- Goes down the left operands of a chain. The top of it has been noted already. -/
def descend (a : Arena) (top depth : Nat) : Nat → Nat → {length : Nat} → Spine length → Eval Descent
  | 0, _, _, _ => noOutcome
  | fuel + 1, id, length, spine =>
      match a.node? id with
      | some (.binary op left right) => do
          unless id = top do begin (depth + length) (.binary op left right)
          descend a top depth fuel left (spine.push op right)
      | _ => pure ⟨spine, id⟩

/-- Applies the operators to the value so far. The result of the last one is left to be noted. -/
def climb (operand : Nat → Nat → Eval Int64) (depth : Nat) : {length : Nat} → Spine length → Int64 → Eval Int64
  | 0, .nil, value => pure value
  | length + 1, .push op right spine, value => do
      let other ← operand right (depth + length + 1)
      let value ← ofExcept (op.apply value other)
      unless length = 0 do note (.result (depth + length) (some value))
      climb operand depth spine value

/-- The value of an operator and all operators to the left of it, without recursion on these. -/
def chain (a : Arena) (operand : Nat → Nat → Eval Int64) (id depth : Nat) : Eval Int64 := do
  let down ← descend a id depth (id + 1) id .nil
  climb operand depth down.spine (← operand down.leftmost (depth + down.length))

def required (a : Arena) (eval : Nat → Nat → Eval (Option Int64)) (id depth : Nat) :
    Eval Int64 := do
  match ← eval id depth with
  | some value => pure value
  | none => throw (.uninitializedVariable (a.text id))

def sequence (eval : Nat → Eval (Option Int64)) (ids : List Nat) : Eval (Option Int64) :=
  ids.foldlM (fun _ id => eval id) none

def node (a : Arena) (eval : Nat → Nat → Eval (Option Int64)) (id depth : Nat) :
    Node → Eval (Option Int64)
  | .program statements => sequence (eval · (depth + 1)) statements
  | .declaration name none => do
      declare name none
      pure none
  | .declaration name (some init) => do
      let value ← required a eval init (depth + 1)
      declare name (some value)
      pure (some value)
  | .assignment name value => do
      requireDeclared name
      let value ← required a eval value (depth + 1)
      assign name value
      pure (some value)
  | .binary _ _ _ => some <$> chain a (required a eval) id depth
  | .identifier name => some <$> lookUp name
  | .literal text =>
      match Number.literal? text with
      | some value => pure (some value)
      | none => throw (.invalidLiteral text)

/-- The value of a node, where at most the given number of evaluations stand inside each other. -/
def within (a : Arena) : Nat → Nat → Nat → Eval (Option Int64)
  | 0, _, _ => noOutcome
  | budget + 1, id, depth =>
      match a.node? id with
      | none => noOutcome
      | some n => do
          begin depth n
          let value? ← node a (within a budget) id depth n
          note (.result depth value?)
          pure value?

end Eval

namespace Arena

/-- Evaluates a node. As children come before their parents, their number bounds the depth. -/
def evaluateNode (a : Arena) (id : Nat) (env : Environment) :
    Except EvalError (Option Int64) × Run :=
  ((Eval.within a (id + 1) id 0).run.run (.start env)).getD (.ok none, .start env)

def evaluate (a : Arena) (env : Environment) : Except EvalError (Option Int64) × Run :=
  match a.root? with
  | some root => a.evaluateNode root env
  | none => (.ok none, .start env)

end Arena

end IntScript
