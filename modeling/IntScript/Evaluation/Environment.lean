import IntScript.Evaluation.Error
import Std.Data.ExtTreeMap.Lemmas

namespace IntScript

/-- The declared variables. One that has not been given a value holds none. -/
structure Environment where
  slots : Std.ExtTreeMap String (Option Int64)

namespace Environment

def empty : Environment := ⟨∅⟩

def declare (env : Environment) (name : String) (value? : Option Int64) : Environment :=
  ⟨env.slots.insert name value?⟩

def isDeclared (env : Environment) (name : String) : Bool := env.slots.contains name

def assign (env : Environment) (name : String) (value : Int64) : Except EvalError Environment :=
  if env.isDeclared name then .ok (env.declare name (some value))
  else .error (.unknownVariable name)

def get (env : Environment) (name : String) : Except EvalError Int64 :=
  match env.slots[name]? with
  | some (some value) => .ok value
  | some none => .error (.uninitializedVariable name)
  | none => .error (.undefinedVariable name)

def bindings (env : Environment) : List (String × Option Int64) := env.slots.toList

def namesFrom (env : Environment) (stem : String) : List String :=
  env.slots.keys.filter fun name => stem.toList.isPrefixOf name.toList

def size (env : Environment) : Nat := env.slots.size

end Environment

end IntScript
