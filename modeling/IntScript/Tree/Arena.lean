import IntScript.Tree.Node

namespace IntScript

structure Arena.Slot where
  node : Node
  parent? : Option Nat
  deriving DecidableEq, Repr

/-- A tree as the list of its nodes. A node is pushed after its children, and the last one is the
root. -/
structure Arena where
  slots : Array Arena.Slot
  deriving DecidableEq, Repr

namespace Arena

def empty : Arena := ⟨#[]⟩

def size (a : Arena) : Nat := a.slots.size

def node? (a : Arena) (id : Nat) : Option Node := a.slots[id]?.map (·.node)

def parent? (a : Arena) (id : Nat) : Option Nat := a.slots[id]?.bind (·.parent?)

def text (a : Arena) (id : Nat) : String := (a.node? id).elim "" Node.text

def adopt (slots : Array Slot) (parent : Nat) (children : List Nat) : Array Slot :=
  children.foldl (fun slots id => slots.modify id ({ · with parent? := some parent })) slots

def push (a : Arena) (node : Node) : Arena :=
  ⟨(adopt a.slots a.size node.children).push ⟨node, none⟩⟩

/-- Keeps the first nodes, without their links to parents that go. -/
def truncate (a : Arena) (size : Nat) : Arena :=
  ⟨(a.slots.take size).map fun slot => { slot with parent? := slot.parent?.filter (· < size) }⟩

def root? (a : Arena) : Option Nat := if a.size = 0 then none else some (a.size - 1)

def statements (a : Arena) : List Nat :=
  match a.root?.bind a.node? with
  | some (.program statements) => statements
  | _ => []

end Arena

end IntScript
