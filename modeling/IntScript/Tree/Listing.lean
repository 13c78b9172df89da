import IntScript.Tree.Arena

namespace IntScript

structure Arena.Line where
  depth : Nat
  type : NodeType
  text : String
  deriving DecidableEq, Repr

namespace Arena

/-- The pending nodes with their depths, the next one first. Each step lists one node and puts its
children before the others. -/
def listFrom (a : Arena) : Nat → List (Nat × Nat) → Array Line → Array Line
  | 0, _, lines => lines
  | _, [], lines => lines
  | fuel + 1, (id, depth) :: pending, lines =>
      match a.node? id with
      | none => listFrom a fuel pending lines
      | some node =>
          listFrom a fuel (node.children.map (·, depth + 1) ++ pending)
            (lines.push ⟨depth, node.type, node.text⟩)

def lines (a : Arena) : Array Line := listFrom a a.size (a.root?.toList.map (·, 0)) #[]

def Line.render (line : Line) : String :=
  "".pushn '\t' line.depth ++ line.type.name ++ " " ++ line.text ++ "\n"

def render (a : Arena) : String := a.lines.foldl (fun text line => text ++ line.render) ""

end Arena

end IntScript
