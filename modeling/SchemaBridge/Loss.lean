import SchemaBridge.Model.Format
/-!
# Losses

A loss is a construct that a conversion cannot express on the other side: a message, and as far as
they are known the node, the path and the source location it concerns.
-/
namespace SchemaBridge

/-- One step from a value into a part of it. -/
inductive Segment where
  | index (i : Nat)
  | key (k : String)
deriving DecidableEq, Repr

namespace Segment

def text : Segment → String
  | .index i => s!"[{i}]"
  | .key k => s!".{k}"

def toJson : Segment → Json.Value
  | .index i => .natural i
  | .key k => .string k

def ofJson? : Json.Value → Option Segment
  | .natural i => some (.index i)
  | .string k => some (.key k)
  | _ => none

theorem ofJson?_toJson (s : Segment) : ofJson? s.toJson = some s := by
  cases s <;> rfl

end Segment

/-- A way from the root of a document to a part of it. -/
abbrev Path := List Segment

def Path.text (p : Path) : String := String.join (p.map Segment.text)

structure Loss where
  message : String
  node : Option Model.Node
  path : Option Path
  source : Option String
  loc : Option Model.Location

namespace Loss

/-- A loss of a node, found where the node says. -/
def ofNode (message : String) (node : Model.Node) (path : Option Path) : Loss :=
  ⟨message, some node, path, none, node.loc⟩

end Loss

end SchemaBridge
