import SchemaBridge.Keyed
import SchemaBridge.Model.Annotations
import SchemaBridge.Model.Location
/-!
# Core types

A node is a core type: its kind, its annotations and perhaps a location. Arrays, tuples, objects
and alternatives hold further nodes. The properties of an object are entries in order.
-/
namespace SchemaBridge.Model

/-- What an object holds under a name. -/
structure Property (α : Type) where
  node : α
  required : Bool
deriving DecidableEq, Repr

mutual

inductive Kind where
  | boolean
  | integer
  | number
  | string (values : Option (List String))
  | null
  | array (element : Node)
  | tuple (elements : List Node)
  | object (properties : List (String × Property Node)) (additional : Bool)
  | or (alternatives : List Node)
  | ref (target : String)

structure Node where
  kind : Kind
  annotations : Annotations
  loc : Option Location

end

/-- The properties of an object by name. -/
abbrev Properties := Keyed (Property Node)

/-- A string without a list of values. -/
def Kind.anyString : Kind := .string none

/-- The word by which a kind is known in documents and messages. -/
def Kind.name : Kind → String
  | .boolean => "boolean"
  | .integer => "integer"
  | .number => "number"
  | .string _ => "string"
  | .null => "null"
  | .array _ => "array"
  | .tuple _ => "tuple"
  | .object .. => "object"
  | .or _ => "or"
  | .ref _ => "ref"

namespace Node

/-- A node is made of its three parts, which does not hold by definition as nodes hold nodes. -/
theorem eta (n : Node) : ⟨n.kind, n.annotations, n.loc⟩ = n := by
  cases n
  rfl

/-- A node with a kind and nothing else. -/
def ofKind (kind : Kind) : Node := ⟨kind, .empty, none⟩

def kindName (n : Node) : String := n.kind.name

def isNull (n : Node) : Bool :=
  match n.kind with
  | .null => true
  | _ => false

mutual

/-- The node without locations at any depth. -/
def clearLocations : Node → Node
  | ⟨.array e, a, _⟩ => ⟨.array e.clearLocations, a, none⟩
  | ⟨.tuple es, a, _⟩ => ⟨.tuple (clearAll es), a, none⟩
  | ⟨.object ps x, a, _⟩ => ⟨.object (clearProperties ps) x, a, none⟩
  | ⟨.or es, a, _⟩ => ⟨.or (clearAll es), a, none⟩
  | ⟨k, a, _⟩ => ⟨k, a, none⟩
termination_by structural n => n

def clearAll : List Node → List Node
  | [] => []
  | n :: ns => n.clearLocations :: clearAll ns
termination_by structural ns => ns

def clearProperties : List (String × Property Node) → List (String × Property Node)
  | [] => []
  | (name, ⟨n, required⟩) :: ps => (name, ⟨n.clearLocations, required⟩) :: clearProperties ps
termination_by structural ps => ps

end

end Node

end SchemaBridge.Model
