import SchemaBridge.Model.Node
/-!
# Documents

A document is a version number and the named core types it declares, in order.
-/
namespace SchemaBridge.Model

/-- A core type with the name it is declared under. -/
structure Declaration where
  name : String
  node : Node

structure Document where
  version : Nat
  types : List Declaration

namespace Document

/-- The version of documents that this library converts and produces. -/
def currentVersion : Nat := 1

/-- The declarations as a document of the current version. -/
def ofTypes (types : List Declaration) : Document := ⟨currentVersion, types⟩

/-- The declared names in order. -/
def names (d : Document) : List String := d.types.map Declaration.name

/-- The document without locations at any depth. -/
def clearLocations (d : Document) : Document :=
  { d with types := d.types.map fun t => { t with node := t.node.clearLocations } }

/-- One more declaration at the end. -/
def add (d : Document) (t : Declaration) : Document := { d with types := d.types ++ [t] }

/-- The document without the declarations of a name. -/
def remove (d : Document) (name : String) : Document :=
  { d with types := d.types.filter (·.name ≠ name) }

end Document

end SchemaBridge.Model
