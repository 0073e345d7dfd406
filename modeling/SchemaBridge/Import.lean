import SchemaBridge.Conversion
import SchemaBridge.Description
import SchemaBridge.Sdl.Fault
/-!
# From schemas to documents

Object types, enums and unions become declarations; every other kind of definition is a loss. A
type reference becomes a node: a list an array, whose elements may be `null` unless they are
required. A union of one member is that member, and a union without members is left out.

Results:
* `document_of_readSchema`: a source that holds a schema becomes the document for it.
-/
namespace SchemaBridge.Import

open Model (Node Kind Property Annotations Declaration Document)
open Sdl (TypeRef TypeDef Field Definition Schema Source)

/-- The options of the conversion to core types. -/
structure Options where
  unsupported : Policy := .ignore

/-- The kind that a type name stands for. -/
def kindOfName (name : String) : Kind :=
  if name = "Boolean" then .boolean
  else if name = "Int" then .integer
  else if name = "Float" then .number
  else if name = "String" then .anyString
  else .ref name

/-- The title of a list inside a field of a type. -/
def listAnnotations (owner : String) : Annotations := { title := some (owner ++ ".[]") }

/-- The node for a type whose outer exclusion of `null` is accounted for elsewhere. -/
def typeNode (owner : String) : TypeRef → Node
  | .named name => .ofKind (kindOfName name)
  | .nonNull t => typeNode owner t
  | .list (.nonNull t) => ⟨.array (typeNode owner t), listAnnotations owner, none⟩
  | .list t =>
    ⟨.array (.ofKind (.or [.ofKind .null, typeNode owner t])), listAnnotations owner, none⟩

/-- A node that was described and titled in a source. -/
def annotated (source : Source) (kind : Kind) (description : Option String) (title : String)
    (p : Text.Position) : Node :=
  ⟨kind, { Description.read description with title := some title }, some (source.locate p)⟩

/-- The property for a field. -/
def property (source : Source) (owner : String) (f : Field) : Property Node :=
  { node := annotated source (typeNode owner f.type.strip).kind f.description
      (owner ++ "." ++ f.name) f.position
    required := f.type.isRequired }

/-- The kind for a union, unless it has no members. -/
def unionKind? : List String → Option Kind
  | [] => none
  | [m] => some (kindOfName m)
  | ms => some (.or (ms.map fun m => .ofKind (kindOfName m)))

/-- What becomes of a definition. -/
inductive Imported where
  | declared (t : Declaration)
  /-- There is nothing to declare. -/
  | empty (name : String)
  | lost (name : Option String) (loss : Loss)

/-- The properties for fields; of two fields of a name, the last counts. -/
def properties (source : Source) (owner : String) (fs : List Field) : Model.Properties :=
  Keyed.ofEntries (fs.map fun f => (f.name, property source owner f))

/-- The loss of the definition at an index. -/
def lossOf (source : Source) (index : Nat) (d : Definition) : Loss :=
  { message := "GraphQL kind " ++ d.kind ++ " not supported"
    node := none
    path := some [.index index]
    source := some source.text
    loc := some (source.locate d.position) }

/-- A type definition declared as a kind of core type. -/
def declare (source : Source) (d : TypeDef) (kind : Kind) : Imported :=
  .declared ⟨d.name, annotated source kind d.description d.name d.position⟩

/-- What becomes of the definition at an index. -/
def definition (source : Source) (index : Nat) (d : Definition) : Imported :=
  match d with
  | .type t =>
    match t.body with
    | .object _ fs => declare source t (.object (properties source t.name fs) false)
    | .enum vs => declare source t (.string (some (vs.map Sdl.EnumValue.name)))
    | .union ms =>
      match unionKind? ms with
      | some kind => declare source t kind
      | none => .empty t.name
    | _ => .lost (some t.name) (lossOf source index d)
  | _ => .lost d.name? (lossOf source index d)

namespace Imported

def declaration? : Imported → Option Declaration
  | declared t => some t
  | _ => none

/-- The name of a definition that is not converted, if it has one. -/
def missing? : Imported → Option String
  | declared _ => none
  | empty name => some name
  | lost name _ => name

def report : Imported → Reporting Unit
  | declared t => Reporting.note (.converted t.name)
  | empty name => Reporting.note (.notConverted name)
  | lost _ loss => Reporting.lose loss

end Imported

/-- What becomes of definitions, the first of which has an index. -/
def definitions (source : Source) : Nat → Schema → Reporting (List Imported)
  | _, [] => pure []
  | i, d :: ds => do
    let first := definition source i d
    first.report
    let others ← definitions source (i + 1) ds
    pure (first :: others)

/-- The document of all declarations. -/
def collect (is : List Imported) : Converted Document :=
  let types := is.filterMap Imported.declaration?
  { data := .ofTypes types
    convertedTypes := types.map Declaration.name
    notConvertedTypes := is.filterMap Imported.missing? }

/-- The document for a schema that was read from a source. -/
def ofSchema (o : Options) (source : Source) (s : Schema) : Conversion Document :=
  Reporting.conclude (collect <$> definitions source 0 s) o.unsupported

/-- The document for the schema that a source holds. -/
def document (o : Options) (source : String) : Conversion Document :=
  match Sdl.readSchema source with
  | .ok s => ofSchema o (.ofText source) s
  | .error e => .failed e

theorem document_of_readSchema {o : Options} {source : String} {s : Schema}
    (h : Sdl.readSchema source = .ok s) : document o source = ofSchema o (.ofText source) s := by
  unfold document
  rw [h]

end SchemaBridge.Import
