import SchemaBridge.Description
import SchemaBridge.Export.Mapping
import SchemaBridge.Export.Options
/-!
# From core types to GraphQL types

A declared object becomes an object type; a declared scalar or alternative becomes a union. Below
that, a node in the place of a field or a list item becomes a type reference: an array or a tuple a
list, and an anonymous object a type of its own, under a generated name. Alternatives are flattened
first; `null` among them makes the type nullable, and what else there is has to be a single type.

A node without counterpart is a loss, and costs the field, the item or the union member it is for.

Results:
* `flattenAll_eq_flatMap`: flattening is element by element.
-/
namespace SchemaBridge.Export

open Model (Node Kind Property Properties Annotations Declaration)
open Sdl (TypeRef TypeDef Field)
open Reporting (note)
open Mapping (register)

/-! ## Alternatives -/

mutual

/-- A node without the grouping of its alternatives. -/
def flatten : Node → List Node
  | ⟨.or es, _, _⟩ => flattenAll es
  | n => [n]
termination_by structural n => n

/-- All alternatives in depth-first order, none of them an alternative itself. -/
def flattenAll : List Node → List Node
  | [] => []
  | n :: ns => flatten n ++ flattenAll ns
termination_by structural ns => ns

end

theorem flattenAll_eq_flatMap (ns : List Node) : flattenAll ns = ns.flatMap flatten := by
  induction ns with
  | nil => rfl
  | cons n ns ih => rw [flattenAll, ih, List.flatMap_cons]

/-- Whether `null` is among alternatives. -/
def admitsNull (es : List Node) : Bool := (flattenAll es).any Node.isNull

/-- The alternatives other than `null`. -/
def nonNull (es : List Node) : List Node := (flattenAll es).filter fun n => !n.isNull

/-! ## Leaves -/

/-- The loss of a node that has no counterpart. -/
def lossOf (n : Node) (path : Option Path) : Loss :=
  .ofNode ("Type '" ++ n.kindName ++ "' not supported") n path

/-- Nothing for a node that has no counterpart. -/
def lose {α : Type} (n : Node) (path : Option Path) : Mapping (Option α) := do
  Reporting.lose (lossOf n path)
  pure none

/-- The description of annotations, if there is any. -/
def Settings.describe (s : Settings) (a : Annotations) : Option String :=
  Description.write? s.includeComment a

/-- The name of the type for a node that is a type by itself. -/
def leaf (s : Settings) (n : Node) : Mapping (Option String) :=
  match n.kind with
  | .boolean => pure (some "Boolean")
  | .integer => pure (some "Int")
  | .number => pure (some "Float")
  | .string _ => pure (some "String")
  | .ref target => pure (some target)
  | .null =>
    match s.nullTypeName with
    | some name => pure (some name)
    | none => lose n none
  | _ => lose n none

/-! ## Types of fields -/

/-- A definition of this library has no position in a source. -/
def nowhere : Text.Position := ⟨0, 0⟩

def objectDef (s : Settings) (name : String) (a : Annotations) (fields : List Field) : TypeDef :=
  ⟨nowhere, s.describe a, name, [], .object [] fields⟩

def unionDef (s : Settings) (name : String) (a : Annotations) (members : List String) : TypeDef :=
  ⟨nowhere, s.describe a, name, [], .union members⟩

/-- Chooses a name and registers it, before the type it is for is built. -/
def reserve (s : Settings) (base hint : String) : Mapping String := do
  let name := s.generator base hint (← get).keys
  note (.synthesizing name)
  register name none
  pure name

/-- Declares an anonymous object, given how to build its fields, and gives its name. -/
def synthesize (s : Settings) (base hint : String) (a : Annotations)
    (fields : String → Mapping (List Field)) : Mapping String := do
  let name ← reserve s base hint
  let fs ← fields name
  register name (some (objectDef s name a fs))
  pure name

/-- A type, and whether the core type it is for admits `null`. -/
structure FieldType where
  type : TypeRef
  nullable : Bool
deriving DecidableEq, Repr

/-- A list of items of a type. -/
def FieldType.toList (item : FieldType) : FieldType :=
  ⟨.list (item.type.requireIf !item.nullable), false⟩

/-- The field for a property, given its type. -/
def makeField (s : Settings) (name : String) (p : Property Node) (t : FieldType) : Field :=
  ⟨nowhere, s.describe p.node.annotations, name, [],
    t.type.requireIf (p.required && !t.nullable), []⟩

/-- The field for a property, or none if the property has no type. -/
def keepField (s : Settings) (owner name : String) (p : Property Node) :
    Option FieldType → Mapping (List Field)
  | some t => pure [makeField s name p t]
  | none => do
    note (.droppedField owner name)
    pure []

mutual

/-- The type of a field or list item. -/
def fieldType (s : Settings) (base hint : String) : Node → Mapping (Option FieldType)
  | ⟨.array e, _, _⟩ => do
    let item ← fieldType s base hint e
    pure (item.map FieldType.toList)
  | ⟨.tuple es, a, l⟩ =>
    if (nonNull es).length = 1 then do
      let t ← soleType s base hint es
      pure (t.map fun t => FieldType.toList ⟨t, admitsNull es⟩)
    else lose ⟨.tuple es, a, l⟩ none
  | ⟨.or es, a, l⟩ =>
    if (nonNull es).length = 1 then do
      let t ← soleType s base hint es
      pure (t.map fun t => ⟨t, admitsNull es⟩)
    else lose ⟨.or es, a, l⟩ none
  | ⟨.object ps _, a, _⟩ => do
    let name ← synthesize s base hint a fun name => fields s name ps
    pure (some ⟨.named name, false⟩)
  | n => do
    let name ← leaf s n
    pure (name.map fun name => ⟨.named name, false⟩)
termination_by structural n => n

/-- The type of the first alternative that is not `null`. -/
def soleType (s : Settings) (base hint : String) : List Node → Mapping (Option TypeRef)
  | [] => pure none
  | ⟨.null, _, _⟩ :: ns => soleType s base hint ns
  | ⟨.or es, _, _⟩ :: ns =>
    if nonNull es = [] then soleType s base hint ns else soleType s base hint es
  | n :: _ => do
    let t ← fieldType s base hint n
    pure (t.map FieldType.type)
termination_by structural ns => ns

/-- The fields for the properties of an object, without those that are lost. -/
def fields (s : Settings) (owner : String) : List (String × Property Node) → Mapping (List Field)
  | [] => pure []
  | (name, ⟨n, required⟩) :: ps => do
    let t ← fieldType s owner name n
    let first ← keepField s owner name ⟨n, required⟩ t
    let others ← fields s owner ps
    pure (first ++ others)
termination_by structural ps => ps

end

/-! ## Declarations -/

/-- The name of the type for an alternative of a union. -/
def member (s : Settings) (base hint : String) : Node → Mapping (Option String)
  | ⟨.object ps _, a, _⟩ => do
    let name ← synthesize s base hint a fun name => fields s name ps
    pure (some name)
  | n => leaf s n

/-- The members of a union from flattened alternatives, the first of which has a number. -/
def members (s : Settings) (base : String) : Nat → List Node → Mapping (List String)
  | _, [] => pure []
  | i, n :: ns => do
    let first ← member s base ("T" ++ toString i) n
    let others ← members s base (i + 1) ns
    pure (first.toList ++ others)

/-- The union of alternatives, unless it has no members. -/
def union (s : Settings) (name : String) (a : Annotations) (es : List Node) :
    Mapping (Option TypeDef) := do
  let ms ← members s name 0 (flattenAll es)
  if ms.isEmpty then pure none else pure (some (unionDef s name a ms))

/-- The definition for the declaration at an index. -/
def declaration (s : Settings) (index : Nat) (t : Declaration) : Mapping (Option TypeDef) :=
  match t.node.kind with
  | .boolean | .integer | .number | .string _ => union s t.name t.node.annotations [t.node]
  | .null =>
    match s.nullTypeName with
    | some name => pure (some (unionDef s t.name t.node.annotations [name]))
    | none => lose t.node (some [.index index])
  | .or es => union s t.name t.node.annotations es
  | .object ps _ => do
    let fs ← fields s t.name ps
    pure (some (objectDef s t.name t.node.annotations fs))
  | .array _ | .tuple _ | .ref _ => lose t.node (some [.index index])

/-- The definitions for declarations, the first of which has an index. -/
def declarations (s : Settings) :
    Nat → List Declaration → Mapping (List (String × Option TypeDef))
  | _, [] => pure []
  | i, t :: ts => do
    let d ← declaration s i t
    note (if d.isSome then .converted t.name else .notConverted t.name)
    let others ← declarations s (i + 1) ts
    pure ((t.name, d) :: others)

end SchemaBridge.Export
