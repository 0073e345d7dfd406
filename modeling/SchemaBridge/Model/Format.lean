import SchemaBridge.Json.Value
import SchemaBridge.Model.Document
/-!
# The JSON form of documents

A node is one flat object: its `type`, what belongs to its kind, the annotations that are set, and
its location. A declaration has its `name` in front of that.

Reading goes from the leaves up: `Reading` holds everything that a JSON value could stand for, and
a node or a property is put together from the readings of its members. Unknown members are passed
over; a member that is known where it stands must not occur twice. `null` stands for absence among
the annotations, the location and its ends, and the values of a string.

Results:
* `readMembers_eq_map`: reading the members of an object reads each of them.
-/
namespace SchemaBridge.Model

open Json (Value)

/-! ## Writing -/

/-- A member that is left out when there is nothing to say. -/
def textMember (key : String) : Option String → List (String × Value)
  | none => []
  | some s => [(key, .string s)]

def Examples.toJson : Examples → Value
  | .one e => .string e
  | .many es => .strings es

def Annotations.members (a : Annotations) : List (String × Value) :=
  textMember "title" a.title ++ textMember "description" a.description
    ++ (match a.examples with
      | none => []
      | some es => [("examples", es.toJson)])
    ++ textMember "default" a.default ++ textMember "comment" a.comment

def Annotations.toJson (a : Annotations) : Value := .object a.members

def Position.toJson : Position → Value
  | .offset n => .natural n
  | .point l c o => .object [("line", .natural l), ("column", .natural c), ("offset", .natural o)]

def positionMember (key : String) : Option Position → List (String × Value)
  | none => []
  | some p => [(key, p.toJson)]

def Location.toJson (l : Location) : Value :=
  .object (positionMember "start" l.start ++ positionMember "end" l.stop)

def locationMember : Option Location → List (String × Value)
  | none => []
  | some l => [("loc", l.toJson)]

mutual

/-- What a kind adds to the object of its node. -/
def Kind.members : Kind → List (String × Value)
  | .string (some values) => [("enum", .strings values)]
  | .array e => [("elementType", .object e.members)]
  | .tuple es => [("elementTypes", .array (nodesToJson es))]
  | .object ps x => [("properties", .object (propertiesToJson ps)), ("additionalProperties", .bool x)]
  | .or es => [("or", .array (nodesToJson es))]
  | .ref target => [("ref", .string target)]
  | _ => []
termination_by structural k => k

/-- The members of the object that a node is written as. -/
def Node.members : Node → List (String × Value)
  | ⟨k, a, l⟩ => ("type", .string k.name) :: k.members ++ a.members ++ locationMember l
termination_by structural n => n

def nodesToJson : List Node → List Value
  | [] => []
  | n :: ns => .object n.members :: nodesToJson ns
termination_by structural ns => ns

def propertiesToJson : List (String × Property Node) → List (String × Value)
  | [] => []
  | (name, ⟨n, required⟩) :: ps =>
    (name, .object [("node", .object n.members), ("required", .bool required)])
      :: propertiesToJson ps
termination_by structural ps => ps

end

def Node.toJson (n : Node) : Value := .object n.members

def Declaration.toJson (t : Declaration) : Value := .object (("name", .string t.name) :: t.node.members)

def Document.toJson (d : Document) : Value :=
  .object [("version", .natural d.version), ("types", .array (d.types.map Declaration.toJson))]

/-! ## Reading the parts that hold no nodes -/

/-- Reads a member that may be absent, `null` standing for absence. -/
def absentOr {α : Type} (read : Value → Option α) : Option Value → Option (Option α)
  | none => some none
  | some .null => some none
  | some v => (read v).map some

/-- No key of the list has two entries. -/
def onceEach {α : Type} (keys : List String) (ms : Keyed α) : Bool :=
  keys.all fun k => ms.occurrences k ≤ 1

def Examples.ofJson? : Value → Option Examples
  | .string s => some (.one s)
  | v => v.strings?.map .many

def annotationKeys : List String := ["title", "description", "examples", "default", "comment"]

/-- The annotations among the members of an object. -/
def Annotations.ofMembers? (ms : Keyed Value) : Option Annotations := do
  let text := fun key => absentOr Value.string? (ms.lookup? key)
  let title ← text "title"
  let description ← text "description"
  let examples ← absentOr Examples.ofJson? (ms.lookup? "examples")
  let default ← text "default"
  let comment ← text "comment"
  pure ⟨title, description, examples, default, comment⟩

/-- Annotations on their own: an object, or an array of up to five values in the order of the keys. -/
def Annotations.ofJson? : Value → Option Annotations
  | .object ms => if onceEach annotationKeys ms then ofMembers? ms else none
  | .array vs =>
    if vs.length ≤ annotationKeys.length then ofMembers? (annotationKeys.zip vs) else none
  | _ => none

def pointKeys : List String := ["line", "column", "offset"]

/-- An end of a location: an offset, or a point given by its keys or by its three numbers. -/
def Position.ofJson? : Value → Option Position
  | .natural n => some (.offset n)
  | .object ms => do
    if onceEach pointKeys ms then
      let part := fun key => (Keyed.lookup? ms key).bind Value.natural?
      pure (.point (← part "line") (← part "column") (← part "offset"))
    else none
  | .array [.natural l, .natural c, .natural o] => some (.point l c o)
  | _ => none

def locationKeys : List String := ["start", "end"]

def Location.ofMembers? (ms : Keyed Value) : Option Location := do
  let start ← absentOr Position.ofJson? (ms.lookup? "start")
  let stop ← absentOr Position.ofJson? (ms.lookup? "end")
  pure ⟨start, stop⟩

/-- A location: an object, or an array of up to two ends. -/
def Location.ofJson? : Value → Option Location
  | .object ms => if onceEach locationKeys ms then ofMembers? ms else none
  | .array vs =>
    if vs.length ≤ locationKeys.length then ofMembers? (locationKeys.zip vs) else none
  | _ => none

/-! ## Reading nodes -/

/-- Everything that a JSON value could stand for. -/
structure Reading where
  value : Value
  node : Option Node
  nodes : Option (List Node)
  property : Option (Property Node)
  properties : Option Properties

/-- A value that stands for no more than itself. -/
def Reading.plain (v : Value) : Reading := ⟨v, none, none, none, none⟩

/-- The names of the kinds; a document may give the place in this list for the name. -/
def kindNames : List String :=
  ["boolean", "integer", "number", "string", "null", "array", "tuple", "object", "or", "ref"]

/-- The name of a kind as given by the `type` of a node. -/
def kindName? : Value → Option String
  | .string s => if s ∈ kindNames then some s else none
  | .natural n => kindNames[n]?
  | _ => none

/-- The members that a kind knows. -/
def kindKeys : String → List String
  | "string" => ["enum"]
  | "array" => ["elementType"]
  | "tuple" => ["elementTypes"]
  | "object" => ["properties", "additionalProperties"]
  | "or" => ["or"]
  | "ref" => ["ref"]
  | _ => []

/-- The kind of a name, its parts taken from the members. -/
def kindOf? (ms : Keyed Reading) : String → Option Kind
  | "boolean" => some .boolean
  | "integer" => some .integer
  | "number" => some .number
  | "string" => (absentOr Value.strings? ((ms.lookup? "enum").map Reading.value)).map .string
  | "null" => some .null
  | "array" => (ms.lookup? "elementType").bind Reading.node |>.map .array
  | "tuple" => (ms.lookup? "elementTypes").bind Reading.nodes |>.map .tuple
  | "object" => do
    let properties ← (ms.lookup? "properties").bind Reading.properties
    let additional ← match ms.lookup? "additionalProperties" with
      | none => pure false
      | some r => r.value.bool?
    pure (.object properties additional)
  | "or" => (ms.lookup? "or").bind Reading.nodes |>.map .or
  | "ref" => (ms.lookup? "ref").bind (fun r => r.value.string?) |>.map .ref
  | _ => none

/-- The node that an object stands for. -/
def nodeOf? (ms : Keyed Reading) : Option Node := do
  let name ← (ms.lookup? "type").bind fun r => kindName? r.value
  let kind ← kindOf? ms name
  let values : Keyed Value := ms.map fun m => (m.1, m.2.value)
  let annotations ← Annotations.ofMembers? values
  let loc ← absentOr Location.ofJson? (values.lookup? "loc")
  if onceEach ("type" :: "loc" :: annotationKeys ++ kindKeys name) ms then
    pure ⟨kind, annotations, loc⟩
  else none

/-- The property that an object with `node` and `required` stands for. -/
def propertyOf? (ms : Keyed Reading) : Option (Property Node) := do
  let node ← (ms.lookup? "node").bind Reading.node
  let required ← (ms.lookup? "required").bind fun r => r.value.bool?
  if onceEach ["node", "required"] ms then pure ⟨node, required⟩ else none

/-- The properties that an object stands for; the last value of a name counts. -/
def propertiesOf? (ms : Keyed Reading) : Option Properties :=
  (ms.mapM fun (m : String × Reading) => m.2.property.map (m.1, ·)).map Keyed.ofEntries

mutual

/-- What a value could stand for. -/
def read : Value → Reading
  | .array vs =>
    let rs := readAll vs
    let property := match rs with
      | [node, required] => propertyOf? [("node", node), ("required", required)]
      | _ => none
    ⟨.array vs, none, rs.mapM Reading.node, property, none⟩
  | .object ms =>
    let rs := readMembers ms
    ⟨.object ms, nodeOf? rs, none, propertyOf? rs, propertiesOf? rs⟩
  | v => .plain v
termination_by structural v => v

def readAll : List Value → List Reading
  | [] => []
  | v :: vs => read v :: readAll vs
termination_by structural vs => vs

def readMembers : List (String × Value) → Keyed Reading
  | [] => []
  | (k, v) :: ms => (k, read v) :: readMembers ms
termination_by structural ms => ms

end

theorem readMembers_eq_map (ms : List (String × Value)) :
    readMembers ms = ms.map fun m => (m.1, read m.2) := by
  induction ms with
  | nil => rfl
  | cons m ms ih => rw [readMembers, ih, List.map_cons]

def Node.ofJson? (v : Value) : Option Node := (read v).node

def Declaration.ofJson? : Value → Option Declaration
  | .object ms => do
    let name ← (Keyed.lookup? ms "name").bind Value.string?
    let node ← nodeOf? (readMembers ms)
    if onceEach ["name"] ms then pure ⟨name, node⟩ else none
  | _ => none

/-- A version is a number of 32 bits. -/
def version? (v : Value) : Option Nat := v.natural?.filter (· < Nat.pow 2 32)

def documentOf? (version types : Value) : Option Document := do
  let version ← version? version
  let types ← types.array?
  let types ← types.mapM Declaration.ofJson?
  pure ⟨version, types⟩

def documentKeys : List String := ["version", "types"]

/-- A document: an object, or an array of a version and the types. -/
def Document.ofJson? : Value → Option Document
  | .object ms => do
    let version ← Keyed.lookup? ms "version"
    let types ← Keyed.lookup? ms "types"
    if onceEach documentKeys ms then documentOf? version types else none
  | .array [version, types] => documentOf? version types
  | _ => none

end SchemaBridge.Model
