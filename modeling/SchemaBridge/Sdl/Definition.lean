import SchemaBridge.Decimal.Binary64
import SchemaBridge.Sdl.TypeRef
import SchemaBridge.Text.Position
/-!
# Schema definitions

The syntax of a schema document: values, directives, fields and the definitions themselves. The six
forms of type differ in their body only, and an extension is a type definition without description.
-/
namespace SchemaBridge.Sdl

open Text (Position)

inductive Value where
  | variable (name : String)
  | int (n : Int)
  | float (x : Decimal.Binary64)
  | string (s : String)
  | boolean (b : Bool)
  | null
  | enum (name : String)
  | list (elements : List Value)
  | object (fields : List (String × Value))
deriving Inhabited, Repr

/-- A directive at the place where it is applied. -/
structure Directive where
  name : String
  arguments : List (String × Value)
deriving Inhabited, Repr

/-- An argument of a field or directive, or a field of an input type. -/
structure InputValue where
  position : Position
  description : Option String
  name : String
  type : TypeRef
  default : Option Value
  directives : List Directive
deriving Inhabited, Repr

structure Field where
  position : Position
  description : Option String
  name : String
  arguments : List InputValue
  type : TypeRef
  directives : List Directive
deriving Inhabited, Repr

structure EnumValue where
  position : Position
  description : Option String
  name : String
  directives : List Directive
deriving Inhabited, Repr

/-- What sets the forms of type apart. -/
inductive TypeBody where
  | scalar
  | object (interfaces : List String) (fields : List Field)
  | interface (interfaces : List String) (fields : List Field)
  | union (members : List String)
  | enum (values : List EnumValue)
  | input (fields : List InputValue)
deriving Inhabited, Repr

structure TypeDef where
  position : Position
  description : Option String
  name : String
  directives : List Directive
  body : TypeBody
deriving Inhabited, Repr

/-- The root operations of a schema. -/
structure SchemaDef where
  position : Position
  directives : List Directive
  query : Option String
  mutation : Option String
  subscription : Option String
deriving Inhabited, Repr

structure DirectiveDef where
  position : Position
  description : Option String
  name : String
  arguments : List InputValue
  repeatable : Bool
  locations : List String
deriving Inhabited, Repr

inductive Definition where
  | schema (d : SchemaDef)
  | type (d : TypeDef)
  | extension (d : TypeDef)
  | directive (d : DirectiveDef)
deriving Inhabited, Repr

/-- The definitions of a schema document in order. -/
abbrev Schema := List Definition

/-- The forms of type. -/
inductive Form where
  | scalar
  | object
  | interface
  | union
  | enum
  | input
deriving DecidableEq, Repr

namespace Form

/-- The form as it appears in the kind of a definition. -/
def name : Form → String
  | scalar => "Scalar"
  | object => "Object"
  | interface => "Interface"
  | union => "Union"
  | enum => "Enum"
  | input => "InputObject"

end Form

def TypeBody.form : TypeBody → Form
  | scalar => .scalar
  | object .. => .object
  | interface .. => .interface
  | union _ => .union
  | enum _ => .enum
  | input _ => .input

def TypeDef.form (d : TypeDef) : Form := d.body.form

/-- The fields of an object or interface. -/
def TypeDef.fields (d : TypeDef) : List Field :=
  match d.body with
  | .object _ fs | .interface _ fs => fs
  | _ => []

/-- The members of a union. -/
def TypeDef.members (d : TypeDef) : List String :=
  match d.body with
  | .union ms => ms
  | _ => []

namespace Definition

/-- The kind of a definition. -/
def kind : Definition → String
  | schema _ => "SchemaDefinition"
  | type d => d.form.name ++ "TypeDefinition"
  | extension d => d.form.name ++ "TypeExtension"
  | directive _ => "DirectiveDefinition"

/-- The name that is defined or extended; a schema definition has none. -/
def name? : Definition → Option String
  | schema _ => none
  | type d => some d.name
  | extension d => some d.name
  | directive d => some d.name

def position : Definition → Position
  | schema d => d.position
  | type d => d.position
  | extension d => d.position
  | directive d => d.position

end Definition

/-- The places in which a directive may be declared to stand. -/
def directiveLocations : List String :=
  ["QUERY", "MUTATION", "SUBSCRIPTION", "FIELD", "FRAGMENT_DEFINITION", "FRAGMENT_SPREAD",
   "INLINE_FRAGMENT", "SCHEMA", "SCALAR", "OBJECT", "FIELD_DEFINITION", "ARGUMENT_DEFINITION",
   "INTERFACE", "UNION", "ENUM", "ENUM_VALUE", "INPUT_OBJECT", "INPUT_FIELD_DEFINITION",
   "VARIABLE_DEFINITION"]

end SchemaBridge.Sdl
