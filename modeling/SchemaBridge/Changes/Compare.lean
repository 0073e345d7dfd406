import SchemaBridge.Changes.Change
import SchemaBridge.Changes.Compatibility
import SchemaBridge.ConversionError
import SchemaBridge.Keyed
/-!
# Comparing schemas

Type definitions are compared by name, in the order of the old schema; a repeated name stands for its
last definition. Other definitions, directives and default values play no part. Fields, arguments
and input fields are found on the new side by their first occurrence.
-/
namespace SchemaBridge.Changes

open Sdl (TypeDef TypeBody Field InputValue Definition Schema)

/-- The names of the old list that the new one lacks. -/
def removed (old new : List String) : List String := old.filter (· ∉ new)

/-- The names of the new list that the old one lacks. -/
def added (old new : List String) : List String := removed new old

/-- The first argument or input field of a name. -/
def findInput (vs : List InputValue) (name : String) : Option InputValue :=
  vs.find? (·.name = name)

/-- The first field of a name. -/
def findField (fs : List Field) (name : String) : Option Field := fs.find? (·.name = name)

/-- The new arguments or input fields whose name is new. -/
def newInputs (old new : List InputValue) : List InputValue :=
  new.filter fun v => v.name ∉ old.map InputValue.name

/-! ## Breaking changes -/

/-- What becomes of an old argument, given the new one of its name. -/
def argBreaking (owner field : String) (old : InputValue) : Option InputValue → List Breaking
  | none => [.argRemoved owner field old.name]
  | some new =>
    if safeInput old.type new.type then []
    else [.argChangedKind owner field old.name old.type new.type]

def argsBreaking (owner field : String) (old new : List InputValue) : List Breaking :=
  old.flatMap (fun a => argBreaking owner field a (findInput new a.name))
    ++ ((newInputs old new).filter isRequired).map fun a => .requiredArgAdded owner field a.name

/-- What becomes of an old field, given the new one of its name. -/
def fieldBreaking (owner : String) (old : Field) : Option Field → List Breaking
  | none => [.fieldRemoved owner old.name]
  | some new =>
    argsBreaking owner old.name old.arguments new.arguments
      ++ if safeOutput old.type new.type then []
        else [.fieldChangedKind owner old.name old.type new.type]

def fieldsBreaking (owner : String) (old new : List Field) : List Breaking :=
  old.flatMap fun f => fieldBreaking owner f (findField new f.name)

/-- What becomes of an old input field, given the new one of its name. -/
def inputFieldBreaking (owner : String) (old : InputValue) : Option InputValue → List Breaking
  | none => [.fieldRemoved owner old.name]
  | some new =>
    if safeInput old.type new.type then []
    else [.fieldChangedKind owner old.name old.type new.type]

def inputFieldsBreaking (owner : String) (old new : List InputValue) : List Breaking :=
  old.flatMap (fun f => inputFieldBreaking owner f (findInput new f.name))
    ++ ((newInputs old new).filter isRequired).map fun f => .requiredInputFieldAdded owner f.name

def interfacesBreaking (owner : String) (old new : List String) : List Breaking :=
  (removed old new).map (.interfaceRemovedFromObject owner)

/-- The breaking changes between two bodies of a type. -/
def bodyBreaking (owner : String) : (old new : TypeBody) → List Breaking
  | .scalar, .scalar => []
  | .enum old, .enum new =>
    (removed (old.map Sdl.EnumValue.name) (new.map Sdl.EnumValue.name)).map
      (.valueRemovedFromEnum owner)
  | .union old, .union new => (removed old new).map (.typeRemovedFromUnion owner)
  | .input old, .input new => inputFieldsBreaking owner old new
  | .object oldIs old, .object newIs new | .interface oldIs old, .interface newIs new =>
    fieldsBreaking owner old new ++ interfacesBreaking owner oldIs newIs
  | old, new => [.typeChangedKind owner old.form new.form]

/-- What becomes of an old type, given the new one of its name. -/
def typeBreaking (name : String) (old : TypeDef) : Option TypeDef → List Breaking
  | none => [.typeRemoved name]
  | some new => bodyBreaking name old.body new.body

/-! ## Dangerous changes -/

def argsDangerous (owner field : String) (old new : List InputValue) : List Dangerous :=
  ((newInputs old new).filter fun a => !isRequired a).map fun a =>
    .optionalArgAdded owner field a.name

def fieldDangerous (owner : String) (old : Field) : Option Field → List Dangerous
  | none => []
  | some new => argsDangerous owner old.name old.arguments new.arguments

def fieldsDangerous (owner : String) (old new : List Field) : List Dangerous :=
  old.flatMap fun f => fieldDangerous owner f (findField new f.name)

def inputFieldsDangerous (owner : String) (old new : List InputValue) : List Dangerous :=
  ((newInputs old new).filter fun f => !isRequired f).map fun f =>
    .optionalInputFieldAdded owner f.name

def interfacesDangerous (owner : String) (old new : List String) : List Dangerous :=
  (added old new).map (.interfaceAddedToObject owner)

/-- The dangerous changes between two bodies of a type. -/
def bodyDangerous (owner : String) : (old new : TypeBody) → List Dangerous
  | .enum old, .enum new =>
    (added (old.map Sdl.EnumValue.name) (new.map Sdl.EnumValue.name)).map (.valueAddedToEnum owner)
  | .union old, .union new => (added old new).map (.typeAddedToUnion owner)
  | .input old, .input new => inputFieldsDangerous owner old new
  | .object oldIs old, .object newIs new | .interface oldIs old, .interface newIs new =>
    fieldsDangerous owner old new ++ interfacesDangerous owner oldIs newIs
  | _, _ => []

def typeDangerous (name : String) (old : TypeDef) : Option TypeDef → List Dangerous
  | none => []
  | some new => bodyDangerous name old.body new.body

/-! ## Schemas -/

/-- The type definitions of a schema by name. -/
def typeDefs (s : Schema) : Keyed TypeDef :=
  Keyed.ofEntries (s.filterMap fun d =>
    match d with
    | .type t => some (t.name, t)
    | _ => none)

/-- The changes from one schema to another that break requests. -/
def breaking (old new : Schema) : List Breaking :=
  let news := typeDefs new
  (typeDefs old).flatMap fun t => typeBreaking t.1 t.2 (news.lookup? t.1)

/-- The changes from one schema to another that may alter what requests mean. -/
def dangerous (old new : Schema) : List Dangerous :=
  let news := typeDefs new
  (typeDefs old).flatMap fun t => typeDangerous t.1 t.2 (news.lookup? t.1)

/-- The changes between two schemas. -/
structure Report where
  breaking : List Breaking
  dangerous : List Dangerous
deriving DecidableEq, Repr

/-- The changes between the schemas that two sources hold; the old source is read first. -/
def compare (old new : String) : Except ConversionError Report := do
  let old ← Sdl.readSchema old
  let new ← Sdl.readSchema new
  pure ⟨breaking old new, dangerous old new⟩

end SchemaBridge.Changes
