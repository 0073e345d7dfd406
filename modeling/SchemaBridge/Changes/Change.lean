import SchemaBridge.Sdl.Definition
/-!
# Changes between schemas

A breaking change can make a request fail that was fine before; a dangerous change can alter what a
request means. Each has a code and a sentence that describes it.
-/
namespace SchemaBridge.Changes

open Sdl (TypeRef Form)

inductive Breaking where
  | argChangedKind (owner field arg : String) (old new : TypeRef)
  | argRemoved (owner field arg : String)
  | fieldChangedKind (owner field : String) (old new : TypeRef)
  | fieldRemoved (owner field : String)
  | interfaceRemovedFromObject (owner interface : String)
  | requiredArgAdded (owner field arg : String)
  | requiredInputFieldAdded (owner field : String)
  | typeChangedKind (name : String) (old new : Form)
  | typeRemoved (name : String)
  | typeRemovedFromUnion (owner member : String)
  | valueRemovedFromEnum (owner value : String)
deriving DecidableEq, Repr

inductive Dangerous where
  | interfaceAddedToObject (owner interface : String)
  | optionalArgAdded (owner field arg : String)
  | optionalInputFieldAdded (owner field : String)
  | typeAddedToUnion (owner member : String)
  | valueAddedToEnum (owner value : String)
deriving DecidableEq, Repr

/-- A form of type in a sentence. -/
def phrase : Form → String
  | .scalar => "a Scalar type"
  | .object => "an Object type"
  | .interface => "an Interface type"
  | .union => "a Union type"
  | .enum => "an Enum type"
  | .input => "an Input type"

namespace Breaking

def code : Breaking → String
  | argChangedKind .. => "ARG_CHANGED_KIND"
  | argRemoved .. => "ARG_REMOVED"
  | fieldChangedKind .. => "FIELD_CHANGED_KIND"
  | fieldRemoved .. => "FIELD_REMOVED"
  | interfaceRemovedFromObject .. => "INTERFACE_REMOVED_FROM_OBJECT"
  | requiredArgAdded .. => "REQUIRED_ARG_ADDED"
  | requiredInputFieldAdded .. => "REQUIRED_INPUT_FIELD_ADDED"
  | typeChangedKind .. => "TYPE_CHANGED_KIND"
  | typeRemoved _ => "TYPE_REMOVED"
  | typeRemovedFromUnion .. => "TYPE_REMOVED_FROM_UNION"
  | valueRemovedFromEnum .. => "VALUE_REMOVED_FROM_ENUM"

def description : Breaking → String
  | argChangedKind owner field arg old new =>
    s!"{owner}.{field} arg {arg} has changed type from {old.text} to {new.text}."
  | argRemoved owner field arg => s!"{owner}.{field} arg {arg} was removed."
  | fieldChangedKind owner field old new =>
    s!"{owner}.{field} changed type from {old.text} to {new.text}."
  | fieldRemoved owner field => s!"{owner}.{field} was removed."
  | interfaceRemovedFromObject owner interface =>
    s!"{owner} no longer implements interface {interface}."
  | requiredArgAdded owner field arg => s!"A required arg {arg} on {owner}.{field} was added."
  | requiredInputFieldAdded owner field =>
    s!"A required field {field} on input type {owner} was added."
  | typeChangedKind name old new => s!"{name} changed from {phrase old} to {phrase new}."
  | typeRemoved name => s!"{name} was removed."
  | typeRemovedFromUnion owner member => s!"{member} was removed from union type {owner}."
  | valueRemovedFromEnum owner value => s!"{value} was removed from enum type {owner}."

end Breaking

namespace Dangerous

def code : Dangerous → String
  | interfaceAddedToObject .. => "INTERFACE_ADDED_TO_OBJECT"
  | optionalArgAdded .. => "OPTIONAL_ARG_ADDED"
  | optionalInputFieldAdded .. => "OPTIONAL_INPUT_FIELD_ADDED"
  | typeAddedToUnion .. => "TYPE_ADDED_TO_UNION"
  | valueAddedToEnum .. => "VALUE_ADDED_TO_ENUM"

def description : Dangerous → String
  | interfaceAddedToObject owner interface =>
    s!"{interface} added to interfaces implemented by {owner}."
  | optionalArgAdded owner field arg => s!"An optional arg {arg} on {owner}.{field} was added."
  | optionalInputFieldAdded owner field =>
    s!"An optional field {field} on input type {owner} was added."
  | typeAddedToUnion owner member => s!"{member} was added to union type {owner}."
  | valueAddedToEnum owner value => s!"{value} was added to enum type {owner}."

end Dangerous

end SchemaBridge.Changes
