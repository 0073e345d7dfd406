import SchemaBridge.Sdl.Definition
/-!
# Compatible types

An output type may come to promise more: `null` may be excluded where it was not. An input type may
come to demand less. Names never change, and lists stay lists.

Results:
* `safeOutput_refl`, `safeInput_refl`: a type is compatible with itself.
-/
namespace SchemaBridge.Changes

open Sdl (TypeRef InputValue)

/-- Whether a field of the old type may come to have the new type. -/
def safeOutput : (old new : TypeRef) → Bool
  | .list old, .list new => safeOutput old new
  | .list old, .nonNull new => safeOutput (.list old) new
  | .list _, .named _ => false
  | .nonNull old, .nonNull new => safeOutput old new
  | .nonNull _, _ => false
  | .named old, .named new => old == new
  | .named old, .nonNull new => safeOutput (.named old) new
  | .named _, .list _ => false
termination_by structural _ new => new

/-- Whether an argument or input field of the old type may come to have the new type. -/
def safeInput : (old new : TypeRef) → Bool
  | .list old, .list new => safeInput old new
  | .list _, _ => false
  | .nonNull old, .nonNull new => safeInput old new
  | .nonNull old, new => safeInput old new
  | .named old, .named new => old == new
  | .named _, _ => false
termination_by structural old _ => old

theorem safeOutput_refl (t : TypeRef) : safeOutput t t = true := by
  induction t with
  | named n => simp [safeOutput]
  | list t ih => simpa [safeOutput] using ih
  | nonNull t ih => simpa [safeOutput] using ih

theorem safeInput_refl (t : TypeRef) : safeInput t t = true := by
  induction t with
  | named n => simp [safeInput]
  | list t ih => simpa [safeInput] using ih
  | nonNull t ih => simpa [safeInput] using ih

/-- Whether a value has to be given for an argument or an input field. -/
def isRequired (v : InputValue) : Bool := v.type.isRequired && v.default.isNone

end SchemaBridge.Changes
