/-!
# Type references

The type of a field or an argument: a name, a list of a type, or a type without `null`.

Results:
* `strip_require`, `isRequired_require`: requiring a type wraps it once and can be undone.
* `head_requireIf`: requiring a type keeps the name in it.
-/
namespace SchemaBridge.Sdl

inductive TypeRef where
  | named (name : String)
  | list (item : TypeRef)
  | nonNull (inner : TypeRef)
deriving DecidableEq, Repr, Inhabited

namespace TypeRef

/-- The spelling of a type, as in `[String!]`. -/
def text : TypeRef → String
  | named name => name
  | list item => "[" ++ item.text ++ "]"
  | nonNull inner => inner.text ++ "!"

/-- Whether `null` is excluded. -/
def isRequired : TypeRef → Bool
  | nonNull _ => true
  | _ => false

/-- The type with `null` excluded; nothing is excluded twice. -/
def require (t : TypeRef) : TypeRef := if t.isRequired then t else nonNull t

/-- The type with `null` excluded if a condition holds. -/
def requireIf (condition : Bool) (t : TypeRef) : TypeRef := if condition then t.require else t

/-- The type below an outer exclusion of `null`. -/
def strip : TypeRef → TypeRef
  | nonNull inner => inner
  | t => t

/-- The name below all lists and exclusions of `null`. -/
def head : TypeRef → String
  | named name => name
  | list item => item.head
  | nonNull inner => inner.head

theorem isRequired_require (t : TypeRef) : t.require.isRequired = true := by
  unfold require; split
  · assumption
  · rfl

theorem strip_require {t : TypeRef} (h : t.isRequired = false) : t.require.strip = t := by
  simp [require, h, strip]

@[simp] theorem head_requireIf (condition : Bool) (t : TypeRef) :
    (t.requireIf condition).head = t.head := by
  unfold requireIf require
  repeat' split
  all_goals rfl

end TypeRef

end SchemaBridge.Sdl
