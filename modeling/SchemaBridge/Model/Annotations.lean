/-!
# Annotations

Documentation that any core type may carry: a title, a description, examples, a default value and
a comment, each of them optional text.

Results:
* `Examples.toList_ofList`: a list of examples is found again, whatever its length.
* `Examples.ofList_eq_none_iff`, `Examples.ofList_eq_one_iff`: how the length decides on the form.
-/
namespace SchemaBridge.Model

/-- One example, or a list of examples of any length. -/
inductive Examples where
  | one (text : String)
  | many (texts : List String)
deriving DecidableEq, Repr

namespace Examples

def toList : Examples → List String
  | .one e => [e]
  | .many es => es

/-- No examples are absent, and one example stands for itself. -/
def ofList : List String → Option Examples
  | [] => none
  | [e] => some (.one e)
  | es => some (.many es)

theorem toList_ofList (es : List String) : ((ofList es).map toList).getD [] = es := by
  match es with
  | [] => rfl
  | [_] => rfl
  | _ :: _ :: _ => rfl

theorem ofList_eq_none_iff {es : List String} : ofList es = none ↔ es = [] := by
  match es with
  | [] => simp [ofList]
  | [_] => simp [ofList]
  | _ :: _ :: _ => simp [ofList]

theorem ofList_eq_one_iff {es : List String} :
    (∃ e, ofList es = some (.one e)) ↔ es.length = 1 := by
  match es with
  | [] => simp [ofList]
  | [_] => simp [ofList]
  | _ :: _ :: _ => simp [ofList]

end Examples

structure Annotations where
  title : Option String := none
  description : Option String := none
  examples : Option Examples := none
  default : Option String := none
  comment : Option String := none
deriving DecidableEq, Repr, Inhabited

namespace Annotations

/-- Nothing is annotated. -/
def empty : Annotations := {}

def isEmpty (a : Annotations) : Bool :=
  a.title.isNone && a.description.isNone && a.examples.isNone && a.default.isNone && a.comment.isNone

/-- The examples in order, whichever way they are held. -/
def exampleList (a : Annotations) : List String := (a.examples.map Examples.toList).getD []

theorem isEmpty_iff {a : Annotations} : a.isEmpty = true ↔ a = empty := by
  cases a
  simp [isEmpty, empty, and_assoc]

end Annotations

end SchemaBridge.Model
