import SchemaBridge.Text.Blank
/-!
# Policies

A conversion meets constructs that the other side cannot express. A policy says what becomes of
such a loss: nothing, a warning, or the end of the conversion.

Results:
* `ofText?_text`: the word of a policy reads back as that policy.
-/
namespace SchemaBridge

inductive Policy where
  | ignore
  | warn
  | error
deriving DecidableEq, Repr

namespace Policy

/-- The word for a policy. -/
def text : Policy → String
  | .ignore => "ignore"
  | .warn => "warn"
  | .error => "error"

/-- The policy that a word stands for, blanks around it aside; otherwise the word that stands for none. -/
def ofText? (s : String) : Except String Policy :=
  let word := Text.trimString s
  if word = "ignore" then .ok .ignore
  else if word = "warn" then .ok .warn
  else if word = "error" then .ok .error
  else .error word

/-- What is said of a word that stands for no policy. -/
def unknownText (word : String) : String :=
  s!"Invalid unsupported-type policy `{word}`: expected one of `ignore`, `warn` or `error`"

theorem ofText?_text (p : Policy) : ofText? p.text = .ok p := by
  cases p <;> rfl

end Policy

end SchemaBridge
