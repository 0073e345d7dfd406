/-!
# Hexadecimal digits

Digits are read in either case and written in small letters.

Results:
* `value?_digit`: a digit that is written reads back.
-/
namespace SchemaBridge.Text.Hex

def value? (c : Char) : Option Nat :=
  if '0' ≤ c ∧ c ≤ '9' then some (c.toNat - '0'.toNat)
  else if 'a' ≤ c ∧ c ≤ 'f' then some (c.toNat - 'a'.toNat + 10)
  else if 'A' ≤ c ∧ c ≤ 'F' then some (c.toNat - 'A'.toNat + 10)
  else none

/-- The number that digits denote, if all of them are digits. -/
def number? (ds : List Char) : Option Nat :=
  (ds.mapM value?).map fun ns => ns.foldl (fun n d => 16 * n + d) 0

theorem value?_digit : ∀ n : Fin 16, value? (Nat.digitChar n) = some n.val := by decide

end SchemaBridge.Text.Hex
