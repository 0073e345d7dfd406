/-!
# Ranges of characters

A property of characters as a table: inclusive ranges of code points, each behind the one before.
-/
namespace SchemaBridge.Text

/-- Inclusive ranges of code points. -/
abbrev Ranges := List (Nat × Nat)

/-- Whether a character lies in one of the ranges. -/
def inRanges (rs : Ranges) (c : Char) : Bool :=
  rs.any fun r => r.1 ≤ c.toNat && c.toNat ≤ r.2

end SchemaBridge.Text
