import SchemaBridge.Decimal.Numeral
/-!
# Numerals beyond range

A quick reading of a numeral takes as many of its leading digits as fit 64 bits, and multiplies their
number by a power of ten. Both factors are rounded before they are multiplied, and so is the product,
which near the end of the range makes it infinite where the nearest number to the numeral is not.

Results:
* `leading_lt`: the number of the leading digits fits 64 bits.
-/
namespace SchemaBridge.Decimal

namespace Binary64

/-- The number nearest to a natural number. -/
def ofNat (n : Nat) : Binary64 := ofRatio false n 1

/-- The rounded product of two numbers; infinite if one of them is. -/
def mul : Binary64 → Binary64 → Binary64
  | .finite s m e, .finite t n f =>
    let (num, den) := scaleDown (m * n) 1 (-(e + f))
    ofRatio (s != t) num den
  | .finite s .., .infinite t => .infinite (s != t)
  | .infinite s, .finite t .. => .infinite (s != t)
  | .infinite s, .infinite t => .infinite (s != t)

end Binary64

/-- A number extended by leading digits as long as it fits 64 bits, and how many digits are left. -/
def leading (n : Nat) : List Char → Nat × Nat
  | [] => (n, 0)
  | c :: cs =>
    if 10 * n + digitValue c < Nat.pow 2 64 then leading (10 * n + digitValue c) cs
    else (n, cs.length + 1)

theorem leading_lt {n : Nat} (h : n < Nat.pow 2 64) (ds : List Char) :
    (leading n ds).1 < Nat.pow 2 64 := by
  induction ds generalizing n with
  | nil => exact h
  | cons c cs ih =>
    rw [leading]; split
    · next hlt => exact ih hlt
    · exact h

namespace Numeral

/-- The leading digits as a number, and the power of ten that makes the numeral of it. Digits left
before the point raise the power; those taken behind it lower it. -/
def leadingParts (n : Numeral) : Nat × Int :=
  let (whole, left) := leading 0 n.whole
  let (digits, unread) := leading whole n.fraction
  let exponent : Int := natOf n.exponent
  (digits, (if n.exponentNegative then -exponent else exponent) + left
    - (n.fraction.length - unread : Nat))

/-- Whether a quick reading is infinite. Powers of ten above the 308th have no finite number. -/
def overflows (n : Numeral) : Bool :=
  let (digits, power) := n.leadingParts
  digits ≠ 0 && 0 ≤ power
    && (308 < power || (Binary64.mul (.ofNat digits) (.ofNat (Nat.pow 10 power.toNat))).isInfinite)

end Numeral

end SchemaBridge.Decimal
