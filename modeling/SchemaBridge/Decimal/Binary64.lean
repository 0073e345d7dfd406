/-!
# Binary floating point of 64 bits

A finite number is a sign and `mantissa * 2 ^ exponent` with `mantissa < 2 ^ 53` and
`-1074 ≤ exponent ≤ 971`; beyond that range lies infinity. `ofRatio` rounds a quotient of natural
numbers to the nearest such number, a half to the even mantissa, in exact arithmetic.

Results:
* `roundDiv_exact`: a quotient without remainder is kept.
* `roundDiv_near`: rounding moves a quotient by half a unit at most.
-/
namespace SchemaBridge.Decimal

/-- A binary floating point number other than NaN. -/
inductive Binary64 where
  | finite (negative : Bool) (mantissa : Nat) (exponent : Int)
  | infinite (negative : Bool)
deriving DecidableEq, Repr

/-- The natural number nearest to `num / den`; a half goes to the even neighbour. -/
def roundDiv (num den : Nat) : Nat :=
  let q := num / den
  let r := num % den
  if 2 * r < den then q
  else if den < 2 * r then q + 1
  else if q % 2 = 0 then q else q + 1

theorem roundDiv_exact (q : Nat) {den : Nat} (h : 0 < den) : roundDiv (q * den) den = q := by
  simp [roundDiv, Nat.mul_div_cancel q h, h]

theorem roundDiv_near (num : Nat) {den : Nat} (h : 0 < den) :
    2 * num ≤ (2 * roundDiv num den + 1) * den ∧ 2 * roundDiv num den * den ≤ 2 * num + den := by
  have hq : den * (num / den) + num % den = num := Nat.div_add_mod num den
  have hr := Nat.mod_lt num h
  have e : ∀ a : Nat, 2 * a * den = 2 * (den * a) := fun a => by
    rw [Nat.mul_assoc, Nat.mul_comm a den]
  simp only [roundDiv]
  split
  · rw [Nat.add_mul, e]; omega
  · split
    · rw [Nat.add_mul, e, Nat.mul_add]; omega
    · split
      · rw [Nat.add_mul, e]; omega
      · rw [Nat.add_mul, e, Nat.mul_add]; omega

/-- `num / den` divided by `2 ^ e`, as a quotient again. -/
def scaleDown (num den : Nat) (e : Int) : Nat × Nat :=
  if 0 ≤ e then (num, den * Nat.pow 2 e.toNat) else (num * Nat.pow 2 (-e).toNat, den)

namespace Binary64

/-- The least exponent, that of the numbers nearest to zero. -/
def minExponent : Int := -1074

/-- The greatest exponent of a finite number. -/
def maxExponent : Int := 971

/-- The exponent at which `num / den` has 53 binary digits before the point, or the least
exponent if that is greater. -/
def exponentOf (num den : Nat) : Int :=
  let guess : Int := (num.log2 : Int) - (den.log2 : Int) - 53
  let (n, d) := scaleDown num den guess
  max minExponent (if Nat.pow 2 53 ≤ n / d then guess + 1 else guess)

/-- The number nearest to `num / den`. -/
def ofRatio (negative : Bool) (num den : Nat) : Binary64 :=
  if num = 0 then .finite negative 0 0
  else
    let e := exponentOf num den
    let (n, d) := scaleDown num den e
    let m := roundDiv n d
    let (m, e) := if m = Nat.pow 2 53 then (Nat.pow 2 52, e + 1) else (m, e)
    if maxExponent < e then .infinite negative else .finite negative m e

def isInfinite : Binary64 → Bool
  | .infinite _ => true
  | .finite .. => false

end Binary64

end SchemaBridge.Decimal
