import SchemaBridge.Decimal.Binary64
/-!
# Decimal numerals

A numeral is written as an optional minus, digits, and optionally a point with digits and an
exponent. `split?` takes such a text apart and `toBinary64` is the nearest floating point number.
-/
namespace SchemaBridge.Decimal

/-- The digits of a numeral as written, without its marks. -/
structure Numeral where
  negative : Bool
  whole : List Char
  fraction : List Char
  exponentNegative : Bool
  exponent : List Char
deriving DecidableEq, Repr

def digitValue (c : Char) : Nat := c.toNat - '0'.toNat

/-- The number that decimal digits denote; no digits denote zero. -/
def natOf (ds : List Char) : Nat := ds.foldl (fun n c => 10 * n + digitValue c) 0

/-- The number that a text of one or more decimal digits denotes. -/
def nat? (ds : List Char) : Option Nat :=
  if ds ≠ [] ∧ ds.all Char.isDigit then some (natOf ds) else none

/-- The number that a text of decimal digits denotes if it fits `bits` binary digits. -/
def natBelow? (bits : Nat) (ds : List Char) : Option Nat :=
  (nat? ds).filter (· < Nat.pow 2 bits)

namespace Numeral

/-- Splits off a leading minus. -/
def sign : List Char → Bool × List Char
  | '-' :: cs => (true, cs)
  | cs => (false, cs)

/-- Splits off a leading plus or minus. -/
def anySign : List Char → Bool × List Char
  | '-' :: cs => (true, cs)
  | '+' :: cs => (false, cs)
  | cs => (false, cs)

/-- Takes a numeral apart. A part that is announced by its mark needs at least one digit. -/
def split? (t : List Char) : Option Numeral :=
  let (negative, t) := sign t
  let whole := t.takeWhile Char.isDigit
  let t := t.dropWhile Char.isDigit
  let (fraction, fractionOk, t) := match t with
    | '.' :: cs =>
      let ds := cs.takeWhile Char.isDigit
      (ds, !ds.isEmpty, cs.dropWhile Char.isDigit)
    | _ => ([], true, t)
  let (exponentNegative, exponent, exponentOk, t) := match t with
    | [] => (false, [], true, [])
    | c :: cs =>
      if c = 'e' ∨ c = 'E' then
        let (s, cs) := anySign cs
        let ds := cs.takeWhile Char.isDigit
        (s, ds, !ds.isEmpty, cs.dropWhile Char.isDigit)
      else (false, [], false, t)
  if !whole.isEmpty && fractionOk && exponentOk && t.isEmpty then
    some ⟨negative, whole, fraction, exponentNegative, exponent⟩
  else none

/-- All digits before the exponent, as one number. -/
def significand (n : Numeral) : Nat := natOf (n.whole ++ n.fraction)

/-- The power of ten that the significand is multiplied by. -/
def scale (n : Numeral) : Int :=
  (if n.exponentNegative then -(natOf n.exponent : Int) else (natOf n.exponent : Int))
    - (n.fraction.length : Int)

/-- The nearest floating point number. A magnitude of `10 ^ 310` or more is infinite and one below
`10 ^ -330` is zero, so that no greater power is ever computed. -/
def toBinary64 (n : Numeral) : Binary64 :=
  let s := n.significand
  let top : Int := ((Nat.toDigits 10 s).length : Int) + n.scale
  if s = 0 ∨ top < -330 then .finite n.negative 0 0
  else if 310 < top then .infinite n.negative
  else if 0 ≤ n.scale then Binary64.ofRatio n.negative (s * Nat.pow 10 n.scale.toNat) 1
  else Binary64.ofRatio n.negative s (Nat.pow 10 (-n.scale).toNat)

end Numeral

end SchemaBridge.Decimal
