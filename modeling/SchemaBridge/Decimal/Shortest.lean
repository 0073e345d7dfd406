import SchemaBridge.Decimal.Binary64
/-!
# The shortest decimal of a floating point number

The reals that round to a number form an interval, with its ends if the mantissa is even. On each
grid of multiples of a power of ten only the two neighbours of the number matter; the coarsest grid
that meets the interval wins, of two hits the nearer, and of two equally near hits the greater.
`Binary64.text` writes it positionally, without an exponent and without a point that nothing follows.
-/
namespace SchemaBridge.Decimal

/-- The interval of reals that round to a positive number, every bound times `unit` and
divided by `den`. -/
structure Rounding where
  low : Nat
  value : Nat
  high : Nat
  den : Nat
  closed : Bool
deriving Repr

/-- The interval around `mantissa * 2 ^ exponent`. Below a power of two the numbers lie twice as
dense, so that the interval is shorter there. -/
def Rounding.around (mantissa : Nat) (exponent : Int) : Rounding :=
  let below := if mantissa = Nat.pow 2 52 ∧ Binary64.minExponent < exponent then 1 else 2
  let e := exponent - 2
  let unit := if 0 ≤ e then Nat.pow 2 e.toNat else 1
  let den := if 0 ≤ e then 1 else Nat.pow 2 (-e).toNat
  ⟨(4 * mantissa - below) * unit, 4 * mantissa * unit, (4 * mantissa + 2) * unit, den,
    mantissa % 2 = 0⟩

/-- Whether `num / den` lies in the interval. -/
def Rounding.holds (r : Rounding) (num den : Nat) : Bool :=
  let x := num * r.den
  if r.closed then r.low * den ≤ x && x ≤ r.high * den
  else r.low * den < x && x < r.high * den

/-- The multiple of `10 ^ p` in the interval that is nearest to the number, divided by `10 ^ p`. -/
def Rounding.onGrid? (r : Rounding) (p : Int) : Option Nat :=
  let num := if 0 ≤ p then Nat.pow 10 p.toNat else 1
  let den := if 0 ≤ p then 1 else Nat.pow 10 (-p).toNat
  let d := (r.value * den) / (r.den * num)
  let inside := fun d => r.holds (d * num) den
  let upIsNearer := 2 * (r.value * den) ≥ (2 * d + 1) * (r.den * num)
  if inside d && inside (d + 1) then some (if upIsNearer then d + 1 else d)
  else if inside (d + 1) then some (d + 1)
  else if inside d then some d
  else none

/-- The first hit on the grids `10 ^ p`, `10 ^ (p - 1)` and so on. -/
def Rounding.search (r : Rounding) : Nat → Int → Nat × Int
  | 0, p => (0, p)
  | n + 1, p =>
    match r.onGrid? p with
    | some d => (d, p)
    | none => r.search n (p - 1)

/-- The digits and the power of ten of the shortest decimal of a positive number. The search ends
at the latest on the grid that the number itself lies on. -/
def shortest (mantissa : Nat) (exponent : Int) : Nat × Int :=
  let r := Rounding.around mantissa exponent
  let top := (Nat.toDigits 10 (r.value / r.den)).length
  r.search (top + 1075) top

/-- `digits * 10 ^ power` written with a point only where digits follow it. -/
def positional (digits : Nat) (power : Int) : List Char :=
  let ds := Nat.toDigits 10 digits
  if 0 ≤ power then ds ++ List.replicate power.toNat '0'
  else
    let places := (-power).toNat
    if places < ds.length then ds.take (ds.length - places) ++ '.' :: ds.drop (ds.length - places)
    else '0' :: '.' :: List.replicate (places - ds.length) '0' ++ ds

/-- The shortest decimal text that reads back as the number. -/
def Binary64.text : Binary64 → List Char
  | .infinite negative => (if negative then ['-'] else []) ++ ['i', 'n', 'f']
  | .finite negative m e =>
    let body := if m = 0 then ['0'] else
      let s := shortest m e
      positional s.1 s.2
    (if negative then ['-'] else []) ++ body

end SchemaBridge.Decimal
