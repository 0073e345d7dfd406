import SchemaBridge.Decimal.Numeral
import SchemaBridge.Sdl.Executable
import SchemaBridge.Sdl.Source
/-!
# Where a source is at fault

The report of a fault starts with the position, written as in `Parse error at 3:14`, and quotes the
lexeme that does not fit. `positionsIn` finds all positions that a text reports in this form, those
within quoted source included.
-/
namespace SchemaBridge.Sdl

open Text (Position)

/-- What stands in front of every reported position. -/
def reportMark : List Char := "Parse error at ".toList

def reportPosition (p : Position) : List Char :=
  reportMark ++ Nat.toDigits 10 p.line ++ ':' :: Nat.toDigits 10 p.column

/-- The report of a fault; one that names no lexeme is only a position. The lines on what would have
fitted come last, hold no position and are left out. -/
def Fault.report : Fault → List Char
  | .unexpected p none => reportPosition p
  | .unexpected p (some l) =>
    reportPosition p ++ "\nUnexpected \x60".toList ++ l.text ++ '[' :: l.kind.label.toList
      ++ "]\x60\n".toList
  | .malformed p => reportPosition p
  | .splitCharacter => []

/-- The position at the front of a text: two numbers of 64 bits with a colon between them, up to
the first character that is neither a digit nor a colon. -/
def position? (t : List Char) : Option Position :=
  let run := t.takeWhile fun c => c.isDigit || c = ':'
  let line := run.takeWhile (· ≠ ':')
  match run.dropWhile (· ≠ ':') with
  | [] => none
  | _ :: column => do
    let line ← Decimal.natBelow? 64 line
    let column ← Decimal.natBelow? 64 column
    pure ⟨line, column⟩

/-- All positions that a text reports, in order; a mark without a position is passed over. -/
def positionsIn : List Char → List Position
  | [] => []
  | c :: cs =>
    if reportMark.isPrefixOf (c :: cs) then
      (position? ((c :: cs).drop reportMark.length)).toList ++ positionsIn cs
    else positionsIn cs

/-- The positions in the report of a fault. -/
def Fault.positions (f : Fault) : List Position := positionsIn f.report

/-- The location of a fault in its source. -/
def Fault.location (f : Fault) (source : Source) : Model.Location := source.locateFirst f.positions

end SchemaBridge.Sdl
