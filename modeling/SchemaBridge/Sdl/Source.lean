import SchemaBridge.Model.Location
import SchemaBridge.Text.Lines
import SchemaBridge.Text.Position
/-!
# Source texts

The offset of a position in a source is its column plus the bytes of all lines above it; newlines
do not count. A source keeps the sizes of its lines beside its text, so that an offset is a sum of
numbers.
-/
namespace SchemaBridge.Sdl

open Text (Position)

/-- The number of bytes in every line of a text. -/
def lineSizes (text : String) : List Nat := (Text.lines text.toList).map Text.byteLength

structure Source where
  text : String
  sizes : List Nat
  sizes_eq : sizes = lineSizes text

namespace Source

def ofText (text : String) : Source := ⟨text, lineSizes text, rfl⟩

/-- The number of bytes in the lines above, plus the column. -/
def offset (s : Source) (p : Position) : Nat :=
  (s.sizes.take (p.line - 1)).foldr (· + ·) p.column

/-- A position as the start of a location. -/
def locate (s : Source) (p : Position) : Model.Location :=
  ⟨some (.point p.line p.column (s.offset p)), none⟩

/-- The location of the first of several positions; without any, nothing is known. -/
def locateFirst (s : Source) : List Position → Model.Location
  | [] => .unknown
  | p :: _ => s.locate p

end Source

end SchemaBridge.Sdl
