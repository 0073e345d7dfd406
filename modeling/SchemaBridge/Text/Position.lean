/-!
# Positions in a text

A position names a place by line and column, both counted from one.
-/
namespace SchemaBridge.Text

/-- A line and a column, the first line and the first column being 1. -/
structure Position where
  line : Nat
  column : Nat
deriving DecidableEq, Repr, Inhabited

namespace Position

/-- The first character of a text. -/
def start : Position := ⟨1, 1⟩

/-- The beginning of the line below. -/
def nextLine (p : Position) : Position := ⟨p.line + 1, 1⟩

/-- The position `n` columns to the right. -/
def right (p : Position) (n : Nat) : Position := ⟨p.line, p.column + n⟩

/-- The position after a text that starts at `p`: every character takes a column, and a newline
begins a line. -/
def after (p : Position) : List Char → Position
  | [] => p
  | c :: cs => if c = '\n' then p.nextLine.after cs else (p.right 1).after cs

end Position

end SchemaBridge.Text
