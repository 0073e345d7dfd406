/-!
# Locations

Where a node stood in the source it was read from. Either end of a location may be unknown, and an
end is an offset or a line and a column together with the offset they amount to.
-/
namespace SchemaBridge.Model

inductive Position where
  | offset (n : Nat)
  | point (line column offset : Nat)
deriving DecidableEq, Repr

structure Location where
  start : Option Position := none
  stop : Option Position := none
deriving DecidableEq, Repr, Inhabited

namespace Location

/-- A location that says nothing. -/
def unknown : Location := {}

def ofOffsets (start stop : Nat) : Location := ⟨some (.offset start), some (.offset stop)⟩

def isEmpty (l : Location) : Bool := l.start.isNone && l.stop.isNone

theorem isEmpty_iff {l : Location} : l.isEmpty = true ↔ l = unknown := by
  cases l; simp [isEmpty, unknown]

end Location

end SchemaBridge.Model
