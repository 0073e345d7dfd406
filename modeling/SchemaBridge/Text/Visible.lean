import SchemaBridge.Text.Extending
import SchemaBridge.Text.Unassigned
/-!
# Visible characters

A character is visible if it leaves a mark of its own where it stands. The space counts as visible.
Not visible are control and format characters, all other separators, letters that only fill a place,
private and unassigned code points, and the characters that extend the one before.
-/
namespace SchemaBridge.Text

/-- The inclusive ranges, from U+007F on, of the general categories `Cc`, `Cf`, `Co`, `Zl`, `Zp` and
`Zs` of Unicode 17, and of letters with the property `Default_Ignorable_Code_Point`. -/
def hiddenRanges : Ranges :=
  [(0x7F, 0xA0), (0xAD, 0xAD), (0x600, 0x605), (0x61C, 0x61C), (0x6DD, 0x6DD), (0x70F, 0x70F),
   (0x890, 0x891), (0x8E2, 0x8E2), (0x115F, 0x1160), (0x1680, 0x1680), (0x180E, 0x180E),
   (0x2000, 0x200F), (0x2028, 0x202F), (0x205F, 0x2064), (0x2066, 0x206F), (0x3000, 0x3000),
   (0x3164, 0x3164), (0xE000, 0xF8FF), (0xFEFF, 0xFEFF), (0xFFA0, 0xFFA0), (0xFFF9, 0xFFFB),
   (0x110BD, 0x110BD), (0x110CD, 0x110CD), (0x13430, 0x1343F), (0x1BCA0, 0x1BCA3),
   (0x1D173, 0x1D17A), (0xE0001, 0xE0001), (0xE0020, 0xE007F), (0xF0000, 0xFFFFD),
   (0x100000, 0x10FFFD)]

def isVisible (c : Char) : Bool :=
  if c.toNat < 0x7F then 0x20 ≤ c.toNat
  else !inRanges hiddenRanges c && !inRanges extendingRanges c && !inRanges unassignedRanges c

end SchemaBridge.Text
