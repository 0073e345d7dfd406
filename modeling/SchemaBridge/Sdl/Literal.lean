import SchemaBridge.Decimal.Numeral
import SchemaBridge.Sdl.Definition
import SchemaBridge.Sdl.Token
import SchemaBridge.Text.Blank
import SchemaBridge.Text.Hex
import SchemaBridge.Text.Lines
/-!
# What literals stand for

The text of a number or a string becomes a value when the parser uses it. An integer has 64 bits. In
a string, `\b` is U+0010, and `\u` takes four characters that are a hexadecimal number, a leading plus
sign allowed.

The value of a block string is cut into lines, loses blank lines at both ends, and all lines but the
first lose the indentation they share. Indentation is counted in bytes: where it would end inside a
character, there is no value at all, which is a failure of its own.
-/
namespace SchemaBridge.Sdl.Literal

open Text (Line byteLength)

/-- Why a literal has no value. -/
inductive Failure where
  | malformed
  | splitCharacter
deriving DecidableEq, Repr

/-! ## Numbers -/

/-- A signed integer of 64 bits. -/
def int? (t : List Char) : Option Int :=
  match t with
  | '-' :: ds => (Decimal.nat? ds).bind fun n => if n ≤ Nat.pow 2 63 then some (-(n : Int)) else none
  | ds => (Decimal.nat? ds).bind fun n => if n < Nat.pow 2 63 then some (n : Int) else none

def float? (t : List Char) : Option Decimal.Binary64 :=
  (Decimal.Numeral.split? t).map Decimal.Numeral.toBinary64

/-! ## Strings -/

/-- A hexadecimal number with at least one digit, after an optional plus sign. -/
def hex? (t : List Char) : Option Nat :=
  let ds := match t with
    | '+' :: cs => cs
    | cs => cs
  if ds.isEmpty then none else Text.Hex.number? ds

/-- The character with a code point, which must not be a surrogate. -/
def char? (n : Nat) : Option Char := if n.isValidChar then some (Char.ofNat n) else none

/-- The value of what stands between the quotation marks of a string. -/
def unescape? : List Char → Option (List Char)
  | [] => some []
  | '\\' :: 'u' :: a :: b :: c :: d :: cs => do
    let n ← hex? [a, b, c, d]
    let c ← char? n
    let cs ← unescape? cs
    pure (c :: cs)
  | '\\' :: c :: cs => do
    let c ← match c with
      | '"' => some '"'
      | '\\' => some '\\'
      | '/' => some '/'
      | 'b' => some '\x10'
      | 'f' => some '\x0c'
      | 'n' => some '\n'
      | 'r' => some '\r'
      | 't' => some '\t'
      | _ => none
    let cs ← unescape? cs
    pure (c :: cs)
  | ['\\'] => none
  | c :: cs => (unescape? cs).map (c :: ·)

/-! ## Block strings -/

/-- A line without a carriage return at its end. -/
def dropReturn (l : Line) : Line := if l.getLast? = some '\r' then l.dropLast else l

/-- The lines of a block string; a carriage return goes where a newline follows it. -/
def blockLines (t : List Char) : List Line :=
  let ls := Text.lines t
  ls.dropLast.map dropReturn ++ (ls.getLast?).toList

/-- The bytes of blanks at the start of a line. -/
def leadingBytes (l : Line) : Nat := byteLength (l.takeWhile Text.isBlank)

/-- The indentation that the lines share, blank lines aside; none if all are blank. -/
def sharedBytes (ls : List Line) : Nat :=
  (((ls.filter fun l => !Text.allBlank l).map leadingBytes).min?).getD 0

/-- What is left of a text behind so many bytes, unless they end inside a character. -/
def dropBytes? : Nat → List Char → Option (List Char)
  | 0, t => some t
  | _ + 1, [] => some []
  | n + 1, c :: cs => if c.utf8Size ≤ n + 1 then dropBytes? (n + 1 - c.utf8Size) cs else none

/-- A line without the shared indentation; a line with fewer bytes stays as it is. -/
def dedent? (n : Nat) (l : Line) : Option Line :=
  if n ≤ byteLength l then dropBytes? n l else some l

/-- Three quotation marks without the backslash before them. -/
def unescapeQuotes : List Char → List Char
  | '\\' :: '"' :: '"' :: '"' :: cs => '"' :: '"' :: '"' :: unescapeQuotes cs
  | c :: cs => c :: unescapeQuotes cs
  | [] => []

/-- Without the blank lines at both ends; each line comes with the bytes it is to lose. -/
def dropBlankEnds (ls : List (Nat × Line)) : List (Nat × Line) :=
  ((ls.dropWhile fun l => Text.allBlank l.2).reverse.dropWhile fun l => Text.allBlank l.2).reverse

/-- The value of what stands between the marks of a block string, unless a character would be cut. -/
def block? (t : List Char) : Option (List Char) :=
  match blockLines t with
  | [] => some []
  | first :: others =>
    let n := sharedBytes others
    let kept := dropBlankEnds ((0, first) :: others.map (n, ·))
    (kept.mapM fun l => dedent? l.1 l.2).map fun ls => unescapeQuotes (Text.unlines ls)

/-- The value of a string of either kind. -/
def string? (l : Lexeme) : Except Failure String :=
  match l.kind with
  | .blockString =>
    match block? ((l.text.drop 3).take (l.text.length - 6)) with
    | some t => .ok (String.ofList t)
    | none => .error .splitCharacter
  | _ =>
    match unescape? ((l.text.drop 1).take (l.text.length - 2)) with
    | some t => .ok (String.ofList t)
    | none => .error .malformed

end SchemaBridge.Sdl.Literal
