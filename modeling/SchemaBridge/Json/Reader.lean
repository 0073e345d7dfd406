import SchemaBridge.Json.Value
import SchemaBridge.Decimal.Overflow
import SchemaBridge.Text.Hex
/-!
# Reading JSON

The grammar is strict: no comments, no trailing commas, no raw control characters in strings, no
leading zeros. `Checks` are what is refused beyond the grammar: nesting that is too deep, numerals
without a finite value, and escapes of lone surrogates. `readMembers` lets the checks of a value in
the outermost object depend on its key, so that a member nobody asks for can be passed over on
its grammar alone.

The functions on values take fuel, twice the number of characters and two more. A bracket costs two
calls and any other character at most one, so that the text always ends first.
-/
namespace SchemaBridge.Json

/-- What is refused beyond the grammar. -/
structure Checks where
  /-- The levels of arrays and objects that may still be opened. -/
  levels : Option Nat
  /-- Refuse numerals beyond the finite numbers and lone surrogates. -/
  values : Bool
deriving Repr

namespace Checks

/-- Every check, with so many levels of nesting. -/
def within (levels : Nat) : Checks := ⟨some levels, true⟩

/-- The grammar alone. -/
def grammarOnly : Checks := ⟨none, false⟩

/-- All values are checked, at any depth. -/
def anyDepth : Checks := ⟨none, true⟩

/-- The checks one level further in, if there may be one. -/
def inner? (c : Checks) : Option Checks :=
  match c.levels with
  | none => some c
  | some 0 => none
  | some (n + 1) => some { c with levels := some n }

end Checks

/-- What is left of the text after a value. -/
abbrev Rest := List Char

def isSpace (c : Char) : Bool := c = ' ' || c = '\t' || c = '\n' || c = '\r'

def skipSpace (t : List Char) : Rest := t.dropWhile isSpace

/-- The rest after a text that has to come next. -/
def expect? : List Char → List Char → Option Rest
  | [], t => some t
  | c :: cs, d :: ds => if c = d then expect? cs ds else none
  | _ :: _, [] => none

/-- Four hexadecimal digits. -/
def unit? : List Char → Option (Nat × Rest)
  | a :: b :: c :: d :: t => (Text.Hex.number? [a, b, c, d]).map (·, t)
  | _ => none

def isHighSurrogate (n : Nat) : Bool := 0xD800 ≤ n && n < 0xDC00

def isLowSurrogate (n : Nat) : Bool := 0xDC00 ≤ n && n < 0xE000

/-- The character behind `\u`: four digits, or twice four for a pair of surrogates. Where lone
surrogates pass, the replacement character stands for one. -/
def unicodeEscape? (checks : Checks) (t : List Char) : Option (Char × Rest) := do
  let (n, t) ← unit? t
  if isHighSurrogate n then
    let pair : Option (Char × Rest) := do
      let t ← expect? ['\\', 'u'] t
      let (m, t) ← unit? t
      if isLowSurrogate m then
        pure (Char.ofNat (0x10000 + (n - 0xD800) * 0x400 + (m - 0xDC00)), t)
      else none
    match pair with
    | some p => pure p
    | none => if checks.values then none else pure ('\uFFFD', t)
  else if isLowSurrogate n then
    if checks.values then none else pure ('\uFFFD', t)
  else pure (Char.ofNat n, t)

/-- The character behind a backslash. -/
def escape? (checks : Checks) : List Char → Option (Char × Rest)
  | '"' :: t => some ('"', t)
  | '\\' :: t => some ('\\', t)
  | '/' :: t => some ('/', t)
  | 'b' :: t => some ('\x08', t)
  | 'f' :: t => some ('\x0c', t)
  | 'n' :: t => some ('\n', t)
  | 'r' :: t => some ('\r', t)
  | 't' :: t => some ('\t', t)
  | 'u' :: t => unicodeEscape? checks t
  | _ => none

/-- The characters of a string up to its closing quotation mark. -/
def stringBody? (checks : Checks) : Nat → List Char → Option (List Char × Rest)
  | 0, _ => none
  | _ + 1, [] => none
  | fuel + 1, c :: t =>
    if c = '"' then some ([], t)
    else if c = '\\' then do
      let (c, t) ← escape? checks t
      let (cs, t) ← stringBody? checks fuel t
      pure (c :: cs, t)
    else if c.toNat < 0x20 then none
    else do
      let (cs, t) ← stringBody? checks fuel t
      pure (c :: cs, t)

/-- A string, its opening quotation mark included. -/
def string? (checks : Checks) (fuel : Nat) (t : List Char) : Option (String × Rest) := do
  let t ← expect? ['"'] t
  let (cs, t) ← stringBody? checks fuel t
  pure (String.ofList cs, t)

def isNumeralChar (c : Char) : Bool :=
  c.isDigit || c = '-' || c = '+' || c = '.' || c = 'e' || c = 'E'

/-- The value of a numeral that follows the grammar: no zero in front of other digits. -/
def numeral? (checks : Checks) (t : List Char) : Option Value := do
  let n ← Decimal.Numeral.split? t
  if 1 < n.whole.length ∧ n.whole.head? = some '0' then none
  else if checks.values && n.overflows then none
  else match Decimal.natBelow? 64 t with
    | some k => pure (.natural k)
    | none => pure (.numeral (String.ofList t))

mutual

/-- A value at the front of a text. -/
def value? (checks : Checks) : Nat → List Char → Option (Value × Rest)
  | 0, _ => none
  | fuel + 1, t =>
    match t with
    | [] => none
    | 'n' :: _ => (expect? ['n', 'u', 'l', 'l'] t).map (.null, ·)
    | 't' :: _ => (expect? ['t', 'r', 'u', 'e'] t).map (.bool true, ·)
    | 'f' :: _ => (expect? ['f', 'a', 'l', 's', 'e'] t).map (.bool false, ·)
    | '"' :: _ => (string? checks fuel t).map fun r => (.string r.1, r.2)
    | '[' :: t => do
      let checks ← checks.inner?
      match skipSpace t with
      | ']' :: t => pure (.array [], t)
      | t =>
        let (vs, t) ← elements? checks fuel t
        pure (.array vs, t)
    | '{' :: t => do
      let checks ← checks.inner?
      match skipSpace t with
      | '}' :: t => pure (.object [], t)
      | t =>
        let (ms, t) ← members? checks (fun _ => checks) fuel t
        pure (.object ms, t)
    | t => do
      let v ← numeral? checks (t.takeWhile isNumeralChar)
      pure (v, t.dropWhile isNumeralChar)

/-- One or more elements and the closing bracket. -/
def elements? (checks : Checks) : Nat → List Char → Option (List Value × Rest)
  | 0, _ => none
  | fuel + 1, t => do
    let (v, t) ← value? checks fuel (skipSpace t)
    match skipSpace t with
    | ']' :: t => pure ([v], t)
    | ',' :: t =>
      let (vs, t) ← elements? checks fuel t
      pure (v :: vs, t)
    | _ => none

/-- One or more members and the closing brace, the checks of a value depending on its key. -/
def members? (keyChecks : Checks) (valueChecks : String → Checks) :
    Nat → List Char → Option (List (String × Value) × Rest)
  | 0, _ => none
  | fuel + 1, t => do
    let (k, t) ← string? keyChecks fuel (skipSpace t)
    let t ← expect? [':'] (skipSpace t)
    let (v, t) ← value? (valueChecks k) fuel (skipSpace t)
    match skipSpace t with
    | '}' :: t => pure ([(k, v)], t)
    | ',' :: t =>
      let (ms, t) ← members? keyChecks valueChecks fuel t
      pure ((k, v) :: ms, t)
    | _ => none

end

/-- The value of a text that holds one value and nothing else but space around it. -/
def read? (checks : Checks) (text : String) : Option Value := do
  let t := skipSpace text.toList
  let (v, t) ← value? checks (2 * t.length + 2) t
  if (skipSpace t).isEmpty then pure v else none

/-- As `read?`, but in an object at the outside only the values of the keys that `known` accepts
are checked; the others need to follow the grammar only. -/
def readMembers? (checks : Checks) (known : String → Bool) (text : String) : Option Value :=
  match skipSpace text.toList with
  | '{' :: t => do
    let inner ← checks.inner?
    let (v, t) ← match skipSpace t with
      | '}' :: t => pure (Value.object [], t)
      | t => do
        let (ms, t) ← members? inner (fun k => if known k then inner else .grammarOnly)
          (2 * t.length + 2) t
        pure (Value.object ms, t)
    if (skipSpace t).isEmpty then pure v else none
  | _ => read? checks text

end SchemaBridge.Json
