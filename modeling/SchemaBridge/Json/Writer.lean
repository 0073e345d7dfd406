import SchemaBridge.Json.Value
import SchemaBridge.Text.Lines
/-!
# Writing JSON

`Value.compact` writes a value on one line without blanks. `Value.pretty` gives every element and
member a line of its own, two spaces further in than what encloses it. Only the quotation mark, the
backslash and the characters below U+0020 are escaped in strings.
-/
namespace SchemaBridge.Json

/-- A character inside a string. -/
def escape (c : Char) : List Char :=
  if c = '"' then ['\\', '"']
  else if c = '\\' then ['\\', '\\']
  else if c = '\n' then ['\\', 'n']
  else if c = '\r' then ['\\', 'r']
  else if c = '\t' then ['\\', 't']
  else if c = '\x08' then ['\\', 'b']
  else if c = '\x0c' then ['\\', 'f']
  else if c.toNat < 0x20 then
    ['\\', 'u', '0', '0', (c.toNat / 16).digitChar, (c.toNat % 16).digitChar]
  else [c]

/-- A string between quotation marks. -/
def quote (s : String) : List Char := '"' :: s.toList.flatMap escape ++ ['"']

mutual

/-- The text of a value on one line. -/
def Value.compactChars : Value → List Char
  | .null => ['n', 'u', 'l', 'l']
  | .bool true => ['t', 'r', 'u', 'e']
  | .bool false => ['f', 'a', 'l', 's', 'e']
  | .natural n => Nat.toDigits 10 n
  | .numeral t => t.toList
  | .string s => quote s
  | .array vs => '[' :: compactElements vs ++ [']']
  | .object ms => '{' :: compactMembers ms ++ ['}']
termination_by structural v => v

def compactElements : List Value → List Char
  | [] => []
  | [v] => v.compactChars
  | v :: vs => v.compactChars ++ ',' :: compactElements vs
termination_by structural vs => vs

def compactMembers : List (String × Value) → List Char
  | [] => []
  | [(k, v)] => quote k ++ ':' :: v.compactChars
  | (k, v) :: ms => quote k ++ ':' :: v.compactChars ++ ',' :: compactMembers ms
termination_by structural ms => ms

end

/-- A new line at a depth of nesting. -/
def newline (depth : Nat) : List Char := '\n' :: List.replicate (2 * depth) ' '

mutual

/-- The text of a value at a depth of nesting, over several lines. -/
def Value.prettyChars (depth : Nat) : Value → List Char
  | .null => ['n', 'u', 'l', 'l']
  | .bool true => ['t', 'r', 'u', 'e']
  | .bool false => ['f', 'a', 'l', 's', 'e']
  | .natural n => Nat.toDigits 10 n
  | .numeral t => t.toList
  | .string s => quote s
  | .array [] => ['[', ']']
  | .array vs => '[' :: newline (depth + 1) ++ prettyElements (depth + 1) vs ++ newline depth ++ [']']
  | .object [] => ['{', '}']
  | .object ms => '{' :: newline (depth + 1) ++ prettyMembers (depth + 1) ms ++ newline depth ++ ['}']
termination_by structural v => v

def prettyElements (depth : Nat) : List Value → List Char
  | [] => []
  | [v] => v.prettyChars depth
  | v :: vs => v.prettyChars depth ++ ',' :: newline depth ++ prettyElements depth vs
termination_by structural vs => vs

def prettyMembers (depth : Nat) : List (String × Value) → List Char
  | [] => []
  | [(k, v)] => quote k ++ ':' :: ' ' :: v.prettyChars depth
  | (k, v) :: ms =>
    quote k ++ ':' :: ' ' :: v.prettyChars depth ++ ',' :: newline depth ++ prettyMembers depth ms
termination_by structural ms => ms

end

def Value.compact (v : Value) : String := String.ofList v.compactChars

def Value.pretty (v : Value) : String := String.ofList (v.prettyChars 0)

end SchemaBridge.Json
