/-!
# JSON values

Objects keep their members in order, and a key may occur twice. A numeral is a natural number of
64 bits if it is written with digits alone and fits; any other numeral keeps its spelling, since no
rule of this library asks for its value.
-/
namespace SchemaBridge.Json

inductive Value where
  | null
  | bool (b : Bool)
  | natural (n : Nat)
  | numeral (text : String)
  | string (s : String)
  | array (elements : List Value)
  | object (members : List (String × Value))
deriving Inhabited, Repr

namespace Value

/-- Text as a JSON value, absence as `null`. -/
def optional : Option String → Value
  | some s => .string s
  | none => .null

def strings (xs : List String) : Value := .array (xs.map .string)

/-- The text of a string value. -/
def string? : Value → Option String
  | .string s => some s
  | _ => none

def bool? : Value → Option Bool
  | .bool b => some b
  | _ => none

def natural? : Value → Option Nat
  | .natural n => some n
  | _ => none

def array? : Value → Option (List Value)
  | .array vs => some vs
  | _ => none

/-- A list of strings and nothing else. -/
def strings? : Value → Option (List String)
  | .array vs => vs.mapM string?
  | _ => none

def members? : Value → Option (List (String × Value))
  | .object ms => some ms
  | _ => none

def isNull : Value → Bool
  | .null => true
  | _ => false

end Value

end SchemaBridge.Json
