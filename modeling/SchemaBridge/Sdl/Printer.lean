import SchemaBridge.Decimal.Shortest
import SchemaBridge.Sdl.Definition
import SchemaBridge.Text.Blank
import SchemaBridge.Text.Lines
/-!
# Printing schema documents

Every definition ends its line, and a blank line stands between two. The items of a block stand two
spaces further in than their definition. A description takes lines of its own, except that in front
of arguments, input fields and enum values it is followed by a space.

A string is printed on one line unless it has a newline and all its characters are printable; then
it becomes a block string, two spaces further in than the line it stands in. A character that is
not printable is written as `\u` and its code point in decimal, at least four digits.
-/
namespace SchemaBridge.Sdl

open Text (Line)

/-- The text of each element with a separator between neighbours. -/
def commaList {α : Type} (separator : String) (text : α → String) (xs : List α) : String :=
  String.intercalate separator (xs.map text)

/-- Blanks in front of a line. -/
def margin (indent : Nat) : String := String.ofList (List.replicate indent ' ')

/-- How far the items of a block stand further in. -/
def step : Nat := 2

/-! ## Strings -/

/-- The characters that are printed as they are, line ends and tabs included. -/
def isPrintable (c : Char) : Bool :=
  c = '\n' || c = '\r' || c = '\t' || (0x20 ≤ c.toNat && c.toNat ≤ 0xFFFF)

/-- A number with zeros in front up to four digits. -/
def fourDigits (n : Nat) : List Char :=
  let ds := Nat.toDigits 10 n
  List.replicate (4 - ds.length) '0' ++ ds

/-- A character inside a string on one line. -/
def escapeInline (c : Char) : List Char :=
  if c = '\r' then ['\\', 'r']
  else if c = '\n' then ['\\', 'n']
  else if c = '\t' then ['\\', 't']
  else if c = '"' then ['\\', '"']
  else if c = '\\' then ['\\', '\\']
  else if isPrintable c then [c]
  else '\\' :: 'u' :: fourDigits c.toNat

/-- The lines to print: without the line behind a final newline, and without a carriage return
before a newline. -/
def printedLines (t : List Char) : List Line :=
  let dropReturn := fun (l : Line) => if l.getLast? = some '\r' then l.dropLast else l
  let ls := Text.lines t
  let last := (ls.getLast?).toList.filter (· ≠ [])
  ls.dropLast.map dropReturn ++ last

/-- A line of a block string, three quotation marks escaped. -/
def escapeQuotes : List Char → List Char
  | '"' :: '"' :: '"' :: cs => '\\' :: '"' :: '"' :: '"' :: escapeQuotes cs
  | c :: cs => c :: escapeQuotes cs
  | [] => []

/-- A block string whose marks stand at an indentation; a blank line is printed empty. -/
def blockString (indent : Nat) (t : List Char) : String :=
  let line := fun (l : Line) =>
    (if Text.allBlank l then "" else margin (indent + step) ++ String.ofList (escapeQuotes l)) ++ "\n"
  "\"\"\"\n" ++ String.join ((printedLines t).map line) ++ margin indent ++ "\"\"\""

/-- A string in a line at an indentation. -/
def printString (indent : Nat) (s : String) : String :=
  let t := s.toList
  if '\n' ∈ t ∧ t.all isPrintable then blockString indent t
  else "\"" ++ String.ofList (t.flatMap escapeInline) ++ "\""

/-! ## Values and directives -/

mutual

def Value.print (indent : Nat) : Value → String
  | .variable n => "$" ++ n
  | .int n => toString n
  | .float x => String.ofList x.text
  | .string s => printString indent s
  | .boolean b => if b then "true" else "false"
  | .null => "null"
  | .enum n => n
  | .list vs => "[" ++ String.intercalate ", " (printValues indent vs) ++ "]"
  | .object fs => "\x7b" ++ String.intercalate ", " (printFields indent fs) ++ "\x7d"
termination_by structural v => v

def printValues (indent : Nat) : List Value → List String
  | [] => []
  | v :: vs => v.print indent :: printValues indent vs
termination_by structural vs => vs

def printFields (indent : Nat) : List (String × Value) → List String
  | [] => []
  | (k, v) :: fs => (k ++ ": " ++ v.print indent) :: printFields indent fs
termination_by structural fs => fs

end

/-- Items in parentheses, or nothing if there are none. -/
def parenthesised {α : Type} (text : α → String) (xs : List α) : String :=
  if xs.isEmpty then "" else "(" ++ commaList ", " text xs ++ ")"

def Directive.print (indent : Nat) (d : Directive) : String :=
  "@" ++ d.name ++ parenthesised (fun a => a.1 ++ ": " ++ a.2.print indent) d.arguments

/-- Directives behind what they apply to. -/
def printDirectives (indent : Nat) (ds : List Directive) : String :=
  String.join (ds.map fun d => " " ++ d.print indent)

/-! ## Items -/

/-- A description on lines of its own, and the margin of the item that follows. -/
def descriptionLines (indent : Nat) : Option String → String
  | none => ""
  | some s => margin indent ++ printString indent s ++ "\n"

/-- A description in the line of what follows. -/
def descriptionInline (indent : Nat) : Option String → String
  | none => ""
  | some s => printString indent s ++ " "

def InputValue.print (indent : Nat) (v : InputValue) : String :=
  descriptionInline indent v.description ++ v.name ++ ": " ++ v.type.text
    ++ (match v.default with
      | none => ""
      | some d => " = " ++ d.print indent)
    ++ printDirectives indent v.directives

def Field.print (indent : Nat) (f : Field) : String :=
  descriptionLines indent f.description ++ margin indent ++ f.name
    ++ parenthesised (InputValue.print indent) f.arguments ++ ": " ++ f.type.text
    ++ printDirectives indent f.directives ++ "\n"

def EnumValue.print (indent : Nat) (v : EnumValue) : String :=
  margin indent ++ descriptionInline indent v.description ++ v.name
    ++ printDirectives indent v.directives ++ "\n"

/-- The end of a definition: a block of items that end their lines, or nothing. -/
def block (items : List String) : String :=
  if items.isEmpty then "\n" else " \x7b\n" ++ String.join items ++ "\x7d\n"

/-! ## Definitions -/

def printInterfaces (is : List String) : String :=
  if is.isEmpty then "" else " implements " ++ String.intercalate " & " is

/-- A type definition without its description. -/
def TypeDef.printHead (d : TypeDef) : String :=
  let directives := printDirectives 0 d.directives
  match d.body with
  | .scalar => "scalar " ++ d.name ++ directives ++ "\n"
  | .object is fs =>
    "type " ++ d.name ++ printInterfaces is ++ directives ++ block (fs.map (Field.print step))
  | .interface is fs =>
    "interface " ++ d.name ++ printInterfaces is ++ directives ++ block (fs.map (Field.print step))
  | .union ms =>
    "union " ++ d.name ++ directives
      ++ (if ms.isEmpty then "" else " = " ++ String.intercalate " | " ms) ++ "\n"
  | .enum vs => "enum " ++ d.name ++ directives ++ block (vs.map (EnumValue.print step))
  | .input fs =>
    "input " ++ d.name ++ directives
      ++ block (fs.map fun f => margin step ++ f.print step ++ "\n")

def TypeDef.print (d : TypeDef) : String := descriptionLines 0 d.description ++ d.printHead

def SchemaDef.print (d : SchemaDef) : String :=
  let operation := fun (keyword : String) (type : Option String) =>
    match type with
    | none => ""
    | some t => margin step ++ keyword ++ ": " ++ t ++ "\n"
  "schema" ++ printDirectives 0 d.directives ++ " \x7b\n" ++ operation "query" d.query
    ++ operation "mutation" d.mutation ++ operation "subscription" d.subscription ++ "\x7d\n"

def DirectiveDef.print (d : DirectiveDef) : String :=
  descriptionLines 0 d.description ++ "directive @" ++ d.name
    ++ parenthesised (InputValue.print 0) d.arguments
    ++ (if d.repeatable then " repeatable" else "")
    ++ (if d.locations.isEmpty then "" else " on " ++ String.intercalate " | " d.locations) ++ "\n"

def Definition.print : Definition → String
  | schema d => d.print
  | type d => d.print
  | extension d => "extend " ++ d.printHead
  | directive d => d.print

/-- The text of a schema document. -/
def Schema.print (s : Schema) : String := String.intercalate "\n" (s.map Definition.print)

end SchemaBridge.Sdl
