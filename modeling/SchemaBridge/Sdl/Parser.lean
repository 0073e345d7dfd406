import SchemaBridge.Sdl.Lexer
import SchemaBridge.Sdl.Literal
/-!
# Parsing schema documents

The grammar needs one lexeme of lookahead and never goes back: an optional part is taken as soon as
its first lexeme fits. A parser takes tokens to a result and the tokens that are left, or to the
fault at the first place that does not fit.

Literals, directive locations, empty extensions and root operations are judged where they are used;
their faults name the place of the offending construct rather than that of a lexeme.

Loops and nested constructs are bounded by the lexemes that are left where they start: every round
takes one lexeme at least, and leaves those behind the first to the rounds to come.
-/
namespace SchemaBridge.Sdl

open Text (Position)

/-- Why tokens are no document. -/
inductive Fault where
  /-- The lexeme at a position does not fit, or there is none. -/
  | unexpected (position : Position) (found : Option Lexeme)
  /-- A construct at a position has the right form and no meaning. -/
  | malformed (position : Position)
  /-- The indentation of a block string would be cut inside a character. -/
  | splitCharacter
deriving Repr

abbrev Parser := StateT Tokens (Except Fault)

namespace Parser
variable {α : Type}

/-- The next lexeme does not fit. -/
def unexpected : Parser α := fun ts => .error (.unexpected ts.position ts.head?)

def malformed (p : Position) : Parser α := fun _ => .error (.malformed p)

/-- The position of the next lexeme. -/
def here : Parser Position := fun ts => .ok (ts.position, ts)

/-- The lexemes that are left. -/
def remaining : Parser Tokens := fun ts => .ok (ts, ts)

/-- Whether there is a next lexeme that satisfies a test. -/
def nextIs (test : Lexeme → Bool) : Parser Bool := fun ts =>
  .ok ((ts.head?.map test).getD false, ts)

/-- The next lexeme, which has to satisfy a test. -/
def take (test : Lexeme → Bool) : Parser Lexeme := fun ts =>
  match ts with
  | .lexeme l rest => if test l then .ok (l, rest) else unexpected ts
  | _ => unexpected ts

/-- Takes the next lexeme if it satisfies a test. -/
def accept (test : Lexeme → Bool) : Parser Bool := do
  if ← nextIs test then
    let _ ← take test
    pure true
  else pure false

def optional (test : Lexeme → Bool) (p : Parser α) : Parser (Option α) := do
  if ← nextIs test then some <$> p else pure none

/-- Results as long as the next lexeme satisfies a test, at most one for every lexeme of a list. -/
def manyWithin (test : Lexeme → Bool) (p : Parser α) : Tokens → Parser (List α)
  | .lexeme _ rest => do
    if ← nextIs test then
      let a ← p
      let as ← manyWithin test p rest
      pure (a :: as)
    else pure []
  | _ => pure []

/-- Results as long as the next lexeme satisfies a test. -/
def many (test : Lexeme → Bool) (p : Parser α) : Parser (List α) := do
  manyWithin test p (← remaining)

/-- As `many`, with at least one result. -/
def some (test : Lexeme → Bool) (p : Parser α) : Parser (List α) := do
  let a ← p
  let as ← many test p
  pure (a :: as)

end Parser

open SchemaBridge.Sdl.Parser

/-! ## Lexemes -/

def openBrace : String := "\x7b"

def closeBrace : String := "\x7d"

def punctuator (p : String) (l : Lexeme) : Bool := l.isPunctuator p

def word (w : String) (l : Lexeme) : Bool := l.isWord w

def punct (p : String) : Parser Unit := do
  let _ ← take (punctuator p)

def name : Parser String := do
  let l ← take Lexeme.isName
  pure (String.ofList l.text)

/-- What stands between an opening and a closing lexeme. -/
def between {α : Type} (opener closer : String) (p : Parser α) : Parser α := do
  punct opener
  let a ← p
  punct closer
  pure a

def stringLiteral : Parser String := do
  let l ← take Lexeme.isString
  match Literal.string? l with
  | .ok s => pure s
  | .error .malformed => malformed l.position
  | .error .splitCharacter => fun _ => .error .splitCharacter

def description : Parser (Option String) := optional Lexeme.isString stringLiteral

/-! ## Types and values -/

/-- A type with no more brackets than there are lexemes. -/
def typeRefWithin : Tokens → Parser TypeRef
  | .lexeme _ rest => do
    let t ←
      if ← nextIs (punctuator "[") then
        TypeRef.list <$> between "[" "]" (typeRefWithin rest)
      else TypeRef.named <$> name
    if ← accept (punctuator "!") then pure t.nonNull else pure t
  | _ => unexpected

def typeRef : Parser TypeRef := do
  typeRefWithin (← remaining)

/-- The value that a name stands for. -/
def Value.ofName (s : String) : Value :=
  if s = "true" then .boolean true
  else if s = "false" then .boolean false
  else if s = "null" then .null
  else .enum s

/-- Puts a field into fields that are sorted by name, over one of the same name. -/
def insertField (key : String) (v : Value) : List (String × Value) → List (String × Value)
  | [] => [(key, v)]
  | f :: fs =>
    if key = f.1 then (key, v) :: fs
    else if key < f.1 then (key, v) :: f :: fs
    else f :: insertField key v fs

/-- An object value: fields by name, the last one of a name counting. -/
def Value.ofFields (fs : List (String × Value)) : Value :=
  .object (fs.foldl (fun acc f => insertField f.1 f.2 acc) [])

/-- Whether a value may start with a lexeme; a constant is a value without variables. -/
def startsValue (constant : Bool) (l : Lexeme) : Bool :=
  match l.kind with
  | .punctuator => l.isPunctuator "[" || l.isPunctuator openBrace || (l.isPunctuator "$" && !constant)
  | _ => true

def number : Parser Value := do
  let l ← take fun l => l.kind = .int || l.kind = .float
  let v := if l.kind = .int then (Literal.int? l.text).map Value.int
    else (Literal.float? l.text).map Value.float
  match v with
  | none => malformed l.position
  | Option.some v => pure v

/-- A value with no more nested ones than there are lexemes. -/
def valueWithin (constant : Bool) : Tokens → Parser Value
  | .lexeme _ rest => do
    if ← nextIs Lexeme.isName then
      Value.ofName <$> name
    else if ← nextIs Lexeme.isString then
      Value.string <$> stringLiteral
    else if ← nextIs (fun l => l.kind = .int || l.kind = .float) then
      number
    else if ← nextIs (punctuator "[") then
      Value.list <$> between "[" "]" (many (startsValue constant) (valueWithin constant rest))
    else if ← nextIs (punctuator openBrace) then
      Value.ofFields <$> between openBrace closeBrace (many Lexeme.isName do
        let key ← name
        punct ":"
        let v ← valueWithin constant rest
        pure (key, v))
    else if ← nextIs (fun l => l.isPunctuator "$" && !constant) then
      punct "$"
      Value.variable <$> name
    else unexpected
  | _ => unexpected

def value : Parser Value := do
  valueWithin false (← remaining)

def constant : Parser Value := do
  valueWithin true (← remaining)

def argument : Parser (String × Value) := do
  let key ← name
  punct ":"
  let v ← value
  pure (key, v)

/-- Arguments in parentheses, or none at all. -/
def arguments : Parser (List (String × Value)) := do
  if ← nextIs (punctuator "(") then
    between "(" ")" (Parser.some Lexeme.isName argument)
  else pure []

def directive : Parser Directive := do
  punct "@"
  let n ← name
  let as ← arguments
  pure ⟨n, as⟩

def directives : Parser (List Directive) := many (punctuator "@") directive

/-! ## Fields -/

/-- Whether an item that may carry a description starts with a lexeme. -/
def startsItem (l : Lexeme) : Bool := l.isName || l.isString

def inputValue : Parser InputValue := do
  let position ← here
  let description ← description
  let n ← name
  punct ":"
  let t ← typeRef
  let default ← optional (punctuator "=") (do punct "="; constant)
  let ds ← directives
  pure ⟨position, description, n, t, default, ds⟩

/-- Argument definitions in parentheses, or none at all. -/
def argumentDefs : Parser (List InputValue) := do
  if ← nextIs (punctuator "(") then
    between "(" ")" (Parser.some startsItem inputValue)
  else pure []

def field : Parser Field := do
  let position ← here
  let description ← description
  let n ← name
  let as ← argumentDefs
  punct ":"
  let t ← typeRef
  let ds ← directives
  pure ⟨position, description, n, as, t, ds⟩

def enumValue : Parser EnumValue := do
  let position ← here
  let description ← description
  let n ← name
  let ds ← directives
  pure ⟨position, description, n, ds⟩

/-- Items in braces, or none at all. -/
def items {α : Type} (item : Parser α) : Parser (List α) := do
  if ← nextIs (punctuator openBrace) then
    between openBrace closeBrace (Parser.some startsItem item)
  else pure []

/-- Names with a separator between them and perhaps one in front. -/
def separated (separator : String) : Parser (List String) := do
  let _ ← accept (punctuator separator)
  let first ← name
  let others ← many (punctuator separator) (do punct separator; name)
  pure (first :: others)

/-- The interfaces after `implements`, or none at all. -/
def interfaces : Parser (List String) := do
  if ← accept (word "implements") then separated "&" else pure []

/-- The members of a union after `=`, or none at all. -/
def members : Parser (List String) := do
  if ← accept (punctuator "=") then separated "|" else pure []

/-! ## Definitions -/

/-- A type from its keyword on. -/
def typeDef (description : Option String) : Parser TypeDef := do
  let position ← here
  if ← accept (word "scalar") then
    let n ← name
    let ds ← directives
    pure ⟨position, description, n, ds, .scalar⟩
  else if ← accept (word "type") then
    let n ← name
    let is ← interfaces
    let ds ← directives
    let fs ← items field
    pure ⟨position, description, n, ds, .object is fs⟩
  else if ← accept (word "interface") then
    let n ← name
    let is ← interfaces
    let ds ← directives
    let fs ← items field
    pure ⟨position, description, n, ds, .interface is fs⟩
  else if ← accept (word "union") then
    let n ← name
    let ds ← directives
    let ms ← members
    pure ⟨position, description, n, ds, .union ms⟩
  else if ← accept (word "enum") then
    let n ← name
    let ds ← directives
    let vs ← items enumValue
    pure ⟨position, description, n, ds, .enum vs⟩
  else if ← accept (word "input") then
    let n ← name
    let ds ← directives
    let fs ← items inputValue
    pure ⟨position, description, n, ds, .input fs⟩
  else unexpected

/-- Whether an extension adds something. To implement interfaces is enough for an object only. -/
def TypeDef.extendsSomething (d : TypeDef) : Bool :=
  !d.directives.isEmpty ||
    match d.body with
    | .scalar => false
    | .object is fs => !is.isEmpty || !fs.isEmpty
    | .interface _ fs => !fs.isEmpty
    | .union ms => !ms.isEmpty
    | .enum vs => !vs.isEmpty
    | .input fs => !fs.isEmpty

def extensionDef : Parser TypeDef := do
  let _ ← take (word "extend")
  let d ← typeDef none
  if d.extendsSomething then pure d else malformed d.position

/-- The names after a root operation, in order. -/
def operationTypes (operations : List (String × String)) (operation : String) : List String :=
  operations.filterMap fun o => if o.1 = operation then Option.some o.2 else none

def rootOperations : List String := ["query", "mutation", "subscription"]

def schemaDef : Parser SchemaDef := do
  let position ← here
  let _ ← take (word "schema")
  let ds ← directives
  let operations ← between openBrace closeBrace (many Lexeme.isName do
    let operation ← name
    punct ":"
    let type ← name
    pure (operation, type))
  let named := fun o => (operationTypes operations o)
  if operations.all (fun o => o.1 ∈ rootOperations) &&
      rootOperations.all (fun o => (named o).length ≤ 1) then
    pure ⟨position, ds, (named "query").head?, (named "mutation").head?,
      (named "subscription").head?⟩
  else malformed position

def directiveLocation : Parser String := do
  let l ← take Lexeme.isName
  let n := String.ofList l.text
  if n ∈ directiveLocations then pure n else malformed l.position

/-- Where a directive may stand: nothing, or locations with bars between them. -/
def directiveTargets : Parser (List String) := do
  if ← nextIs (fun l => l.isPunctuator "|" || l.isName) then
    let _ ← accept (punctuator "|")
    let first ← directiveLocation
    let others ← many (punctuator "|") (do punct "|"; directiveLocation)
    pure (first :: others)
  else pure []

def directiveDef (description : Option String) : Parser DirectiveDef := do
  let position ← here
  let _ ← take (word "directive")
  punct "@"
  let n ← name
  let as ← argumentDefs
  let repeatable ← accept (word "repeatable")
  let _ ← take (word "on")
  let locations ← directiveTargets
  pure ⟨position, description, n, as, repeatable, locations⟩

def definition : Parser Definition := do
  if ← nextIs (word "schema") then
    Definition.schema <$> schemaDef
  else if ← nextIs (word "extend") then
    Definition.extension <$> extensionDef
  else
    let d ← description
    if ← nextIs (word "directive") then
      Definition.directive <$> directiveDef d
    else Definition.type <$> typeDef d

/-- Results up to the end of the text, at least one. -/
def wholeDocument {α : Type} (p : Parser α) (ts : Tokens) : Except Fault (List α) :=
  match Parser.some (fun _ => true) p ts with
  | .error f => .error f
  | .ok (as, .finish _) => .ok as
  | .ok (_, rest) => .error (.unexpected rest.position rest.head?)

/-- The schema document that a text holds. -/
def Schema.parse (text : String) : Except Fault Schema :=
  wholeDocument definition (Lexer.tokens text.toList)

end SchemaBridge.Sdl
