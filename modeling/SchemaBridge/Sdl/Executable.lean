import SchemaBridge.Sdl.Parser
/-!
# Recognising executable documents

Text that is no schema may still be a document of operations and fragments. Only whether it is one
matters, so the parsers here give no trees.
-/
namespace SchemaBridge.Sdl

open SchemaBridge.Sdl.Parser

/-- Whether a selection starts with a lexeme. -/
def startsSelection (l : Lexeme) : Bool := l.isName || l.isPunctuator "..."

/-- What follows three dots: a fragment on a type, a fragment on the type at hand, or the name
of a fragment. -/
def spread (selectionSet : Parser Unit) : Parser Unit := do
  punct "..."
  if ← accept (word "on") then
    let _ ← name
    let _ ← directives
    selectionSet
  else if ← nextIs Lexeme.isName then
    let _ ← name
    let _ ← directives
  else
    let _ ← directives
    selectionSet

def selectedField (selectionSet : Parser Unit) : Parser Unit := do
  let _ ← name
  if ← accept (punctuator ":") then
    let _ ← name
  let _ ← arguments
  let _ ← directives
  if ← nextIs (punctuator openBrace) then selectionSet

/-- A selection set with no more nested ones than there are lexemes. -/
def selectionSetWithin : Tokens → Parser Unit
  | .lexeme _ rest => do
    let _ ← between openBrace closeBrace (Parser.some startsSelection do
      if ← nextIs (punctuator "...") then spread (selectionSetWithin rest)
      else selectedField (selectionSetWithin rest))
  | _ => unexpected

def selectionSet : Parser Unit := do
  selectionSetWithin (← remaining)

def variableDef : Parser Unit := do
  punct "$"
  let _ ← name
  punct ":"
  let _ ← typeRef
  let _ ← optional (punctuator "=") (do punct "="; constant)

/-- An operation from its keyword on. -/
def operation : Parser Unit := do
  let _ ← optional Lexeme.isName name
  if ← nextIs (punctuator "(") then
    let _ ← between "(" ")" (Parser.some (punctuator "$") variableDef)
  let _ ← directives
  selectionSet

/-- A fragment from its keyword on. -/
def fragment : Parser Unit := do
  let _ ← name
  let _ ← take (word "on")
  let _ ← name
  let _ ← directives
  selectionSet

def executableDefinition : Parser Unit := do
  if ← nextIs (punctuator openBrace) then selectionSet
  else if ← accept (word "fragment") then fragment
  else
    let _ ← take fun l => rootOperations.any l.isWord
    operation

/-- Reads a text as an executable document. -/
def readExecutable (text : String) : Except Fault Unit :=
  (wholeDocument executableDefinition (Lexer.tokens text.toList)).map fun _ => ()

end SchemaBridge.Sdl
