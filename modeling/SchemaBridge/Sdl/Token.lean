import SchemaBridge.Text.Position
/-!
# Tokens

A lexeme is a piece of source text with its kind and the position of its first character. The
lexemes of a source end at the end of the text or at text that is no lexeme.
-/
namespace SchemaBridge.Sdl

open Text (Position)

inductive TokenKind where
  | punctuator
  | name
  | int
  | float
  | string
  | blockString
deriving DecidableEq, Repr

/-- The name of a kind in messages. -/
def TokenKind.label : TokenKind → String
  | .punctuator => "Punctuator"
  | .name => "Name"
  | .int => "IntValue"
  | .float => "FloatValue"
  | .string => "StringValue"
  | .blockString => "BlockString"

structure Lexeme where
  kind : TokenKind
  text : List Char
  position : Position
deriving Repr

namespace Lexeme

/-- Whether a lexeme is a certain punctuator. -/
def isPunctuator (l : Lexeme) (p : String) : Bool := l.kind = .punctuator && l.text = p.toList

/-- Whether a lexeme is a certain word. -/
def isWord (l : Lexeme) (w : String) : Bool := l.kind = .name && l.text = w.toList

def isName (l : Lexeme) : Bool := l.kind = .name

/-- Whether a lexeme is a string of either kind. -/
def isString (l : Lexeme) : Bool := l.kind = .string || l.kind = .blockString

end Lexeme

inductive Tokens where
  | lexeme (head : Lexeme) (tail : Tokens)
  | finish (position : Position)
  | unreadable (position : Position)
deriving Repr

namespace Tokens

def head? : Tokens → Option Lexeme
  | lexeme l _ => some l
  | _ => none

/-- Where the next lexeme starts, or where the lexemes end. -/
def position : Tokens → Position
  | lexeme l _ => l.position
  | finish p => p
  | unreadable p => p

end Tokens

end SchemaBridge.Sdl
