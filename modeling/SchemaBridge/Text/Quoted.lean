import SchemaBridge.Text.Visible
/-!
# Quoted text

Text between quotation marks as it appears in messages: quotation marks, backslashes and the usual
control characters behind a backslash, other characters that are not visible by their code point.

Results:
* `quoted_plain`: text without such characters only gains its quotation marks.
-/
namespace SchemaBridge.Text

/-- A code point in hexadecimal digits between braces. -/
def codePoint (c : Char) : List Char :=
  '\\' :: 'u' :: '{' :: Nat.toDigits 16 c.toNat ++ ['}']

/-- A character between quotation marks. -/
def quoteChar (c : Char) : List Char :=
  if c = '"' then ['\\', '"']
  else if c = '\\' then ['\\', '\\']
  else if c = '\n' then ['\\', 'n']
  else if c = '\r' then ['\\', 'r']
  else if c = '\t' then ['\\', 't']
  else if c = '\x00' then ['\\', '0']
  else if isVisible c then [c]
  else codePoint c

def quoted (s : String) : String := "\"" ++ String.ofList (s.toList.flatMap quoteChar) ++ "\""

theorem quoted_plain {s : String} (h : ∀ c ∈ s.toList, quoteChar c = [c]) :
    quoted s = "\"" ++ s ++ "\"" := by
  have : s.toList.flatMap quoteChar = s.toList := by
    generalize s.toList = cs at h
    induction cs with
    | nil => rfl
    | cons c cs ih => simp_all
  rw [quoted, this, String.ofList_toList]

end SchemaBridge.Text
