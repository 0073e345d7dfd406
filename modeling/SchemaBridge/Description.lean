import SchemaBridge.Model.Annotations
import SchemaBridge.Text.Blank
import SchemaBridge.Text.Indent
/-!
# Annotations as a description

A description is free text followed by sections. A section starts with a marker line, one or more
`#` and the word `example` or `default`, and its body is indented and quoted as code. Titles are not
written, and comments only on demand, as plain text at the end.

`write` makes a description of annotations and `read` takes one apart again: `cut` divides the lines
at the markers, every block loses the indentation its lines share and the blanks around it.

Results:
* `filter_eq_cut`: the lines that are no markers are those of the free text and of the bodies, in order.
-/
namespace SchemaBridge.Description

open Text Model

/-- The kinds of section behind the free text. -/
inductive Marker where
  | example
  | default
deriving DecidableEq, Repr

/-- The word that a marker line ends with. -/
def Marker.word : Marker → List Char
  | .example => ['e', 'x', 'a', 'm', 'p', 'l', 'e']
  | .default => ['d', 'e', 'f', 'a', 'u', 'l', 't']

/-- The marker line that is written. -/
def Marker.line (m : Marker) : Line := '#' :: ' ' :: m.word

/-! ## Writing -/

/-- The mark around code on one line. -/
def tick : Char := '\x60'

/-- Three ticks, a line of their own around code of several lines. -/
def fence : Line := [tick, tick, tick]

/-- Code between ticks or, over several lines, between fences; code that holds a tick stays bare. -/
def quoteCode (code : List Char) : List Char :=
  if tick ∈ code then code
  else if '\n' ∈ code then fence ++ '\n' :: code ++ '\n' :: fence
  else tick :: code ++ [tick]

/-- A section with one block of code. -/
def writeSection (m : Marker) (code : List Char) : List Char :=
  m.line ++ '\n' :: indent (quoteCode code)

/-- A section for every example. -/
def writeExamples (examples : List (List Char)) : List Char :=
  trim (unlines (examples.map (writeSection .example)))

/-- The parts of a description that are set, in the order in which they are written. -/
def parts (includeComment : Bool) (a : Annotations) : List (List Char) :=
  (a.description.map String.toList).toList
    ++ (a.examples.map fun es => writeExamples (es.toList.map String.toList)).toList
    ++ (a.default.map fun s => writeSection .default s.toList).toList
    ++ (if includeComment then (a.comment.map String.toList).toList else [])

/-- Annotations as text: what is not empty of the parts, a blank line between them. -/
def writeChars (includeComment : Bool) (a : Annotations) : List Char :=
  trim (joinWith ['\n', '\n'] ((parts includeComment a).filter (· ≠ [])))

def write (includeComment : Bool) (a : Annotations) : String :=
  String.ofList (writeChars includeComment a)

/-- The description, unless there is nothing to describe. -/
def write? (includeComment : Bool) (a : Annotations) : Option String :=
  let s := write includeComment a
  if s.isEmpty then none else some s

/-! ## Reading -/

/-- The marker that a line is: `#` at least once, blanks, and the word. -/
def marker? (l : Line) : Option Marker :=
  let rest := l.dropWhile (· = '#')
  if rest.length < l.length then
    let word := trimStart rest
    if word = Marker.word .example then some .example
    else if word = Marker.word .default then some .default
    else none
  else none

/-- The lines before the first marker, and every marker with the lines up to the next. -/
def cut : List Line → List Line × List (Marker × List Line)
  | [] => ([], [])
  | l :: ls =>
    let rest := cut ls
    match marker? l with
    | none => (l :: rest.1, rest.2)
    | some m => ([], (m, rest.1) :: rest.2)

/-- The bodies of the sections with a marker, in order. -/
def bodies (m : Marker) (sections : List (Marker × List Line)) : List (List Line) :=
  sections.filterMap fun s => if s.1 = m then some s.2 else none

/-- The text of the lines of a section. -/
def block (ls : List Line) : List Char := trim (unlines (unindent ls))

/-- A text unless it is empty. -/
def nonEmpty? (t : List Char) : Option String :=
  if t = [] then none else some (String.ofList t)

theorem nonEmpty?_of_ne_nil {t : List Char} (h : t ≠ []) : nonEmpty? t = some (String.ofList t) :=
  if_neg h

theorem toList_getD_nonEmpty? (t : List Char) : ((nonEmpty? t).map String.toList).getD [] = t := by
  unfold nonEmpty?
  split
  · next ht => rw [ht]; rfl
  · exact String.toList_ofList

/-- The annotations that a text describes. The bodies of several default sections are one block. -/
def readChars (t : List Char) : Annotations :=
  let (preamble, sections) := cut (lines t)
  { description := nonEmpty? (block preamble)
    examples := Examples.ofList ((bodies .example sections).map fun b => String.ofList (block b))
    default := nonEmpty? (block (bodies .default sections).flatten) }

/-- The annotations of a description that may be absent. -/
def read : Option String → Annotations
  | none => .empty
  | some s => readChars s.toList

theorem filter_eq_cut (ls : List Line) :
    ls.filter (fun l => (marker? l).isNone) = (cut ls).1 ++ (cut ls).2.flatMap Prod.snd := by
  induction ls with
  | nil => rfl
  | cons l ls ih =>
    cases h : marker? l with
    | none => simp [cut, h, ih]
    | some m => simp [cut, h, ih]

end SchemaBridge.Description
