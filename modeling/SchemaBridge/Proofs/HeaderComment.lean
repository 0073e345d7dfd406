import SchemaBridge.Export.Schema
import SchemaBridge.Proofs.CommentLines
/-!
# The header as a comment

The text for a document is its header, an empty line and the printed schema. Every entry of the
header gets a comment mark in front, once: an entry of several lines is a comment in its first line
only. So whether the header is a comment depends on the names that are put into it. If none of them
holds a newline, every line is a comment; and if none holds a carriage return either, the text is
read as the printed schema is, so many lines further down.

Results:
* `endsLine_print`: a printed schema ends with a newline, if it is not empty.
* `lines_preamble`: the lines in front of a printed schema.
* `commented_preamble_iff`: when all of them are comments, whatever the names are.
* `header_changes_nothing`: names without the end of a line leave the header a comment.
* `header_defines_type`: a name with one can define a type.
-/
namespace SchemaBridge

open Text (Line lines lines_cons lines_of_not_mem lines_unlines_texts unlines unlines_append
  joinWith_cons)

/-! ## Texts that end their line -/

namespace Sdl

/-- The text ends with a newline. -/
def EndsLine (t : String) : Prop := t.toList.getLast? = some '\n'

theorem EndsLine.append {t : String} (h : EndsLine t) (s : String) : EndsLine (s ++ t) := by
  rw [EndsLine, String.toList_append, List.getLast?_append, h]
  rfl

theorem endsLine_newline : EndsLine "\n" := rfl

theorem endsLine_block (items : List String) : EndsLine (block items) := by
  have hclose : EndsLine "\x7d\n" := rfl
  unfold block
  split
  · exact endsLine_newline
  · exact hclose.append _

theorem endsLine_printHead (d : TypeDef) : EndsLine d.printHead := by
  unfold TypeDef.printHead
  cases d.body with
  | scalar | union => exact endsLine_newline.append _
  | object | interface | enum | input => exact (endsLine_block _).append _

theorem endsLine_printDefinition (d : Definition) : EndsLine d.print := by
  have hclose : EndsLine "\x7d\n" := rfl
  cases d with
  | schema d => exact hclose.append _
  | type d => exact (endsLine_printHead d).append _
  | extension d => exact (endsLine_printHead d).append _
  | directive d => exact endsLine_newline.append _

theorem endsLine_print {s : Schema} (h : s ≠ []) : EndsLine s.print := by
  induction s with
  | nil => exact absurd rfl h
  | cons d ds ih =>
    cases ds with
    | nil => exact endsLine_printDefinition d
    | cons e es =>
      rw [Schema.print, List.map_cons, String.intercalate_cons_of_ne_nil (by simp)]
      exact (ih (by simp)).append _

end Sdl

namespace Export

open Sdl (Schema EndsLine Fault Definition)

theorem endLine_of_endsLine {t : String} (h : EndsLine t) : endLine t = t := by
  rw [endLine, h]
  simp

/-! ## What stands in front of the printed schema -/

namespace Options

/-- The header and the empty line behind it. -/
def preamble (o : Options) : String := o.header ++ "\n\n"

/-- The lines of the preamble, as far as the names that are put into it are lines. -/
def preambleLines (o : Options) : List Line :=
  (o.headerLines.map fun entry => '#' :: ' ' :: entry.toList) ++ [[]]

/-- The names that are put into the header. -/
def headerNames (o : Options) : List String :=
  [o.filename, o.sourceFilename, o.userPackage, o.userPackageUrl].filterMap id

end Options

/-- With a header asked for, the text is the preamble and the printed schema. -/
theorem render_of_header {o : Options} (ho : o.hasHeader = true) (s : Schema) :
    o.render s = o.preamble ++ s.print := by
  have hends : EndsLine (o.preamble ++ s.print) := by
    cases s with
    | nil =>
      have hempty : EndsLine "\n\n" := rfl
      rw [Schema.print, List.map_nil, String.intercalate_nil, String.append_empty]
      exact hempty.append _
    | cons d ds => exact (Sdl.endsLine_print (List.cons_ne_nil d ds)).append _
  rw [Options.render, if_pos ho]
  exact endLine_of_endsLine hends

theorem toList_intercalate_newline {ss : List String} :
    (String.intercalate "\n" ss).toList = unlines (ss.map String.toList) := by
  induction ss with
  | nil => rfl
  | cons s ss ih =>
    cases ss with
    | nil => rfl
    | cons t ts =>
      rw [String.intercalate_cons_of_ne_nil (by simp), List.map_cons, unlines,
        joinWith_cons _ _ (by simp), String.toList_append, String.toList_append, ih]
      rfl

theorem Options.headerLines_ne_nil (o : Options) : o.headerLines ≠ [] := List.cons_ne_nil _ _

theorem toList_preamble_append (o : Options) (sdl : String) :
    (o.preamble ++ sdl).toList = unlines (o.preambleLines ++ [sdl.toList]) := by
  have hheader : o.header.toList
      = unlines (o.headerLines.map fun entry => '#' :: ' ' :: entry.toList) := by
    rw [Options.header, toList_intercalate_newline, List.map_map]
    congr 2
    funext entry
    exact String.toList_append
  have hne : (o.headerLines.map fun entry => '#' :: ' ' :: entry.toList) ≠ [] := by
    simp [o.headerLines_ne_nil]
  calc (o.preamble ++ sdl).toList = o.header.toList ++ '\n' :: '\n' :: sdl.toList := by
        rw [Options.preamble, String.toList_append, String.toList_append, List.append_assoc]
        rfl
    _ = unlines (o.preambleLines ++ [sdl.toList]) := by
        rw [hheader, Options.preambleLines, List.append_assoc, unlines_append hne (by simp)]
        rfl

/-- The lines in front of a printed schema: those of the entries behind a comment mark, an empty
line, and what the first line of the schema goes on with. -/
theorem lines_preamble (o : Options) : lines o.preamble.toList
    = (o.headerLines.flatMap fun entry => lines ('#' :: ' ' :: entry.toList)) ++ [[], []] := by
  have htext := toList_preamble_append o ""
  rw [String.append_empty] at htext
  rw [htext, lines_unlines_texts (by simp), Options.preambleLines, List.append_assoc,
    List.flatMap_append, List.flatMap_map]
  rfl

/-! ## Comments -/

/-- An empty line or a comment. -/
def Commented (l : Line) : Prop := l = [] ∨ l.head? = some '#'

/-- A mark in front of a text makes its first line a comment, and no other. -/
theorem commented_marked_iff (t : List Char) : (∀ l ∈ lines ('#' :: ' ' :: t), Commented l)
    ↔ ∀ l ∈ (lines t).tail, Commented l := by
  obtain ⟨l, ls, ht, hspace⟩ := lines_cons (by decide : ' ' ≠ '\n') t
  obtain ⟨m, ms, hm, hmark⟩ := lines_cons (by decide : '#' ≠ '\n') (' ' :: t)
  obtain ⟨rfl, rfl⟩ := List.cons.inj (hspace.symm.trans hm)
  have hfirst : Commented ('#' :: ' ' :: l) := .inr rfl
  rw [hmark, ht, List.tail_cons, List.forall_mem_cons]
  exact and_iff_right hfirst

/-- The preamble is a comment if and only if every entry of the header is, its first line aside. -/
theorem commented_preamble_iff (o : Options) : (∀ l ∈ lines o.preamble.toList, Commented l)
    ↔ ∀ entry ∈ o.headerLines, ∀ l ∈ (lines entry.toList).tail, Commented l := by
  have hempty : ∀ l ∈ [([] : Line), []], Commented l := by
    intro l hl
    left
    simpa using hl
  simp only [lines_preamble, List.forall_mem_append, List.forall_mem_flatMap, commented_marked_iff]
  exact and_iff_left hempty

/-! ## Names without the end of a line -/

/-- The words around the names. -/
def headerWords : List String :=
  ["The file ", "This file", " was auto-generated", " from ", "", " using", thisPackage,
    "on behalf of", " (", ")"]

theorem not_mem_packageLine {c : Char} {package url : Option String}
    (hwords : ∀ w ∈ headerWords, c ∉ w.toList) (hpackage : ∀ p ∈ package, c ∉ p.toList)
    (hurl : ∀ u ∈ url, c ∉ u.toList) : ∀ p ∈ packageLine? package url, c ∉ p.toList := by
  intro p hp
  match package, url with
  | none, none => cases hp
  | some p, none =>
    cases hp
    exact hpackage _ rfl
  | none, some u =>
    cases hp
    exact hurl _ rfl
  | some p, some u =>
    cases hp
    simp only [String.toList_append, List.mem_append, not_or]
    exact ⟨⟨⟨hpackage _ rfl, hwords _ (by simp [headerWords])⟩, hurl _ rfl⟩,
      hwords _ (by simp [headerWords])⟩

/-- A character that is in no name and in no word is in no entry of the header. -/
theorem not_mem_headerLines {o : Options} {c : Char} (hwords : ∀ w ∈ headerWords, c ∉ w.toList)
    (hnames : ∀ name ∈ o.headerNames, c ∉ name.toList) :
    ∀ entry ∈ o.headerLines, c ∉ entry.toList := by
  have hname : ∀ {n? : Option String},
      n? ∈ [o.filename, o.sourceFilename, o.userPackage, o.userPackageUrl]
        → ∀ n ∈ n?, c ∉ n.toList := fun hn n hmem =>
    hnames n (List.mem_filterMap.mpr ⟨_, hn, hmem⟩)
  have hpackage : ∀ p ∈ packageLine? o.userPackage o.userPackageUrl, c ∉ p.toList :=
    not_mem_packageLine hwords (hname (by simp)) (hname (by simp))
  have hword : ∀ {w : String}, w ∈ headerWords → c ∉ w.toList := fun hw => hwords _ hw
  intro entry hentry
  simp only [Options.headerLines, List.mem_append, List.mem_cons, List.not_mem_nil,
    or_false] at hentry
  rcases hentry with (rfl | rfl) | hentry
  · simp only [String.toList_append, List.mem_append, not_or]
    refine ⟨⟨⟨?_, hword (by simp [headerWords])⟩, ?_⟩, hword (by simp [headerWords])⟩
    · split
      · next f hf =>
        rw [String.toList_append, List.mem_append, not_or]
        exact ⟨hword (by simp [headerWords]), hname (by simp) f hf⟩
      · exact hword (by simp [headerWords])
    · split
      · next f hf =>
        rw [String.toList_append, List.mem_append, not_or]
        exact ⟨hword (by simp [headerWords]), hname (by simp) f hf⟩
      · exact hword (by simp [headerWords])
  · exact hword (by simp [headerWords])
  · split at hentry
    · next p hp =>
      simp only [List.mem_cons, List.not_mem_nil, or_false] at hentry
      rcases hentry with rfl | rfl
      · exact hword (by simp [headerWords])
      · exact hpackage _ hp
    · cases hentry

theorem isComment_preambleLines {o : Options} (hnewline : ∀ name ∈ o.headerNames, '\n' ∉ name.toList)
    (hreturn : ∀ name ∈ o.headerNames, '\r' ∉ name.toList) :
    ∀ l ∈ o.preambleLines, Sdl.Lexer.IsComment l := by
  intro l hl
  rw [Options.preambleLines, List.mem_append, List.mem_map, List.mem_singleton] at hl
  rcases hl with ⟨entry, hentry, rfl⟩ | rfl
  · have hn := not_mem_headerLines (by decide) hnewline entry hentry
    have hr := not_mem_headerLines (by decide) hreturn entry hentry
    exact ⟨.inr rfl, by simp [hn], by simp [hr]⟩
  · exact ⟨.inl rfl, List.not_mem_nil, List.not_mem_nil⟩

/-- **The header is a comment, unless a name holds the end of a line.** The text for any document is
the preamble and the printed schema. The lines of the preamble are comments if and only if those of
every entry are, its first line aside; so they are if no name holds a newline. If no name holds a
carriage return either, then whatever stands behind the preamble is read as it is read by itself, so
many lines further down: the same definitions, or the same fault. -/
theorem header_changes_nothing {o : Options} (ho : o.hasHeader = true) :
    (∀ d, (text o d).outcome = (schema o d).outcome.map
      fun r => { r with data := o.preamble ++ r.data.print }) ∧
    ((∀ l ∈ lines o.preamble.toList, l = [] ∨ l.head? = some '#')
      ↔ ∀ entry ∈ o.headerLines, ∀ l ∈ (lines entry.toList).tail, l = [] ∨ l.head? = some '#') ∧
    ((∀ name ∈ o.headerNames, '\n' ∉ name.toList) →
      (∀ l ∈ lines o.preamble.toList, l = [] ∨ l.head? = some '#') ∧
      ((∀ name ∈ o.headerNames, '\r' ∉ name.toList) → ∀ sdl : String,
        Schema.parse (o.preamble ++ sdl)
          = ((Schema.parse sdl).mapError (Fault.mapPosition (.down o.preambleLines.length))).map
            (List.map (Definition.mapPosition (.down o.preambleLines.length))))) := by
  refine ⟨?_, commented_preamble_iff o, fun hnewline => ⟨?_, fun hreturn sdl => ?_⟩⟩
  · intro d
    rw [text, Conversion.map, funext (render_of_header ho)]
  · refine (commented_preamble_iff o).mpr fun entry hentry l hl => ?_
    rw [lines_of_not_mem (not_mem_headerLines (by decide) hnewline entry hentry)] at hl
    cases hl
  · have hparse := Sdl.parse_comments (isComment_preambleLines hnewline hreturn) sdl
    rwa [← toList_preamble_append, String.ofList_toList] at hparse

/-- Options that name the file, where it comes from, and a package with its address. -/
def allNames : Options where
  filename := some "schema.graphql"
  sourceFilename := some "types.json"
  userPackage := some "shapes"
  userPackageUrl := some "#shapes"

theorem header_changes_nothing_allNames :
    (allNames.hasHeader = true ∧ (∀ name ∈ allNames.headerNames, '\n' ∉ name.toList)
      ∧ ∀ name ∈ allNames.headerNames, '\r' ∉ name.toList) ∧
    (∀ l ∈ lines allNames.preamble.toList, l = [] ∨ l.head? = some '#') ∧
    ∀ sdl : String, Schema.parse (allNames.preamble ++ sdl)
      = ((Schema.parse sdl).mapError (Fault.mapPosition (.down 5))).map
        (List.map (Definition.mapPosition (.down 5))) := by
  have hnewline : ∀ name ∈ allNames.headerNames, '\n' ∉ name.toList := by decide
  have hreturn : ∀ name ∈ allNames.headerNames, '\r' ∉ name.toList := by decide
  have hheader : allNames.hasHeader = true := rfl
  obtain ⟨hlines, hparse⟩ := (header_changes_nothing hheader).2.2 hnewline
  exact ⟨⟨hheader, hnewline, hreturn⟩, hlines, hparse hreturn⟩

/-- The name of a file that goes on with a definition on a line of its own. -/
def nameOfTwoLines : Options where
  filename := some "x\nscalar Injected #"

/-- A name that holds a newline can define a type: the document declares nothing, and yet the text
for it holds a definition, in a line that is no comment. -/
theorem header_defines_type :
    nameOfTwoLines.hasHeader = true ∧
    (schema nameOfTwoLines (.ofTypes [])).outcome = .ok ⟨[], [], []⟩ ∧
    (text nameOfTwoLines (.ofTypes [])).outcome = .ok ⟨nameOfTwoLines.preamble, [], []⟩ ∧
    ¬(∀ l ∈ lines nameOfTwoLines.preamble.toList, l = [] ∨ l.head? = some '#') ∧
    (Schema.parse nameOfTwoLines.preamble).toOption.map (List.map Definition.name?)
      = some [some "Injected"] := by
  have hrender : nameOfTwoLines.render [] = nameOfTwoLines.preamble := by
    rw [render_of_header rfl, Schema.print, List.map_nil, String.intercalate_nil,
      String.append_empty]
  have htext : (text nameOfTwoLines (.ofTypes [])).outcome
      = .ok ⟨nameOfTwoLines.render [], [], []⟩ := rfl
  rw [hrender] at htext
  exact ⟨rfl, rfl, htext, by decide, by decide +kernel⟩

end Export

end SchemaBridge
