import SchemaBridge.Proofs.WrittenSections
/-!
# Annotations read back from their description

What a section holds comes back as it is quoted: on one line between ticks, or over several lines
between fences. Reading removes the indentation that all lines of a body share. That is the one
written, unless a blank line stands below the body, as it does below the last example if a default
value follows: then code of several lines keeps the indentation, and gets more of it each time it is
written and read again.

Results:
* `read_write`: the annotations that are read, section by section.
* `block_sectionBody`, `block_sectionBody_blank`: the code of a section with and without a blank line.
* `sections_survive`: the sections that are read are those that were written, and no text of
  one of them gets into another.
* `fenced_code_survives`: code of several lines comes back as it was fenced, except before a default value.
-/
namespace SchemaBridge.Description

open Text Model

/-! ## The bodies -/

theorem length_exampleSections (after : List Line) (es : List (List Char)) :
    (exampleSections after es).length = es.length := by
  induction es with
  | nil => rfl
  | cons v vs ih =>
    cases vs with
    | nil => rfl
    | cons w ws => simpa [exampleSections] using ih

theorem getElem?_exampleSections (after : List Line) {es : List (List Char)} {i : Nat} {v : List Char}
    (h : es[i]? = some v) : (exampleSections after es)[i]? = some (.example,
      if i + 1 = es.length then lines (trimEnd (sectionBody v)) ++ after else lines (sectionBody v)) := by
  induction es generalizing i with
  | nil => simp at h
  | cons w ws ih =>
    cases ws with
    | nil =>
      cases i with
      | zero => simp_all [exampleSections]
      | succ i => simp at h
    | cons x xs =>
      cases i with
      | zero => simp_all [exampleSections]
      | succ i =>
        have hi := ih (by simpa using h)
        simpa [exampleSections] using hi

theorem bodies_append (m : Marker) (ss rs : List (Marker × List Line)) :
    bodies m (ss ++ rs) = bodies m ss ++ bodies m rs := List.filterMap_append

theorem bodies_exampleSections (after : List Line) (es : List (List Char)) :
    bodies .example (exampleSections after es) = (exampleSections after es).map Prod.snd ∧
      bodies .default (exampleSections after es) = [] := by
  induction es with
  | nil => exact ⟨rfl, rfl⟩
  | cons v vs ih =>
    cases vs with
    | nil => exact ⟨rfl, rfl⟩
    | cons w ws =>
      refine ⟨?_, ih.2⟩
      have hrest := congrArg (lines (sectionBody v) :: ·) ih.1
      exact hrest

/-- What stands behind the last example: a blank line, if there is a default value. -/
def afterExamples (d : Option (List Char)) : List Line := if d.isSome then [[]] else []

theorem bodies_writtenSections (es : List (List Char)) (d : Option (List Char)) :
    bodies .example (writtenSections es d) = (exampleSections (afterExamples d) es).map Prod.snd ∧
      bodies .default (writtenSections es d)
        = d.toList.map fun v => lines (trimEnd (sectionBody v)) := by
  cases d with
  | none => exact bodies_exampleSections [] es
  | some v =>
    obtain ⟨hexample, hdefault⟩ := bodies_exampleSections [[]] es
    simp only [writtenSections, bodies_append, hexample, hdefault]
    exact ⟨List.append_nil _, rfl⟩

/-- The annotations that are read from what is written. -/
theorem read_write {a : Annotations} (h : UnmarkedText a) : read (some (write false a))
    = { description := nonEmpty? (trim (freeText a))
        examples := Examples.ofList ((exampleSections (afterExamples (defaultText? a)) (exampleTexts a)).map
          fun s => String.ofList (block s.2))
        default := (defaultText? a).bind fun v => nonEmpty? (block (lines (trimEnd (sectionBody v)))) } := by
  obtain ⟨preamble, hcut, hfree, hindent⟩ := cut_writeChars h
  obtain ⟨hexample, hdefault⟩ := bodies_writtenSections (exampleTexts a) (defaultText? a)
  have hpreamble : block preamble = trim (freeText a) := by rw [block, hindent, hfree]
  show readChars (String.ofList (writeChars false a)).toList = _
  rw [String.toList_ofList]
  simp only [readChars, hcut, hexample, hdefault, hpreamble, List.map_map]
  cases defaultText? a with
  | none => rfl
  | some v => simp [Function.comp_def]

/-! ## The code of a section -/

theorem tick_mem_block {ls : List Line} {l : Line} (hl : l ∈ ls) (htick : tick ∈ l) :
    tick ∈ block ls := by
  obtain ⟨m, hm, hm'⟩ := exists_mem_unindent (by decide) (by decide) hl htick
  exact mem_trim (mem_unlines hm hm') isBlank_tick

/-- Whatever the code is, something is left of it. -/
theorem block_trimEnd_sectionBody_ne_nil (v : List Char) :
    block (lines (trimEnd (sectionBody v))) ≠ [] := by
  have htick : tick ∈ trimEnd (sectionBody v) := mem_trimEnd (tick_mem_sectionBody v) isBlank_tick
  obtain ⟨l, hl, hl'⟩ := (mem_iff_exists_line (by decide)).mp htick
  exact List.ne_nil_of_mem (tick_mem_block hl hl')

theorem trim_between_ticks (t : List Char) : trim (tick :: t ++ [tick]) = tick :: t ++ [tick] := by
  have hstart : trimStart (tick :: t ++ [tick]) = tick :: t ++ [tick] := trimStart_cons isBlank_tick _
  rw [trim, hstart, trimEnd_concat _ isBlank_tick]

section
variable {v : List Char}

theorem quoteCode_inline (htick : tick ∉ v) (hnl : '\n' ∉ v) : quoteCode v = tick :: v ++ [tick] := by
  rw [quoteCode, if_neg htick, if_neg hnl]

theorem quoteCode_fenced (htick : tick ∉ v) (hnl : '\n' ∈ v) :
    quoteCode v = fence ++ '\n' :: (v ++ '\n' :: fence) := by
  rw [quoteCode, if_neg htick, if_pos hnl]
  simp

theorem exists_quoteCode (htick : tick ∉ v) : ∃ t, quoteCode v = tick :: t ++ [tick] := by
  by_cases hnl : '\n' ∈ v
  · refine ⟨tick :: tick :: '\n' :: v ++ '\n' :: [tick, tick], ?_⟩
    rw [quoteCode_fenced htick hnl]
    simp [fence]
  · exact ⟨v, quoteCode_inline htick hnl⟩

/-- Quoted code has no blank end, indented or not. -/
theorem trimEnd_sectionBody (htick : tick ∉ v) : trimEnd (sectionBody v) = sectionBody v := by
  obtain ⟨t, ht⟩ := exists_quoteCode htick
  rw [sectionBody, ht, indent_concat _ (by decide), trimEnd_concat _ isBlank_tick]

/-- Without a blank line below it, quoted code comes back as it was quoted. -/
theorem block_sectionBody (htick : tick ∉ v) : block (lines (sectionBody v)) = quoteCode v := by
  obtain ⟨t, ht⟩ := exists_quoteCode htick
  have hstart : (quoteCode v).head? ≠ some ' ' := by
    rw [ht]
    exact fun h => absurd (Option.some.inj h) (by decide)
  rw [block, sectionBody, unindent_lines_indent hstart, unlines_lines, ht, trim_between_ticks]

/-- With a blank line below it, no indentation is removed. -/
theorem block_sectionBody_blank (v : List Char) :
    block (lines (sectionBody v) ++ [[]]) = trim (sectionBody v) := by
  have hempty : unindent (lines (sectionBody v) ++ [[]]) = lines (sectionBody v) ++ [[]] :=
    unindent_of_empty_line (List.mem_append_right _ List.mem_cons_self)
  rw [block, hempty, unlines_append (lines_ne_nil _) (by simp), unlines_lines]
  exact trim_append_of_blank _ rfl

theorem trim_sectionBody_inline (htick : tick ∉ v) (hnl : '\n' ∉ v) :
    trim (sectionBody v) = tick :: v ++ [tick] := by
  have hline : '\n' ∉ tick :: v ++ [tick] := by
    simp only [List.mem_append, List.mem_cons, List.not_mem_nil, or_false, not_or]
    exact ⟨⟨by decide, hnl⟩, by decide⟩
  rw [sectionBody, quoteCode_inline htick hnl, indent_of_not_mem hline, trim_of_blank_append (by decide),
    trim_between_ticks]

theorem trim_sectionBody_fenced (htick : tick ∉ v) (hnl : '\n' ∈ v) :
    trim (sectionBody v) = fence ++ '\n' :: indent (v ++ '\n' :: fence) := by
  have hfence : indent fence = indentStep ++ fence := indent_of_not_mem (by decide)
  obtain ⟨t, ht⟩ : ∃ t, fence ++ '\n' :: indent (v ++ '\n' :: fence) = tick :: t ++ [tick] := by
    refine ⟨tick :: tick :: '\n' :: indent v ++ '\n' :: indentStep ++ [tick, tick], ?_⟩
    rw [indent_append_newline, hfence]
    simp [fence]
  rw [sectionBody, quoteCode_fenced htick hnl, indent_append_newline, hfence, List.append_assoc,
    trim_of_blank_append (by decide), ht, trim_between_ticks]

end

/-! ## Values in their places -/

/-- Code on one line, without a tick. -/
def IsInline (v : String) : Prop := tick ∉ v.toList ∧ '\n' ∉ v.toList

/-- Code of several lines, without a tick. -/
def IsFenced (v : String) : Prop := tick ∉ v.toList ∧ '\n' ∈ v.toList

def inlineCode (v : String) : String := String.ofList (tick :: v.toList ++ [tick])

/-- The lines of code between two fences. -/
def fencedCode (v : String) : String := String.ofList (unlines (fence :: lines v.toList ++ [fence]))

/-- The lines of code between two fences, all but the first of them indented. -/
def indentedCode (v : String) : String :=
  String.ofList (unlines (fence :: (lines v.toList ++ [fence]).map (indentStep ++ ·)))

section
variable {v : String}

theorem fencedCode_eq (h : IsFenced v) : String.ofList (quoteCode v.toList) = fencedCode v := by
  rw [fencedCode, quoteCode_fenced h.1 h.2, List.cons_append, unlines, joinWith_cons _ _ (by simp)]
  have hrest : unlines (lines v.toList ++ [fence]) = v.toList ++ '\n' :: fence := by
    rw [unlines_append (lines_ne_nil _) (by simp), unlines_lines]
    rfl
  rw [unlines] at hrest
  rw [hrest, List.append_assoc]
  rfl

theorem indentedCode_eq (h : IsFenced v) :
    String.ofList (trim (sectionBody v.toList)) = indentedCode v := by
  have hlines : lines (v.toList ++ '\n' :: fence) = lines v.toList ++ [fence] := by
    rw [lines_append_newline, lines_of_not_mem (t := fence) (by decide)]
  rw [indentedCode, trim_sectionBody_fenced h.1 h.2, indent, hlines, unlines, unlines,
    joinWith_cons _ _ (by simp), List.append_assoc]
  rfl

end

section
variable {a : Annotations}

theorem exampleList_read (h : UnmarkedText a) : (read (some (write false a))).exampleList
    = (exampleSections (afterExamples (defaultText? a)) (exampleTexts a)).map
      fun s => String.ofList (block s.2) := by
  rw [read_write h]
  exact Examples.toList_ofList _

theorem length_exampleList_read (h : UnmarkedText a) :
    (read (some (write false a))).exampleList.length = a.exampleList.length := by
  rw [exampleList_read h, List.length_map, length_exampleSections, exampleTexts, List.length_map]

/-- An example is read from its body, behind which there are further lines if it is the last one. -/
theorem getElem?_map_exampleSections (after : List Line) {i : Nat} {v : String}
    (hv : a.exampleList[i]? = some v) :
    ((exampleSections after (exampleTexts a)).map fun s => String.ofList (block s.2))[i]?
      = some (String.ofList (block (if i + 1 = a.exampleList.length
          then lines (trimEnd (sectionBody v.toList)) ++ after else lines (sectionBody v.toList)))) := by
  have htext : (exampleTexts a)[i]? = some v.toList := by simp [exampleTexts, hv]
  have hlength : (exampleTexts a).length = a.exampleList.length := List.length_map _
  rw [List.getElem?_map, getElem?_exampleSections _ htext, hlength]
  rfl

/-- An example without a tick is read from its body, which ends in a blank line if it is the last one
and a default value follows. -/
theorem getElem?_exampleList_read (h : UnmarkedText a) {i : Nat} {v : String}
    (hv : a.exampleList[i]? = some v) (htick : tick ∉ v.toList) :
    (read (some (write false a))).exampleList[i]? = some (String.ofList (block
      (lines (sectionBody v.toList)
        ++ if i + 1 = a.exampleList.length then afterExamples (defaultText? a) else []))) := by
  rw [exampleList_read h, getElem?_map_exampleSections _ hv, trimEnd_sectionBody htick]
  split
  · rfl
  · rw [List.append_nil]

theorem default_read (h : UnmarkedText a) {v : String} (hv : a.default = some v)
    (htick : tick ∉ v.toList) :
    (read (some (write false a))).default = some (String.ofList (quoteCode v.toList)) := by
  have hne : quoteCode v.toList ≠ [] := List.ne_nil_of_mem (tick_mem_quoteCode v.toList)
  rw [read_write h, defaultText?, hv]
  simp only [Option.map_some, Option.bind_some, trimEnd_sectionBody htick, block_sectionBody htick,
    nonEmpty?, if_neg hne]

theorem default_isSome_read (h : UnmarkedText a) :
    (read (some (write false a))).default.isSome = a.default.isSome := by
  rw [read_write h, defaultText?]
  cases a.default with
  | none => rfl
  | some v => simp [nonEmpty?, block_trimEnd_sectionBody_ne_nil]

/-! ## Sections apart -/

theorem trimEnd_unlines_after (t : List Char) (d : Option (List Char)) :
    trimEnd (unlines (lines t ++ afterExamples d)) = trimEnd t := by
  cases d with
  | none => rw [afterExamples, Option.isSome_none, if_neg (by simp), List.append_nil, unlines_lines]
  | some v =>
    rw [afterExamples, Option.isSome_some, if_pos rfl, unlines_append (lines_ne_nil t) (by simp),
      unlines_lines]
    exact trimEnd_append_of_blank t rfl

/-- Each section has the code of its own value below the marker, and blanks behind it at most. -/
theorem writtenSections_trimmed (es : List (List Char)) (d : Option (List Char)) :
    (writtenSections es d).map (fun s => (s.1, trimEnd (unlines s.2)))
      = es.map (fun v => (Marker.example, trimEnd (sectionBody v)))
        ++ d.toList.map fun v => (Marker.default, trimEnd (sectionBody v)) := by
  have hexamples : (exampleSections (afterExamples d) es).map (fun s => (s.1, trimEnd (unlines s.2)))
      = es.map fun v => (Marker.example, trimEnd (sectionBody v)) := by
    induction es with
    | nil => rfl
    | cons v vs ih =>
      cases vs with
      | nil => simp [exampleSections, trimEnd_unlines_after, trimEnd_trimEnd]
      | cons w ws =>
        have hfirst : trimEnd (unlines (lines (sectionBody v))) = trimEnd (sectionBody v) := by
          rw [unlines_lines]
        rw [exampleSections, List.map_cons, ih, hfirst]
        rfl
  cases d with
  | none =>
    rw [Option.toList_none, List.map_nil, List.append_nil]
    exact hexamples
  | some v =>
    have hdefault : trimEnd (unlines (lines (trimEnd (sectionBody v)))) = trimEnd (sectionBody v) := by
      rw [unlines_lines, trimEnd_trimEnd]
    rw [writtenSections, List.map_append, List.map_singleton, hdefault]
    exact congrArg (· ++ _) hexamples

/-- What reading a written description gives back of the annotations. -/
structure SectionsSurvive (a r : Annotations) : Prop where
  title : r.title = none
  comment : r.comment = none
  description : r.description = nonEmpty? (trim (freeText a))
  count : r.exampleList.length = a.exampleList.length
  one_iff : (∃ e, r.examples = some (.one e)) ↔ a.exampleList.length = 1
  none_iff : r.examples = none ↔ a.exampleList = []
  default_iff : r.default.isSome = a.default.isSome
  inlineExample : ∀ (i : Nat) (v : String), a.exampleList[i]? = some v → IsInline v →
    r.exampleList[i]? = some (inlineCode v)
  inlineDefault : ∀ v : String, a.default = some v → IsInline v → r.default = some (inlineCode v)

/-- What the cut of a written description says of the annotations: each section is that of one value,
with its marker and its code, and the lines before the first section are the free text. -/
structure SectionsApart (a : Annotations) (t : List Char) : Prop where
  freeText : trim (unlines (cut (lines t)).1) = trim (freeText a)
  sections : (cut (lines t)).2.map (fun s => (s.1, trimEnd (unlines s.2)))
    = (exampleTexts a).map (fun v => (Marker.example, trimEnd (sectionBody v)))
      ++ (defaultText? a).toList.map fun v => (Marker.default, trimEnd (sectionBody v))

theorem inline_read (h : UnmarkedText a) {i : Nat} {v : String} (hv : a.exampleList[i]? = some v)
    (hinline : IsInline v) : (read (some (write false a))).exampleList[i]? = some (inlineCode v) := by
  have hcode := block_sectionBody hinline.1
  rw [quoteCode_inline hinline.1 hinline.2] at hcode
  have hblank := block_sectionBody_blank v.toList
  rw [trim_sectionBody_inline hinline.1 hinline.2] at hblank
  rw [getElem?_exampleList_read h hv hinline.1]
  unfold afterExamples inlineCode
  split
  · split
    · rw [hblank]
    · rw [List.append_nil, hcode]
  · rw [List.append_nil, hcode]

/-- **The sections of a description survive**, whatever text stands in examples and default value: of
each the reader finds one section with its own code, so that none is opened, closed or entered by the
text of another; and code on one line comes back between ticks. -/
theorem sections_survive (h : UnmarkedText a) :
    SectionsSurvive a (read (some (write false a))) ∧ SectionsApart a (writeChars false a) := by
  have hcount := length_exampleList_read h
  have hexamples : (read (some (write false a))).examples
      = Examples.ofList (read (some (write false a))).exampleList := by
    rw [exampleList_read h, read_write h]
  refine ⟨⟨?_, ?_, ?_, hcount, ?_, ?_, default_isSome_read h, ?_, ?_⟩, ?_⟩
  · rw [read_write h]
  · rw [read_write h]
  · rw [read_write h]
  · rw [hexamples, Examples.ofList_eq_one_iff, hcount]
  · rw [hexamples, Examples.ofList_eq_none_iff, ← List.length_eq_zero_iff, hcount,
      List.length_eq_zero_iff]
  · intro i v hv hinline
    exact inline_read h hv hinline
  · intro v hv hinline
    rw [default_read h hv hinline.1, quoteCode_inline hinline.1 hinline.2, inlineCode]
  · obtain ⟨preamble, hcut, hfree, -⟩ := cut_writeChars h
    refine ⟨?_, ?_⟩
    · rw [hcut, hfree]
    · rw [hcut, writtenSections_trimmed]

/-- Values that look like markers, in sections and in the free text. -/
def markerLookalikes : Annotations :=
  { title := some "Size"
    description := some " \n# examples\n  # default \n"
    examples := some (.many ["# default", "\n# example\n", "\x60\n# default\n ", ""])
    default := some "## example" }

theorem markerLookalikes_unmarked : UnmarkedText markerLookalikes := by decide +kernel

theorem sections_survive_markerLookalikes :
    UnmarkedText markerLookalikes ∧
      SectionsSurvive markerLookalikes (read (some (write false markerLookalikes))) ∧
      SectionsApart markerLookalikes (writeChars false markerLookalikes) ∧
      (read (some (write false markerLookalikes))).exampleList[0]? = some "\x60# default\x60" ∧
      (read (some (write false markerLookalikes))).exampleList[3]? = some "\x60\x60" ∧
      (read (some (write false markerLookalikes))).default = some "\x60## example\x60" := by
  have hkept := sections_survive markerLookalikes_unmarked
  refine ⟨markerLookalikes_unmarked, hkept.1, hkept.2, ?_, ?_, ?_⟩
  · exact hkept.1.inlineExample 0 "# default" rfl ⟨by decide, by decide⟩
  · exact hkept.1.inlineExample 3 "" rfl ⟨by decide, by decide⟩
  · exact hkept.1.inlineDefault "## example" rfl ⟨by decide, by decide⟩

/-! ## Code of several lines -/

/-- An example of two lines with a default value behind it. -/
def beforeDefault : Annotations := { examples := some (.one "a\nb"), default := some "c" }

theorem beforeDefault_unmarked : UnmarkedText beforeDefault := by decide +kernel

/-- The lines of the example come back with the indentation that they were written with. -/
theorem last_example_gains_indentation :
    ¬ ∀ a : Annotations, UnmarkedText a → ∀ (i : Nat) (v : String), a.exampleList[i]? = some v →
      IsFenced v → (read (some (write false a))).exampleList[i]? = some (fencedCode v) := by
  intro hall
  have hkept := hall beforeDefault beforeDefault_unmarked 0 "a\nb" rfl ⟨by decide, by decide⟩
  have hread : (read (some (write false beforeDefault))).exampleList[0]? = some (indentedCode "a\nb") := by
    decide +kernel
  rw [hread] at hkept
  exact absurd hkept (by decide +kernel)

/-- **Code of several lines survives**, as default value, and as example unless it is the last one
and a default value follows; the last example before a default value comes back with all lines behind the
first indented. -/
theorem fenced_code_survives (h : UnmarkedText a) :
    (∀ v, a.default = some v → IsFenced v →
      (read (some (write false a))).default = some (fencedCode v)) ∧
    ∀ (i : Nat) (v : String), a.exampleList[i]? = some v → IsFenced v →
      (i + 1 < a.exampleList.length ∨ a.default = none →
        (read (some (write false a))).exampleList[i]? = some (fencedCode v)) ∧
      (i + 1 = a.exampleList.length → a.default ≠ none →
        (read (some (write false a))).exampleList[i]? = some (indentedCode v)) := by
  refine ⟨?_, ?_⟩
  · intro v hv hfenced
    rw [default_read h hv hfenced.1, fencedCode_eq hfenced]
  · intro i v hv hfenced
    rw [getElem?_exampleList_read h hv hfenced.1]
    refine ⟨?_, ?_⟩
    · intro hplace
      have hnone : (if i + 1 = a.exampleList.length then afterExamples (defaultText? a) else []) = [] := by
        rcases hplace with hlt | hdefault
        · exact if_neg (Nat.ne_of_lt hlt)
        · simp [afterExamples, defaultText?, hdefault]
      rw [hnone, List.append_nil, block_sectionBody hfenced.1, fencedCode_eq hfenced]
    · intro hlast hdefault
      have hblank : afterExamples (defaultText? a) = [[]] := by
        rw [← Option.isSome_iff_ne_none] at hdefault
        simp [afterExamples, defaultText?, hdefault]
      rw [if_pos hlast, hblank, block_sectionBody_blank, indentedCode_eq hfenced]

theorem fenced_code_survives_beforeDefault :
    UnmarkedText beforeDefault ∧ IsFenced "a\nb" ∧
      (read (some (write false beforeDefault))).exampleList[0]? = some (indentedCode "a\nb") ∧
      (read (some (write false { beforeDefault with default := some "a\nb" }))).default
        = some (fencedCode "a\nb") ∧
      (read (some (write false { beforeDefault with default := none }))).exampleList[0]?
        = some (fencedCode "a\nb") := by
  have hfenced : IsFenced "a\nb" := ⟨by decide, by decide⟩
  have hunmarked : ∀ d, UnmarkedText { beforeDefault with default := d } :=
    fun _ => beforeDefault_unmarked
  refine ⟨beforeDefault_unmarked, hfenced, ?_, ?_, ?_⟩
  · exact ((fenced_code_survives beforeDefault_unmarked).2 0 "a\nb" rfl hfenced).2 rfl (by decide)
  · exact (fenced_code_survives (hunmarked _)).1 "a\nb" rfl hfenced
  · exact ((fenced_code_survives (hunmarked none)).2 0 "a\nb" rfl hfenced).1 (.inr rfl)

end

end SchemaBridge.Description
