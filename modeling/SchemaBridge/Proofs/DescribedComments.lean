import SchemaBridge.Proofs.SectionRoundTrip
/-!
# Comments in a description

A comment that goes into a description is written at the end of it as plain text. A reader counts
what is no marker to the section that is open, so the comment joins the last section: the default
value, or else the last example. All other sections are read as without the comment, and so is the
one that it joins, above the comment and but for blanks in front of lines and at the ends.

Blanks at the end of a description are trimmed, and a line may become a marker by that, as the line
`# example ` does; blanks in front of a comment are trimmed only where it stands alone. So the comment
is asked to hold no marker once its end is trimmed, and none once it is trimmed where it stands alone.

Results:
* `outdented_block`: what a block makes of a text, but for blanks in front of lines and at the ends.
* `outdented_append_newline_ne`: text below another makes a difference.
* `unmarked_blank_append`: blanks in front of a text make no line of it a marker.
* `lines_sections_append`: the lines of sections with further lines behind them.
* `block_commented`: the code of a section that a comment has joined.
* `read_uncommented`, `read_commented_alone`, `read_commented`: the annotations that are read with a
  blank comment, with a comment where there is no section, and with a comment behind sections.
* `lastDefault_joined`, `lastExample_joined`: the value that the comment joins.
* `comment_joins_last_section`: what the comment changes of the examples and the default value.
-/
namespace SchemaBridge

/-! ## Blanks in front of lines -/

namespace Text

theorem allBlank_unlines (ls : List Line) : allBlank (unlines ls) = ls.all allBlank := by
  induction ls with
  | nil => rfl
  | cons l ls ih =>
    cases ls with
    | nil => simp [unlines]
    | cons m ms =>
      have hnl : allBlank ['\n'] = true := rfl
      rw [unlines, joinWith_cons _ _ (by simp), allBlank_append, allBlank_append, hnl, Bool.and_true,
        ← unlines, ih]
      rfl

/-- A text without the blanks in front of its lines. -/
def outdent (t : List Char) : List Char := unlines ((lines t).map trimStart)

theorem allBlank_outdent (t : List Char) : allBlank (outdent t) = allBlank t := by
  have hlines : allBlank t = (lines t).all allBlank := by
    rw [← allBlank_unlines, unlines_lines]
  rw [outdent, allBlank_unlines, List.all_map, hlines]
  exact congrArg (lines t).all (funext allBlank_trimStart)

theorem outdent_append_newline (s t : List Char) :
    outdent (s ++ '\n' :: t) = outdent s ++ '\n' :: outdent t := by
  rw [outdent, lines_append_newline, List.map_append,
    unlines_append (by simp [lines_ne_nil]) (by simp [lines_ne_nil]), outdent, outdent]

/-- A text without the blanks in front of its lines and at its ends. -/
def outdented (t : List Char) : List Char := trim (outdent t)

theorem outdented_cons {c : Char} (hc : isBlank c = true) (t : List Char) :
    outdented (c :: t) = outdented t := by
  by_cases hnl : c = '\n'
  · subst hnl
    rw [outdented, ← List.nil_append ('\n' :: t), outdent_append_newline]
    exact trim_of_blank_append (s := ['\n']) rfl _
  · obtain ⟨l, ls, ht, hct⟩ := lines_cons hnl t
    have hl : trimStart (c :: l) = trimStart l :=
      trimStart_of_blank_append (s := [c]) (by simp [allBlank, hc]) l
    rw [outdented, outdent, hct, List.map_cons, hl, ← List.map_cons, ← ht, ← outdent, outdented]

theorem outdented_concat {c : Char} (hc : isBlank c = true) (t : List Char) :
    outdented (t ++ [c]) = outdented t := by
  have hblank : allBlank [c] = true := by simp [allBlank, hc]
  by_cases hnl : c = '\n'
  · subst hnl
    rw [outdented, outdent_append_newline]
    exact trim_append_of_blank _ rfl
  · obtain ⟨ls, l, m, ms, ht, hm, happend⟩ := lines_append t [c]
    rw [lines_of_not_mem (by simpa using Ne.symm hnl)] at hm
    obtain ⟨rfl, rfl⟩ := List.cons.inj hm
    rw [outdented, outdent, happend, outdented, outdent, ht, List.map_append, List.map_append,
      List.map_singleton, List.map_singleton]
    cases hl : allBlank l with
    | true =>
      rw [trimStart_of_blank_append hl, trimStart_eq_nil_iff.mpr hl, trimStart_eq_nil_iff.mpr hblank]
    | false =>
      rw [trimStart_append hl]
      cases ls with
      | nil => exact trim_append_of_blank _ hblank
      | cons k ks =>
        rw [unlines_append (by simp) (by simp), unlines_append (by simp) (by simp)]
        have hend := trim_append_of_blank
          (unlines ((k :: ks).map trimStart) ++ '\n' :: trimStart l) hblank
        rwa [List.append_assoc] at hend

theorem outdented_of_blank_append {u : List Char} (h : allBlank u = true) (t : List Char) :
    outdented (u ++ t) = outdented t := by
  induction u with
  | nil => rfl
  | cons c cs ih =>
    obtain ⟨hc, hcs⟩ : isBlank c = true ∧ allBlank cs = true := by simpa [allBlank] using h
    rw [List.cons_append, outdented_cons hc, ih hcs]

theorem outdented_append_of_blank (t : List Char) {u : List Char} (h : allBlank u = true) :
    outdented (t ++ u) = outdented t := by
  induction u generalizing t with
  | nil => rw [List.append_nil]
  | cons c cs ih =>
    obtain ⟨hc, hcs⟩ : isBlank c = true ∧ allBlank cs = true := by simpa [allBlank] using h
    rw [List.append_cons, ih _ hcs, outdented_concat hc]

theorem outdented_trimStart (t : List Char) : outdented (trimStart t) = outdented t := by
  have hfront := outdented_of_blank_append (u := t.takeWhile isBlank) List.all_takeWhile (trimStart t)
  rw [← hfront, takeWhile_append_trimStart]

theorem outdented_trimEnd (t : List Char) : outdented (trimEnd t) = outdented t := by
  obtain ⟨u, hu, hsplit⟩ := exists_trimEnd_append t
  rw [← outdented_append_of_blank (trimEnd t) hu, hsplit]

/-- The indentation that lines share is in front of them. -/
theorem outdented_unindent_lines (t : List Char) :
    outdented (unlines (unindent (lines t))) = outdented t := by
  cases h : indentChar? (lines t) with
  | none => rw [unindent_of_unmarked h, unlines_lines]
  | some c =>
    have hblank : isBlank c = true := by
      rcases eq_of_indentChar? h with rfl | rfl
      · decide
      · decide
    have hrun : ∀ (n : Nat) (l : Line), trimStart (List.replicate n c ++ l) = trimStart l :=
      fun n l => trimStart_of_blank_append (by simp [allBlank, hblank]) l
    have hsplit := append_unindent h
    have hne : unindent (lines t) ≠ [] := by
      intro hnil
      rw [hnil] at hsplit
      exact lines_ne_nil t hsplit.symm
    have hnl : ∀ l ∈ unindent (lines t), '\n' ∉ l := by
      intro l hl hmem
      have hline := List.mem_map_of_mem (f := (List.replicate (commonRun c (lines t)) c ++ ·)) hl
      rw [hsplit] at hline
      exact newline_not_mem_of_mem_lines hline (List.mem_append_right _ hmem)
    have hlines := congrArg (List.map trimStart) hsplit
    rw [List.map_map] at hlines
    simp only [Function.comp_def, hrun] at hlines
    rw [outdented, outdent, lines_unlines hne hnl, hlines, ← outdent, outdented]

/-- Text below another makes a difference. -/
theorem outdented_append_newline_ne (s : List Char) {t : List Char} (ht : allBlank t = false) :
    outdented (s ++ '\n' :: t) ≠ outdented s := by
  have hbelow : allBlank ('\n' :: outdent t) = false := (allBlank_outdent t).trans ht
  intro heq
  rw [outdented, outdent_append_newline, outdented] at heq
  cases hs : allBlank (outdent s) with
  | true =>
    rw [trim_of_blank_append hs, trim_eq_nil_iff.mpr hs, trim_eq_nil_iff, hbelow] at heq
    cases heq
  | false =>
    obtain ⟨u, -, hsplit⟩ := exists_trimEnd_append (trimStart (outdent s))
    have hlonger : trimEnd (trimStart (outdent s)) ++ (u ++ trimEnd ('\n' :: outdent t))
        = trimEnd (trimStart (outdent s)) := by
      rw [← List.append_assoc, hsplit, ← trim, ← heq, trim_append hs hbelow]
    have hnil := (List.append_eq_nil_iff.mp (List.append_right_eq_self.mp hlonger)).2
    rw [trimEnd_eq_nil_iff, hbelow] at hnil
    cases hnil

end Text

namespace Description

open Text Model

/-- A block keeps its text but for blanks in front of lines and at the ends. -/
theorem outdented_block (t : List Char) : outdented (block (lines t)) = outdented t := by
  rw [block, trim, outdented_trimEnd, outdented_trimStart, outdented_unindent_lines]

/-! ## Comments behind paragraphs -/

/-- Blanks in front of a text make no line of it a marker. -/
theorem unmarked_blank_append {s u : List Char} (h : Unmarked (lines s)) (hu : allBlank u = true) :
    Unmarked (lines (u ++ s)) := by
  intro l hl
  obtain ⟨ls, k, m, ms, hulines, hslines, happend⟩ := lines_append u s
  have hblank : ∀ l ∈ ls ++ [k], allBlank l = true := by
    rw [← hulines]
    exact fun l hl => allBlank_of_mem_lines hl hu
  rw [happend, List.mem_append, List.mem_cons] at hl
  rcases hl with hl | rfl | hl
  · exact marker?_of_blank (hblank l (List.mem_append_left _ hl))
  · have hk := hblank k (List.mem_append_right _ List.mem_cons_self)
    cases k with
    | nil => exact h m (by rw [hslines]; exact List.mem_cons_self)
    | cons c cs =>
      apply marker?_of_head
      intro hhead
      obtain rfl : c = '#' := Option.some.inj hhead
      exact absurd (List.all_eq_true.mp hk _ List.mem_cons_self) (by decide)
  · exact h l (by rw [hslines]; exact List.mem_cons_of_mem _ hl)

theorem paragraphs_concat_of_nil {ts : List (List Char)} (h : paragraphs ts = []) (t : List Char) :
    paragraphs (ts ++ [t]) = t := by
  rw [paragraphs, List.filter_append, filter_eq_nil_of_paragraphs h]
  exact paragraphs_cons_of_nil t rfl

theorem paragraphs_concat {ts : List (List Char)} {t : List Char} (hts : paragraphs ts ≠ [])
    (ht : t ≠ []) : paragraphs (ts ++ [t]) = paragraphs ts ++ '\n' :: '\n' :: t := by
  induction ts with
  | nil => exact absurd rfl hts
  | cons u us ih =>
    by_cases hu : u = []
    · rw [hu, List.cons_append, paragraphs_nil_cons, paragraphs_nil_cons]
      exact ih (by rwa [hu, paragraphs_nil_cons] at hts)
    · by_cases hus : paragraphs us = []
      · have hlast := paragraphs_concat_of_nil hus t
        rw [List.cons_append, paragraphs_cons hu (by rwa [hlast]), hlast, paragraphs_cons_of_nil u hus]
      · have hmore := ih hus
        rw [List.cons_append, paragraphs_cons hu (by rw [hmore]; simp [hus]), hmore,
          paragraphs_cons hu hus]
        simp

theorem trim_paragraphs_concat_of_blank (ts : List (List Char)) {t : List Char}
    (h : allBlank t = true) : trim (paragraphs (ts ++ [t])) = trim (paragraphs ts) := by
  by_cases ht : t = []
  · rw [ht, paragraphs, List.filter_append]
    simp [paragraphs]
  · by_cases hts : paragraphs ts = []
    · rw [paragraphs_concat_of_nil hts, hts, trim_eq_nil_iff.mpr h]
      rfl
    · rw [paragraphs_concat hts ht]
      exact trim_append_of_blank _ h

/-! ## Comments behind sections -/

/-- The sections with further lines behind the last of them. -/
def sectionsBefore (after : List Line) (es : List (List Char)) :
    Option (List Char) → List (Marker × List Line)
  | none => exampleSections after es
  | some v => exampleSections [[]] es ++ [(.default, lines (sectionBody v) ++ after)]

section
variable {after : List Line} {es : List (List Char)} {d : Option (List Char)}

theorem unmarked_sectionsBefore (h : Unmarked after) : ∀ s ∈ sectionsBefore after es d, Unmarked s.2 := by
  intro s hs
  cases d with
  | none => exact unmarked_exampleSections h es s hs
  | some v =>
    rcases List.mem_append.mp hs with hs | hs
    · exact unmarked_exampleSections (by simp [Unmarked, marker?]) es s hs
    · obtain rfl := List.mem_singleton.mp hs
      intro l hl
      exact (List.mem_append.mp hl).elim (unmarked_sectionBody v l) (h l)

/-- If there are sections, the text of them starts with a marker. -/
theorem exists_paragraphs_sectionParts (h : es ≠ [] ∨ d ≠ none) :
    ∃ m t, paragraphs (sectionParts es d) = Marker.line m ++ t := by
  rcases lines_sectionParts es d with ⟨-, hnone⟩ | ⟨hmarker, -⟩
  · exfalso
    have hlength := congrArg List.length hnone
    cases d with
    | none =>
      rw [writtenSections, length_exampleSections] at hlength
      exact h.elim (fun hes => hes (List.eq_nil_of_length_eq_zero hlength)) fun hd => hd rfl
    | some v => simp [writtenSections] at hlength
  · exact hmarker

theorem lines_sections_append (after : List Line) (h : es ≠ [] ∨ d ≠ none) :
    lines (paragraphs (sectionParts es d)) ++ after = layout (sectionsBefore after es d) := by
  cases d with
  | none => rw [paragraphs_none, lines_writeExamples after (h.resolve_right (not_not_intro rfl))]; rfl
  | some v =>
    have hdefault : lines (writeSection .default v) ++ after
        = layout [(.default, lines (sectionBody v) ++ after)] := by
      rw [writeSection_eq, lines_line_newline]
      simp [layout]
    by_cases hes : es = []
    · rw [hes, paragraphs_nil_some, hdefault]
      rfl
    · calc lines (paragraphs (sectionParts es (some v))) ++ after
          = (lines (writeExamples es) ++ [[]]) ++ (lines (writeSection .default v) ++ after) := by
            rw [paragraphs_some hes, lines_append_newline, lines_newline]
            simp
        _ = layout (sectionsBefore after es (some v)) := by
            rw [lines_writeExamples [[]] hes, hdefault, ← layout_append]
            rfl

theorem bodies_sectionsBefore (after : List Line) (es : List (List Char)) (d : Option (List Char)) :
    bodies .example (sectionsBefore after es d)
        = (exampleSections (if d.isSome then [[]] else after) es).map Prod.snd ∧
      bodies .default (sectionsBefore after es d)
        = d.toList.map fun v => lines (sectionBody v) ++ after := by
  cases d with
  | none => exact bodies_exampleSections after es
  | some v =>
    obtain ⟨hexample, hdefault⟩ := bodies_exampleSections [[]] es
    simp only [sectionsBefore, bodies_append, hexample, hdefault]
    exact ⟨List.append_nil _, rfl⟩

end

/-- The lines that a comment adds to a section. -/
def commentLines (c : List Char) : List Line := [] :: lines (trimEnd c)

section
variable {c : List Char} (t : List Char)

theorem unlines_commentLines : unlines (lines t ++ commentLines c) = t ++ '\n' :: '\n' :: trimEnd c := by
  have hlines : unlines (commentLines c) = '\n' :: trimEnd c := by
    rw [commentLines, unlines, joinWith_cons _ _ (lines_ne_nil _), ← unlines, unlines_lines]
    rfl
  rw [unlines_append (lines_ne_nil t) (by simp [commentLines]), unlines_lines, hlines]

variable {t}

/-- Code with a comment behind it keeps its indentation. -/
theorem block_commented (ht : allBlank t = false) (hc : allBlank c = false) :
    block (lines t ++ commentLines c) = trimStart t ++ '\n' :: '\n' :: trimEnd c := by
  have hempty : unindent (lines t ++ commentLines c) = lines t ++ commentLines c :=
    unindent_of_empty_line (List.mem_append_right _ List.mem_cons_self)
  have hcomment : allBlank (trimEnd c) = false := by
    rw [← Bool.not_eq_true, ← trimEnd_eq_nil_iff, trimEnd_trimEnd, trimEnd_eq_nil_iff, hc]
    exact Bool.false_ne_true
  have hbreak : allBlank ('\n' :: '\n' :: trimEnd c) = false := hcomment
  have hend : trimEnd ('\n' :: '\n' :: trimEnd c) = '\n' :: '\n' :: trimEnd c := by
    have := trimEnd_append ['\n', '\n'] hcomment
    rwa [trimEnd_trimEnd] at this
  rw [block, hempty, unlines_commentLines, trim_append ht hbreak, hend]

end

/-! ## The annotations that are read -/

section
variable {a : Annotations}

/-- There is an example or a default value. -/
def HasSections (a : Annotations) : Prop := a.exampleList ≠ [] ∨ a.default ≠ none

/-- No line of the comment is a marker, blanks at its end aside. Where it stands alone the blanks in
front of it are trimmed as well, and still no line is a marker. -/
structure UnmarkedComment (a : Annotations) : Prop where
  behind : Unmarked (lines (trimEnd (commentText a)))
  alone : allBlank (freeText a) = true → ¬HasSections a → Unmarked (lines (trim (commentText a)))

/-- Wherever it stands, it is enough that no line of the trimmed comment is a marker. -/
theorem UnmarkedComment.of_trim (h : Unmarked (lines (trim (commentText a)))) : UnmarkedComment a := by
  refine ⟨?_, fun _ _ => h⟩
  rw [← takeWhile_append_trimStart (trimEnd (commentText a)), trimStart_trimEnd]
  exact unmarked_blank_append h List.all_takeWhile

theorem HasSections.texts (h : HasSections a) : exampleTexts a ≠ [] ∨ defaultText? a ≠ none := by
  simpa [HasSections, exampleTexts, defaultText?] using h

theorem texts_of_no_sections (h : ¬HasSections a) : exampleTexts a = [] ∧ defaultText? a = none := by
  simpa [HasSections, exampleTexts, defaultText?] using h

/-- A blank comment is as good as none. -/
theorem read_uncommented (hc : allBlank (commentText a) = true) :
    read (some (write true a)) = read (some (write false a)) := by
  have hsame : writeChars true a = writeChars false a := by
    rw [writeChars_eq_paragraphs, writeChars_eq, if_pos rfl, ← List.cons_append,
      trim_paragraphs_concat_of_blank _ hc]
  rw [write, hsame, write]

/-- Without sections a comment is read as free text. -/
theorem read_commented_alone (h : UnmarkedText a) (hc : UnmarkedComment a)
    (hblank : allBlank (commentText a) = false) (hnone : ¬HasSections a) :
    (read (some (write true a))).examples = none ∧ (read (some (write true a))).default = none := by
  obtain ⟨hexamples, hdefault⟩ := texts_of_no_sections hnone
  have hcomment : paragraphs (sectionParts [] none ++ [commentText a]) = commentText a :=
    paragraphs_concat_of_nil rfl _
  have hunmarked : Unmarked (lines (writeChars true a)) := by
    rw [writeChars_eq_paragraphs, if_pos rfl, hexamples, hdefault]
    cases hfree : allBlank (freeText a) with
    | true =>
      rw [trim_paragraphs_of_blank hfree, hcomment]
      exact hc.alone hfree hnone
    | false =>
      have happend : lines (trimStart (freeText a) ++ '\n' :: '\n' :: trimEnd (commentText a))
          = lines (trimStart (freeText a) ++ ['\n']) ++ lines (trimEnd (commentText a)) := by
        rw [← lines_append_newline]
        simp
      rw [trim_paragraphs hfree (by rwa [hcomment]), hcomment, happend]
      exact fun l hl => (List.mem_append.mp hl).elim (unmarked_trimStart_newline h l) (hc.behind l)
  have hread : read (some (write true a)) = readChars (writeChars true a) := by
    rw [write, read, String.toList_ofList]
  rw [hread]
  simp only [readChars, cut_of_unmarked hunmarked]
  exact ⟨rfl, rfl⟩

/-- The annotations that are read with a comment behind sections. -/
theorem read_commented (h : UnmarkedText a) (hc : UnmarkedComment a)
    (hblank : allBlank (commentText a) = false)
    (hsections : HasSections a) : read (some (write true a))
    = { description := nonEmpty? (trim (freeText a))
        examples := Examples.ofList ((exampleSections
          (if (defaultText? a).isSome then [[]] else commentLines (commentText a)) (exampleTexts a)).map
            fun s => String.ofList (block s.2))
        default := (defaultText? a).bind fun v =>
          nonEmpty? (block (lines (sectionBody v) ++ commentLines (commentText a))) } := by
  have hafter : Unmarked (commentLines (commentText a)) := by
    intro l hl
    rcases List.mem_cons.mp hl with rfl | hl
    · rfl
    · exact hc.behind l hl
  obtain ⟨m, t, hm⟩ := exists_paragraphs_sectionParts hsections.texts
  have hne : paragraphs (sectionParts (exampleTexts a) (defaultText? a)) ≠ [] := by
    rw [hm]
    cases m <;> exact List.cons_ne_nil _ _
  have hcomment : commentText a ≠ [] := by
    intro hnil
    rw [hnil] at hblank
    cases hblank
  have hparagraphs := paragraphs_concat hne hcomment
  have hlines : lines (trimEnd (paragraphs
        (sectionParts (exampleTexts a) (defaultText? a) ++ [commentText a])))
      = layout (sectionsBefore (commentLines (commentText a)) (exampleTexts a) (defaultText? a)) := by
    have hend := trimEnd_append
      (paragraphs (sectionParts (exampleTexts a) (defaultText? a)) ++ ['\n', '\n']) hblank
    simp only [List.append_assoc, List.cons_append, List.nil_append] at hend
    rw [hparagraphs, hend, lines_append_newline, lines_newline, ← lines_sections_append _ hsections.texts]
    rfl
  obtain ⟨preamble, hcut, hfree, hindent⟩ :=
    cut_paragraphs h (unmarked_sectionsBefore hafter) ⟨m, _, by rw [hparagraphs, hm, List.append_assoc]⟩ hlines
  obtain ⟨hexample, hdefault⟩ :=
    bodies_sectionsBefore (commentLines (commentText a)) (exampleTexts a) (defaultText? a)
  have hpreamble : block preamble = trim (freeText a) := by rw [block, hindent, hfree]
  show readChars (String.ofList (writeChars true a)).toList = _
  rw [String.toList_ofList, writeChars_eq_paragraphs, if_pos rfl]
  simp only [readChars, hcut, hexample, hdefault, hpreamble, List.map_map]
  cases defaultText? a with
  | none => rfl
  | some v => simp [Function.comp_def]

/-! ## What the comment changes -/

/-- The second value has a comment behind it, below a blank line. In front of the comment is the first
value, but for blanks in front of its lines and at its ends. -/
def HasJoined (comment : List Char) (x y : Option String) : Prop :=
  ∃ v code, x = some v ∧ outdented code = outdented v.toList ∧
    y = some (String.ofList (code ++ '\n' :: '\n' :: trimEnd comment))

/-- A comment that has joined a value is seen in it. -/
theorem HasJoined.ne {comment : List Char} {x y : Option String} (h : HasJoined comment x y)
    (hc : allBlank comment = false) : y ≠ x := by
  obtain ⟨v, code, rfl, hcode, rfl⟩ := h
  intro heq
  have hcomment : allBlank ('\n' :: trimEnd comment) = false := (allBlank_trimEnd comment).trans hc
  refine outdented_append_newline_ne code hcomment ?_
  rw [hcode, ← Option.some.inj heq, String.toList_ofList]

/-- What is read with the comment (`r`) compared with what is read without it (`s`). Both hold their
examples in the form that the number of them decides, which is the same. -/
structure JoinsLastSection (a r s : Annotations) : Prop where
  form : r.examples = Examples.ofList r.exampleList
  formWithout : s.examples = Examples.ofList s.exampleList
  count : r.exampleList.length = s.exampleList.length
  earlier : ∀ i, i + 1 < a.exampleList.length → r.exampleList[i]? = s.exampleList[i]?
  examples_eq : a.default ≠ none → r.examples = s.examples
  default_eq : a.default = none → r.default = s.default
  lastExample : allBlank (commentText a) = false → a.default = none →
    ∀ i, i + 1 = a.exampleList.length →
      HasJoined (commentText a) s.exampleList[i]? r.exampleList[i]?
  lastDefault : allBlank (commentText a) = false → a.default ≠ none →
    HasJoined (commentText a) s.default r.default
  undisturbed_iff : (r.examples = s.examples ∧ r.default = s.default) ↔
    allBlank (commentText a) = true ∨ ¬HasSections a

theorem form_read (h : UnmarkedText a) : (read (some (write false a))).examples
    = Examples.ofList (read (some (write false a))).exampleList := by
  rw [exampleList_read h, read_write h]

theorem exampleList_read_commented (h : UnmarkedText a) (hc : UnmarkedComment a)
    (hblank : allBlank (commentText a) = false)
    (hsections : HasSections a) :
    (read (some (write true a))).exampleList = (exampleSections
      (if (defaultText? a).isSome then [[]] else commentLines (commentText a)) (exampleTexts a)).map
        fun s => String.ofList (block s.2) := by
  rw [read_commented h hc hblank hsections]
  exact Examples.toList_ofList _

theorem lastDefault_joined (h : UnmarkedText a) (hc : UnmarkedComment a)
    (hblank : allBlank (commentText a) = false) (hdefault : a.default ≠ none) :
    HasJoined (commentText a) (read (some (write false a))).default
      (read (some (write true a))).default := by
  obtain ⟨v, hv⟩ := Option.ne_none_iff_exists'.mp hdefault
  refine ⟨String.ofList (block (lines (trimEnd (sectionBody v.toList)))),
    trimStart (sectionBody v.toList), ?_, ?_, ?_⟩
  · rw [read_write h, defaultText?, hv]
    simp only [Option.map_some, Option.bind_some]
    exact nonEmpty?_of_ne_nil (block_trimEnd_sectionBody_ne_nil _)
  · rw [String.toList_ofList, outdented_block, outdented_trimEnd, outdented_trimStart]
  · rw [read_commented h hc hblank (.inr hdefault), defaultText?, hv]
    simp only [Option.map_some, Option.bind_some, block_commented (allBlank_sectionBody _) hblank]
    exact nonEmpty?_of_ne_nil (by simp)

theorem lastExample_joined (h : UnmarkedText a) (hc : UnmarkedComment a)
    (hblank : allBlank (commentText a) = false) (hdefault : a.default = none) {i : Nat}
    (hi : i + 1 = a.exampleList.length) :
    HasJoined (commentText a) (read (some (write false a))).exampleList[i]?
      (read (some (write true a))).exampleList[i]? := by
  obtain ⟨v, hv⟩ : ∃ v, a.exampleList[i]? = some v :=
    ⟨_, List.getElem?_eq_getElem (Nat.lt_of_succ_le (Nat.le_of_eq hi))⟩
  have hnone : ¬(defaultText? a).isSome = true := by simp [defaultText?, hdefault]
  have hsections : HasSections a := .inl (List.ne_nil_of_mem (List.mem_of_getElem? hv))
  have hbody : allBlank (trimEnd (sectionBody v.toList)) = false :=
    allBlank_of_mem (mem_trimEnd (tick_mem_sectionBody v.toList) isBlank_tick) isBlank_tick
  refine ⟨String.ofList (block (lines (trimEnd (sectionBody v.toList)))),
    trim (sectionBody v.toList), ?_, ?_, ?_⟩
  · rw [exampleList_read h, getElem?_map_exampleSections _ hv, if_pos hi, afterExamples, if_neg hnone,
      List.append_nil]
  · rw [String.toList_ofList, outdented_block, outdented_trimEnd, trim, outdented_trimEnd,
      outdented_trimStart]
  · rw [exampleList_read_commented h hc hblank hsections, getElem?_map_exampleSections _ hv, if_pos hi,
      if_neg hnone, block_commented hbody hblank, trimStart_trimEnd]

/-- A comment behind sections is seen in the default value, or else in the last example. -/
theorem disturbed_of_sections (h : UnmarkedText a) (hc : UnmarkedComment a)
    (hblank : allBlank (commentText a) = false) (hsections : HasSections a) :
    ¬((read (some (write true a))).examples = (read (some (write false a))).examples ∧
      (read (some (write true a))).default = (read (some (write false a))).default) := by
  rintro ⟨hexamples, hdefault⟩
  by_cases hd : a.default = none
  · have hne : a.exampleList ≠ [] := hsections.resolve_right (not_not_intro hd)
    have hlast : a.exampleList.length - 1 + 1 = a.exampleList.length :=
      Nat.sub_add_cancel (List.length_pos_iff.mpr hne)
    refine (lastExample_joined h hc hblank hd hlast).ne hblank ?_
    rw [Annotations.exampleList, hexamples, ← Annotations.exampleList]
  · exact (lastDefault_joined h hc hblank hd).ne hblank hdefault

theorem joinsLastSection_of_sections (h : UnmarkedText a) (hc : UnmarkedComment a)
    (hblank : allBlank (commentText a) = false)
    (hsections : HasSections a) :
    JoinsLastSection a (read (some (write true a))) (read (some (write false a))) := by
  have hread := read_commented h hc hblank hsections
  have hread' := read_write h
  have hlist := exampleList_read_commented h hc hblank hsections
  have hlist' := exampleList_read h
  refine ⟨?_, form_read h, ?_, ?_, ?_, ?_, fun _ hd _ => lastExample_joined h hc hblank hd,
    fun _ => lastDefault_joined h hc hblank, ?_⟩
  · rw [hlist, hread]
  · rw [hlist, hlist', List.length_map, List.length_map, length_exampleSections, length_exampleSections]
  · intro i hi
    have hv := List.getElem?_eq_getElem (Nat.lt_of_succ_lt hi)
    rw [hlist, hlist', getElem?_map_exampleSections _ hv, getElem?_map_exampleSections _ hv,
      if_neg (Nat.ne_of_lt hi), if_neg (Nat.ne_of_lt hi)]
  · intro hdefault
    have hsome : (defaultText? a).isSome = true := by
      rwa [defaultText?, Option.isSome_map, Option.isSome_iff_ne_none]
    rw [hread, hread', if_pos hsome, afterExamples, if_pos hsome]
  · intro hdefault
    have hnone : defaultText? a = none := by rw [defaultText?, hdefault, Option.map_none]
    rw [hread, hread', hnone]
    simp only [Option.bind_none]
  · refine ⟨fun hsame => absurd hsame (disturbed_of_sections h hc hblank hsections), ?_⟩
    rintro (hfalse | hnone)
    · rw [hblank] at hfalse
      cases hfalse
    · exact absurd hsections hnone

theorem joinsLastSection_of_no_sections (h : UnmarkedText a) (hc : UnmarkedComment a)
    (hblank : allBlank (commentText a) = false) (hnone : ¬HasSections a) :
    JoinsLastSection a (read (some (write true a))) (read (some (write false a))) := by
  obtain ⟨hexamples, hdefault⟩ := read_commented_alone h hc hblank hnone
  have hexamples' : (read (some (write false a))).examples = none := by
    rw [read_write h, (texts_of_no_sections hnone).1]
    rfl
  have hdefault' : (read (some (write false a))).default = none := by
    rw [read_write h, (texts_of_no_sections hnone).2]
    rfl
  have hlist : (read (some (write true a))).exampleList = (read (some (write false a))).exampleList := by
    rw [Annotations.exampleList, hexamples, Annotations.exampleList, hexamples']
  have hnil : (read (some (write true a))).exampleList = [] := by
    rw [Annotations.exampleList, hexamples]
    rfl
  obtain ⟨hempty, hundefault⟩ : a.exampleList = [] ∧ a.default = none := by
    simpa [HasSections] using hnone
  refine ⟨?_, form_read h, by rw [hlist], fun _ _ => by rw [hlist], fun _ => ?_, fun _ => ?_, ?_, ?_, ?_⟩
  · rw [hexamples, hnil]
    rfl
  · rw [hexamples, hexamples']
  · rw [hdefault, hdefault']
  · intro _ _ i hi
    rw [hempty] at hi
    cases hi
  · exact fun _ hd => absurd hundefault hd
  · exact ⟨fun _ => .inr hnone, fun _ => ⟨hexamples.trans hexamples'.symm, hdefault.trans hdefault'.symm⟩⟩

/-- **A comment joins the last section** and changes nothing else of the documented values: examples and
default value are read as without the comment, but for the default value, or the last example where
there is none, which has the comment below it unless that is blank. -/
theorem comment_joins_last_section (h : UnmarkedText a) (hc : UnmarkedComment a) :
    JoinsLastSection a (read (some (write true a))) (read (some (write false a))) := by
  cases hblank : allBlank (commentText a) with
  | true =>
    rw [read_uncommented hblank]
    exact ⟨form_read h, form_read h, rfl, fun _ _ => rfl, fun _ => rfl, fun _ => rfl,
      fun hfalse => absurd (hblank.symm.trans hfalse) (by decide),
      fun hfalse => absurd (hblank.symm.trans hfalse) (by decide),
      ⟨fun _ => .inl hblank, fun _ => ⟨rfl, rfl⟩⟩⟩
  | false =>
    by_cases hsections : HasSections a
    · exact joinsLastSection_of_sections h hc hblank hsections
    · exact joinsLastSection_of_no_sections h hc hblank hsections

/-- An example and a comment. -/
def commentedExample : Annotations := { examples := some (.one "x"), comment := some "c" }

/-- A comment that is a marker but for the blank at its end. -/
def blankEnded : Annotations := { comment := some "# example " }

/-- A comment that is a marker but for the blank in front of it. -/
def blankLed : Annotations := { comment := some " # example" }

/-- The comment joins the example, and a comment on its own is read as a section once it is trimmed, at
its end or in front. -/
theorem comment_disturbs_values :
    (UnmarkedText commentedExample ∧ Unmarked (lines (commentText commentedExample)) ∧
      (read (some (write false commentedExample))).examples = some (.one "\x60x\x60") ∧
      (read (some (write true commentedExample))).examples = some (.one "\x60x\x60\n\nc")) ∧
    (UnmarkedText blankEnded ∧ Unmarked (lines (commentText blankEnded)) ∧
      (read (some (write false blankEnded))).examples = none ∧
      (read (some (write true blankEnded))).examples = some (.one "")) ∧
    UnmarkedText blankLed ∧ Unmarked (lines (trimEnd (commentText blankLed))) ∧
      (read (some (write false blankLed))).examples = none ∧
      (read (some (write true blankLed))).examples = some (.one "") := by
  decide +kernel

/-- All that can be documented, with code of several lines and a comment of several lines. -/
def documented : Annotations :=
  { description := some "A size"
    examples := some (.many ["1", "a\nb"])
    default := some "c\nd"
    comment := some "internal\n# note \n" }

theorem comment_joins_last_section_documented :
    UnmarkedText documented ∧ UnmarkedComment documented ∧
      JoinsLastSection documented (read (some (write true documented)))
        (read (some (write false documented))) ∧
      HasJoined "internal\n# note \n".toList (some "\x60\x60\x60\nc\nd\n\x60\x60\x60")
        (read (some (write true documented))).default := by
  have htext : UnmarkedText documented := by decide +kernel
  have hcomment : UnmarkedComment documented := .of_trim (by decide +kernel)
  have hjoins := comment_joins_last_section htext hcomment
  have hdefault : (read (some (write false documented))).default
      = some "\x60\x60\x60\nc\nd\n\x60\x60\x60" := by decide +kernel
  have hjoined := hjoins.lastDefault (by decide +kernel) nofun
  rw [hdefault] at hjoined
  exact ⟨htext, hcomment, hjoins, hjoined⟩

end

end Description

end SchemaBridge
