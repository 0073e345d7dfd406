import SchemaBridge.Proofs.PlainDescription
/-!
# The sections of a written description

A description is written as free text with sections behind it, and is read by cutting its lines at
the markers. Code in a section stands behind an indentation, so that no line of it is a marker,
whatever the code is; and the lines of the free text are no markers either, if none was one after
trimming. So the cut finds the sections that were written. The last example differs from those
before it: its blank end is trimmed, and if a default follows, so does a blank line.

Results:
* `marker?_of_head`, `trimEnd_of_marker`: a marker starts with `#`, and has no blank end.
* `cut_layout`: sections laid out as lines are cut out again.
* `lines_writeExamples`: the lines of the examples that are written.
* `cut_paragraphs`: a text in front of sections is cut off from them.
* `cut_writeChars`: the cut of a written description.
-/
namespace SchemaBridge.Description

open Text Model

/-! ## Markers -/

/-- None of the lines is a marker. -/
def Unmarked (ls : List Line) : Prop := ∀ l ∈ ls, marker? l = none

instance (ls : List Line) : Decidable (Unmarked ls) :=
  inferInstanceAs (Decidable (∀ l ∈ ls, marker? l = none))

theorem marker?_line (m : Marker) : marker? m.line = some m := by
  cases m <;> rfl

theorem newline_not_mem_line (m : Marker) : '\n' ∉ m.line := by
  cases m <;> decide

theorem marker?_of_head {l : Line} (h : l.head? ≠ some '#') : marker? l = none := by
  cases l with
  | nil => rfl
  | cons c cs =>
    have hc : c ≠ '#' := by simpa using h
    simp [marker?, hc]

theorem marker?_of_blank {l : Line} (h : allBlank l = true) : marker? l = none := by
  apply marker?_of_head
  intro hhead
  have hblank : isBlank '#' = true := List.all_eq_true.mp h _ (List.mem_of_head? hhead)
  exact absurd hblank (by decide)

/-- A marker has a `#` at the front, and its word behind the `#` and blanks. -/
theorem of_marker? {l : Line} {m : Marker} (h : marker? l = some m) :
    (l.dropWhile (· = '#')).length < l.length ∧ trimStart (l.dropWhile (· = '#')) = m.word := by
  simp only [marker?] at h
  split at h
  · next hlt =>
    refine ⟨hlt, ?_⟩
    split at h
    · next hw => rwa [← Option.some.inj h]
    · split at h
      · next hw => rwa [← Option.some.inj h]
      · cases h
  · cases h

/-- A marker ends with its word, and so in no blank. -/
theorem trimEnd_of_marker {l : Line} {m : Marker} (h : marker? l = some m) : trimEnd l = l := by
  obtain ⟨-, hword⟩ := of_marker? h
  obtain ⟨k, hk⟩ : ∃ k, l = k ++ m.word := by
    refine ⟨l.takeWhile (· = '#') ++ (l.dropWhile (· = '#')).takeWhile isBlank, ?_⟩
    rw [List.append_assoc, ← hword, takeWhile_append_trimStart, List.takeWhile_append_dropWhile]
  have hends : allBlank m.word = false ∧ trimEnd m.word = m.word := by
    cases m <;> decide
  rw [hk, trimEnd_append k hends.1, hends.2]

theorem allBlank_of_mem_lines {t l : List Char} (h : l ∈ lines t) (ht : allBlank t = true) :
    allBlank l = true := by
  rw [allBlank, List.all_eq_true]
  intro c hc
  have hnl : c ≠ '\n' := fun hnl => newline_not_mem_of_mem_lines h (hnl ▸ hc)
  exact List.all_eq_true.mp ht c ((mem_iff_exists_line hnl).mpr ⟨l, h, hc⟩)

/-- Blanks at the end of a text make no line of it a marker. -/
theorem unmarked_append_blank {s u : List Char} (h : Unmarked (lines s)) (hu : allBlank u = true) :
    Unmarked (lines (s ++ u)) := by
  intro l hl
  obtain ⟨ls, k, m, ms, hs, hm, happend⟩ := lines_append s u
  rw [happend, List.mem_append, List.mem_cons] at hl
  rcases hl with hl | rfl | hl
  · exact h l (by rw [hs]; exact List.mem_append_left _ hl)
  · have hblank : allBlank m = true := allBlank_of_mem_lines (by rw [hm]; exact List.mem_cons_self) hu
    cases hmark : marker? (k ++ m) with
    | none => rfl
    | some mk =>
      -- the marker would lose its end `m` by trimming, so there is no such end
      have hk := trimEnd_of_marker hmark
      rw [trimEnd_append_of_blank k hblank] at hk
      obtain ⟨v, -, hv⟩ := exists_trimEnd_append k
      rw [hk, List.append_assoc, List.append_right_eq_self, List.append_eq_nil_iff] at hv
      rw [hv.1, List.append_nil] at hmark
      rw [← hmark]
      exact h k (by rw [hs]; exact List.mem_append_right _ List.mem_cons_self)
  · exact marker?_of_blank (allBlank_of_mem_lines (by rw [hm]; exact List.mem_cons_of_mem _ hl) hu)

/-! ## Sections as lines -/

/-- The lines of sections, each behind its marker. -/
def layout (sections : List (Marker × List Line)) : List Line :=
  sections.flatMap fun s => s.1.line :: s.2

theorem cut_layout {ps : List Line} {ss : List (Marker × List Line)} (hp : Unmarked ps)
    (hs : ∀ s ∈ ss, Unmarked s.2) : cut (ps ++ layout ss) = (ps, ss) := by
  induction ss generalizing ps with
  | nil => rw [cut_append hp]; simp [layout, cut]
  | cons s ss ih =>
    have hrest : cut (s.2 ++ layout ss) = (s.2, ss) :=
      ih (hs s List.mem_cons_self) fun r hr => hs r (List.mem_cons_of_mem s hr)
    have hlayout : layout (s :: ss) = s.1.line :: (s.2 ++ layout ss) := rfl
    rw [hlayout, cut_append hp, cut, marker?_line, hrest]
    simp

/-! ## Bodies -/

/-- The code of a section as it is written below the marker. -/
def sectionBody (code : List Char) : List Char := indent (quoteCode code)

theorem writeSection_eq (m : Marker) (code : List Char) :
    writeSection m code = m.line ++ '\n' :: sectionBody code := rfl

theorem isBlank_tick : isBlank tick = false := by decide

/-- Quoted code holds a tick, those of the quotation or one of its own. -/
theorem tick_mem_quoteCode (code : List Char) : tick ∈ quoteCode code := by
  unfold quoteCode
  split
  · assumption
  · split
    · simp [fence]
    · simp

theorem tick_mem_sectionBody (code : List Char) : tick ∈ sectionBody code :=
  mem_indent (by decide) (tick_mem_quoteCode code)

theorem allBlank_sectionBody (code : List Char) : allBlank (sectionBody code) = false :=
  allBlank_of_mem (tick_mem_sectionBody code) isBlank_tick

/-- No line at the front of indented code is a marker. -/
theorem unmarked_of_append_eq {code t u : List Char} (h : t ++ u = sectionBody code) :
    Unmarked (lines t) := by
  intro l hl
  obtain ⟨m, hm, k, rfl⟩ := exists_line_append hl u
  rw [h, sectionBody, lines_indent, List.mem_map] at hm
  obtain ⟨n, -, hn⟩ := hm
  apply marker?_of_head
  cases l with
  | nil => simp
  | cons c cs =>
    have hc : ' ' = c := (List.cons.inj hn).1
    simp [← hc]

theorem unmarked_sectionBody (code : List Char) : Unmarked (lines (sectionBody code)) :=
  unmarked_of_append_eq (List.append_nil _)

theorem unmarked_trimEnd_sectionBody (code : List Char) :
    Unmarked (lines (trimEnd (sectionBody code))) := by
  obtain ⟨u, -, hu⟩ := exists_trimEnd_append (sectionBody code)
  exact unmarked_of_append_eq hu

/-! ## The text of the sections -/

/-- The sections of examples, as they are cut out if certain lines stand behind the last of them. -/
def exampleSections (after : List Line) : List (List Char) → List (Marker × List Line)
  | [] => []
  | [v] => [(.example, lines (trimEnd (sectionBody v)) ++ after)]
  | v :: w :: vs => (.example, lines (sectionBody v)) :: exampleSections after (w :: vs)

theorem trimStart_line_append (m : Marker) (t : List Char) :
    trimStart (m.line ++ t) = m.line ++ t :=
  trimStart_cons (by decide) _

theorem trimEnd_writeSection (m : Marker) (code : List Char) :
    trimEnd (writeSection m code) = m.line ++ '\n' :: trimEnd (sectionBody code) := by
  have happend : writeSection m code = (m.line ++ ['\n']) ++ sectionBody code := by
    rw [writeSection_eq, List.append_assoc]
    rfl
  rw [happend, trimEnd_append _ (allBlank_sectionBody code), List.append_assoc]
  rfl

theorem lines_line_newline (m : Marker) (t : List Char) :
    lines (m.line ++ '\n' :: t) = m.line :: lines t := by
  rw [lines_append_newline, lines_of_not_mem (newline_not_mem_line m)]
  rfl

theorem writeExamples_singleton (v : List Char) :
    writeExamples [v] = Marker.example.line ++ '\n' :: trimEnd (sectionBody v) := by
  show trim (writeSection .example v) = _
  rw [trim, writeSection_eq, trimStart_line_append, ← writeSection_eq, trimEnd_writeSection]

theorem exists_unlines_sections (v : List Char) (vs : List (List Char)) :
    ∃ t, unlines ((v :: vs).map (writeSection .example)) = Marker.example.line ++ t := by
  cases vs with
  | nil => exact ⟨'\n' :: sectionBody v, rfl⟩
  | cons w ws =>
    refine ⟨'\n' :: sectionBody v ++ '\n' :: unlines ((w :: ws).map (writeSection .example)), ?_⟩
    rw [List.map_cons, unlines, joinWith_cons _ _ (by simp), writeSection_eq]
    simp [unlines]

/-- Trimming concerns the last example only. -/
theorem writeExamples_cons (v w : List Char) (vs : List (List Char)) :
    writeExamples (v :: w :: vs) = writeSection .example v ++ '\n' :: writeExamples (w :: vs) := by
  obtain ⟨t, ht⟩ := exists_unlines_sections w vs
  have hstart : trimStart (unlines ((w :: vs).map (writeSection .example)))
      = unlines ((w :: vs).map (writeSection .example)) := by
    rw [ht, trimStart_line_append]
  have hblank : allBlank (unlines ((w :: vs).map (writeSection .example))) = false := by
    rw [ht]
    rfl
  have hfirst : trimStart (writeSection .example v ++ ['\n']) = writeSection .example v ++ ['\n'] :=
    trimStart_cons (by decide) _
  have happend : unlines ((v :: w :: vs).map (writeSection .example))
      = (writeSection .example v ++ ['\n']) ++ unlines ((w :: vs).map (writeSection .example)) := rfl
  have hother : writeExamples (w :: vs)
      = trimEnd (unlines ((w :: vs).map (writeSection .example))) := by
    rw [writeExamples, trim, hstart]
  rw [writeExamples, happend, trim_append rfl hblank, hfirst, hother, List.append_assoc]
  rfl

theorem lines_writeExamples (after : List Line) {es : List (List Char)} (h : es ≠ []) :
    lines (writeExamples es) ++ after = layout (exampleSections after es) := by
  induction es with
  | nil => exact absurd rfl h
  | cons v vs ih =>
    cases vs with
    | nil =>
      rw [writeExamples_singleton, lines_line_newline]
      simp [exampleSections, layout]
    | cons w ws =>
      have hlines : lines (writeExamples (v :: w :: ws))
          = Marker.example.line :: lines (sectionBody v) ++ lines (writeExamples (w :: ws)) := by
        rw [writeExamples_cons, lines_append_newline, writeSection_eq, lines_line_newline]
      have hrest := ih (by simp)
      rw [hlines, List.append_assoc, hrest]
      rfl

theorem unmarked_exampleSections {after : List Line} (ha : Unmarked after) (es : List (List Char)) :
    ∀ s ∈ exampleSections after es, Unmarked s.2 := by
  induction es with
  | nil => simp [exampleSections]
  | cons v vs ih =>
    cases vs with
    | nil =>
      intro s hs
      obtain rfl := List.mem_singleton.mp hs
      intro l hl
      exact (List.mem_append.mp hl).elim (unmarked_trimEnd_sectionBody v l) (ha l)
    | cons w ws =>
      intro s hs
      rcases List.mem_cons.mp hs with rfl | hs
      · exact unmarked_sectionBody v
      · exact ih s hs

/-! ## Paragraphs -/

/-- What is not empty of some texts, a blank line between them. -/
def paragraphs (ts : List (List Char)) : List Char := joinWith ['\n', '\n'] (ts.filter (· ≠ []))

theorem paragraphs_nil_cons (ts : List (List Char)) : paragraphs ([] :: ts) = paragraphs ts := by
  simp [paragraphs]

theorem filter_eq_nil_of_paragraphs {ts : List (List Char)} (h : paragraphs ts = []) :
    ts.filter (· ≠ []) = [] := by
  cases hf : ts.filter (· ≠ []) with
  | nil => rfl
  | cons u us =>
    have hu : u ≠ [] := by
      have hmem : u ∈ ts.filter (· ≠ []) := by rw [hf]; exact List.mem_cons_self
      simpa using (List.mem_filter.mp hmem).2
    rw [paragraphs, hf] at h
    cases us with
    | nil => exact absurd h hu
    | cons v vs => simp [joinWith_cons, hu] at h

theorem paragraphs_cons_of_nil (t : List Char) {ts : List (List Char)} (h : paragraphs ts = []) :
    paragraphs (t :: ts) = t := by
  have hts := filter_eq_nil_of_paragraphs h
  by_cases ht : t = []
  · rw [ht, paragraphs_nil_cons, h]
  · rw [paragraphs, List.filter_cons_of_pos (by simpa using ht), hts, joinWith_singleton]

theorem paragraphs_cons {t : List Char} {ts : List (List Char)} (ht : t ≠ [])
    (h : paragraphs ts ≠ []) : paragraphs (t :: ts) = t ++ '\n' :: '\n' :: paragraphs ts := by
  have hts : ts.filter (· ≠ []) ≠ [] := by
    intro hnil
    exact h (by rw [paragraphs, hnil]; rfl)
  rw [paragraphs, List.filter_cons_of_pos (by simpa using ht), joinWith_cons _ _ hts]
  simp [paragraphs]

theorem trim_paragraphs_of_blank {t : List Char} (h : allBlank t = true) (ts : List (List Char)) :
    trim (paragraphs (t :: ts)) = trim (paragraphs ts) := by
  by_cases ht : t = []
  · rw [ht, paragraphs_nil_cons]
  · by_cases hts : paragraphs ts = []
    · rw [paragraphs_cons_of_nil t hts, hts, trim_eq_nil_iff.mpr h]
      rfl
    · rw [paragraphs_cons ht hts, trim_of_blank_append h]
      exact trim_of_blank_append (s := ['\n', '\n']) rfl _

theorem trim_paragraphs {t : List Char} {ts : List (List Char)} (ht : allBlank t = false)
    (hts : allBlank (paragraphs ts) = false) :
    trim (paragraphs (t :: ts)) = trimStart t ++ '\n' :: '\n' :: trimEnd (paragraphs ts) := by
  have hne : t ≠ [] := by
    rintro rfl
    cases ht
  have hrest : paragraphs ts ≠ [] := by
    intro hnil
    rw [hnil] at hts
    cases hts
  have hbreak : allBlank ('\n' :: '\n' :: paragraphs ts) = false := hts
  have hend : trimEnd ('\n' :: '\n' :: paragraphs ts) = '\n' :: '\n' :: trimEnd (paragraphs ts) :=
    trimEnd_append ['\n', '\n'] hts
  rw [paragraphs_cons hne hrest, trim_append ht hbreak, hend]

/-- No line of a text above a line break is a marker, if none is without the blank ends. -/
theorem unmarked_trimStart_newline {t : List Char} (h : Unmarked (lines (trim t))) :
    Unmarked (lines (trimStart t ++ ['\n'])) := by
  obtain ⟨u, hu, hsplit⟩ := exists_trimEnd_append (trimStart t)
  have hends : trimStart t ++ ['\n'] = trim t ++ (u ++ ['\n']) := by
    rw [← List.append_assoc, trim, hsplit]
  rw [hends]
  exact unmarked_append_blank h (by rw [allBlank_append, hu]; rfl)

/-- A text in front of sections is cut off from them, blank ends aside. -/
theorem cut_paragraphs {t : List Char} {ts : List (List Char)} {ss : List (Marker × List Line)}
    (ht : Unmarked (lines (trim t))) (hss : ∀ s ∈ ss, Unmarked s.2)
    (hmarker : ∃ m u, paragraphs ts = Marker.line m ++ u)
    (hlines : lines (trimEnd (paragraphs ts)) = layout ss) :
    ∃ preamble, cut (lines (trim (paragraphs (t :: ts)))) = (preamble, ss) ∧
      trim (unlines preamble) = trim t ∧ unindent preamble = preamble := by
  obtain ⟨m, u, hm⟩ := hmarker
  cases hblank : allBlank t with
  | true =>
    -- nothing of the text is left, and the first line is a marker
    have hstart : trimStart (paragraphs ts) = paragraphs ts := by
      rw [hm, trimStart_line_append]
    refine ⟨[], ?_, ?_, rfl⟩
    · rw [trim_paragraphs_of_blank hblank, trim, hstart, hlines]
      exact @cut_layout [] ss (List.forall_mem_nil _) hss
    · rw [trim_eq_nil_iff.mpr hblank]
      rfl
  | false =>
    have hmore : allBlank (paragraphs ts) = false := by
      rw [hm]
      cases m <;> rfl
    have hstart : trimStart (trimStart t ++ ['\n']) = trimStart t ++ ['\n'] := by
      rw [trimStart_append (by rwa [allBlank_trimStart]), trimStart_trimStart]
    have happend : lines (trim (paragraphs (t :: ts))) = lines (trimStart t ++ ['\n']) ++ layout ss := by
      rw [trim_paragraphs hblank hmore, ← hlines, ← lines_append_newline]
      simp
    refine ⟨lines (trimStart t ++ ['\n']), ?_, ?_, unindent_of_trimStart hstart⟩
    · rw [happend, cut_layout (unmarked_trimStart_newline ht) hss]
    · rw [unlines_lines, trim_append_of_blank _ rfl, trim_trimStart]

theorem filter_toList_eq (o : Option (List Char)) :
    o.toList.filter (· ≠ []) = [o.getD []].filter (· ≠ []) := by
  cases o with
  | none => rfl
  | some t => rfl

/-! ## Sections of examples and a default value -/

section
variable (es : List (List Char)) (d : Option (List Char))

/-- The texts of the sections, empty where there is none. -/
def sectionParts : List (List Char) := [writeExamples es, (d.map (writeSection .default)).getD []]

/-- The sections as they are cut out of the text. A default value puts a blank line behind the
examples. -/
def writtenSections : List (Marker × List Line) :=
  match d with
  | none => exampleSections [] es
  | some v => exampleSections [[]] es ++ [(.default, lines (trimEnd (sectionBody v)))]

theorem unmarked_writtenSections : ∀ s ∈ writtenSections es d, Unmarked s.2 := by
  intro s hs
  cases d with
  | none => exact unmarked_exampleSections (by simp [Unmarked]) es s hs
  | some v =>
    rcases List.mem_append.mp hs with hs | hs
    · exact unmarked_exampleSections (by simp [Unmarked, marker?]) es s hs
    · obtain rfl := List.mem_singleton.mp hs
      exact unmarked_trimEnd_sectionBody v

theorem trimEnd_writeExamples : trimEnd (writeExamples es) = writeExamples es := trimEnd_trimEnd _

variable {es}

theorem exists_writeExamples (h : es ≠ []) : ∃ t, writeExamples es = Marker.example.line ++ t := by
  match es, h with
  | [v], _ => exact ⟨_, writeExamples_singleton v⟩
  | v :: w :: vs, _ =>
    refine ⟨'\n' :: sectionBody v ++ '\n' :: writeExamples (w :: vs), ?_⟩
    rw [writeExamples_cons, writeSection_eq]
    simp

theorem writeExamples_ne_nil (h : es ≠ []) : writeExamples es ≠ [] := by
  obtain ⟨t, ht⟩ := exists_writeExamples h
  rw [ht]
  exact List.cons_ne_nil _ _

theorem lines_trimEnd_default (v : List Char) :
    lines (trimEnd (writeSection .default v)) = layout [(.default, lines (trimEnd (sectionBody v)))] := by
  rw [trimEnd_writeSection, lines_line_newline]
  simp [layout]

theorem layout_append (ss rs : List (Marker × List Line)) :
    layout (ss ++ rs) = layout ss ++ layout rs := List.flatMap_append

variable {d}

theorem paragraphs_none : paragraphs (sectionParts es none) = writeExamples es :=
  paragraphs_cons_of_nil _ rfl

theorem paragraphs_nil_some (v : List Char) :
    paragraphs (sectionParts [] (some v)) = writeSection .default v := by
  have hnil : writeExamples [] = [] := by decide
  rw [sectionParts, hnil, paragraphs_nil_cons]
  exact paragraphs_cons_of_nil _ rfl

theorem paragraphs_some (h : es ≠ []) (v : List Char) : paragraphs (sectionParts es (some v))
    = writeExamples es ++ '\n' :: '\n' :: writeSection .default v := by
  have hdefault : paragraphs [writeSection .default v] = writeSection .default v :=
    paragraphs_cons_of_nil _ rfl
  have hne : writeSection .default v ≠ [] := List.cons_ne_nil _ _
  rw [sectionParts, Option.map_some, Option.getD_some,
    paragraphs_cons (writeExamples_ne_nil h) (by rwa [hdefault]), hdefault]

/-- Either nothing is written and there are no sections, or the text starts with a marker and its
lines are the sections laid out. -/
theorem lines_sectionParts (es : List (List Char)) (d : Option (List Char)) :
    (paragraphs (sectionParts es d) = [] ∧ writtenSections es d = []) ∨
      (∃ m t, paragraphs (sectionParts es d) = Marker.line m ++ t) ∧
        lines (trimEnd (paragraphs (sectionParts es d))) = layout (writtenSections es d) := by
  cases d with
  | none =>
    rw [paragraphs_none]
    by_cases h : es = []
    · subst h
      exact .inl ⟨rfl, rfl⟩
    · obtain ⟨t, ht⟩ := exists_writeExamples h
      have hlines := lines_writeExamples [] h
      rw [List.append_nil] at hlines
      exact .inr ⟨⟨.example, t, ht⟩, by rw [trimEnd_writeExamples, hlines]; rfl⟩
  | some v =>
    right
    by_cases h : es = []
    · subst h
      rw [paragraphs_nil_some]
      exact ⟨⟨.default, _, writeSection_eq .default v⟩, lines_trimEnd_default v⟩
    · obtain ⟨t, ht⟩ := exists_writeExamples h
      rw [paragraphs_some h]
      refine ⟨⟨.example, t ++ '\n' :: '\n' :: writeSection .default v, by rw [ht, List.append_assoc]⟩, ?_⟩
      have hblank : allBlank (writeSection .default v) = false := rfl
      have hend : trimEnd (writeExamples es ++ '\n' :: '\n' :: writeSection .default v)
          = writeExamples es ++ '\n' :: '\n' :: trimEnd (writeSection .default v) := by
        have := trimEnd_append (writeExamples es ++ ['\n', '\n']) hblank
        simpa using this
      calc lines (trimEnd (writeExamples es ++ '\n' :: '\n' :: writeSection .default v))
          = (lines (writeExamples es) ++ [[]]) ++ lines (trimEnd (writeSection .default v)) := by
            rw [hend, lines_append_newline, lines_newline, List.append_assoc]
            rfl
        _ = layout (writtenSections es (some v)) := by
            rw [lines_writeExamples [[]] h, lines_trimEnd_default, ← layout_append]
            rfl

end

/-! ## The written description -/

section
variable (a : Annotations)

/-- The free text, the examples in order, and the default value. -/
def freeText : List Char := (a.description.map String.toList).getD []

def exampleTexts : List (List Char) := a.exampleList.map String.toList

def defaultText? : Option (List Char) := a.default.map String.toList

/-- The comment, empty if there is none. -/
def commentText : List Char := (a.comment.map String.toList).getD []

theorem writeChars_eq_paragraphs (includeComment : Bool) : writeChars includeComment a
    = trim (paragraphs (freeText a :: (sectionParts (exampleTexts a) (defaultText? a)
      ++ if includeComment then [commentText a] else []))) := by
  have hexamples : (a.examples.map fun es => writeExamples (es.toList.map String.toList)).getD []
      = writeExamples (exampleTexts a) := by
    cases h : a.examples with
    | none => simp [exampleTexts, Annotations.exampleList, h]; rfl
    | some es => simp [exampleTexts, Annotations.exampleList, h]
  have hdefault : a.default.map (fun s => writeSection .default s.toList)
      = (defaultText? a).map (writeSection .default) := by
    rw [defaultText?, Option.map_map]
    rfl
  have hcomment : (if includeComment then (a.comment.map String.toList).toList else []).filter (· ≠ [])
      = (if includeComment then [commentText a] else []).filter (· ≠ []) := by
    split
    · exact filter_toList_eq _
    · rfl
  unfold writeChars parts paragraphs sectionParts
  rw [hdefault, ← hexamples, freeText]
  simp only [List.filter_append, filter_toList_eq, hcomment]
  simp only [← List.filter_append, List.cons_append, List.nil_append]

theorem writeChars_eq : writeChars false a
    = trim (paragraphs (freeText a :: sectionParts (exampleTexts a) (defaultText? a))) := by
  rw [writeChars_eq_paragraphs]
  simp

/-- No line of the free text is a marker, blank ends aside. -/
def UnmarkedText : Prop := Unmarked (lines (trim (freeText a)))

instance : Decidable (UnmarkedText a) := inferInstanceAs (Decidable (Unmarked _))

variable {a}

/-- **The sections that are cut out of a written description are those that were written**, and the
lines in front of them are the free text, blank ends aside. -/
theorem cut_writeChars (h : UnmarkedText a) :
    ∃ preamble, cut (lines (writeChars false a))
        = (preamble, writtenSections (exampleTexts a) (defaultText? a)) ∧
      trim (unlines preamble) = trim (freeText a) ∧ unindent preamble = preamble := by
  have hsections := unmarked_writtenSections (exampleTexts a) (defaultText? a)
  rcases lines_sectionParts (exampleTexts a) (defaultText? a) with ⟨hnil, hnone⟩ | ⟨hmarker, hlines⟩
  · have hcut : cut (lines (trim (freeText a))) = (lines (trim (freeText a)), []) := cut_of_unmarked h
    refine ⟨lines (trim (freeText a)), ?_, ?_, unindent_of_trimStart (trimStart_trim _)⟩
    · rw [writeChars_eq, paragraphs_cons_of_nil _ hnil, hnone, hcut]
    · rw [unlines_lines, trim_trim]
  · rw [writeChars_eq]
    exact cut_paragraphs h hsections hmarker hlines

end

end SchemaBridge.Description
