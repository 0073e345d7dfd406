import Mathlib.Data.List.Infix
import SchemaBridge.Proofs.WrittenSections
/-!
# The segments of a description

What is read of a text is said here by the places of its markers: the free text is what stands above
the first marker, and the body of a section is what stands between its marker and the next one. Any
text has such segments, also one that was written by hand.

A reader that takes one line after the other needs to know no more than the section that is open. It
comes to the same annotations (`readChars_eq_foldl`), as after every line it has the segments of the
lines so far (`next_ofCut`).

Results:
* `marker?_eq_some_iff`: a marker is one or more `#`, blanks, and the word.
* `cut_fst`, `bodies_eq`: the cut finds the segments.
* `getElem?_segments`: the segment below a marker is the one with the number of the marker.
* `unmarked_perm_segments`: a line that is no marker is in one segment.
* `next_ofCut`, `foldl_next`: a reader line by line, after one more line and after all of them.
* `text_read_by_segments`: the annotations that are read.
-/
namespace SchemaBridge.Description

open Text Model

/-! ## Markers -/

/-- One or more `#`, blanks, and the word of the marker. -/
def IsMarkerLine (m : Marker) (l : Line) : Prop :=
  ∃ n blanks, allBlank blanks = true ∧ l = List.replicate (n + 1) '#' ++ (blanks ++ m.word)

theorem isMarkerLine_of_marker? {m : Marker} {l : Line} (h : marker? l = some m) :
    IsMarkerLine m l := by
  obtain ⟨hlt, hword⟩ := of_marker? h
  obtain ⟨n, hn⟩ : ∃ n, (l.takeWhile (· = '#')).length = n + 1 := by
    have hsplit := congrArg List.length (@List.takeWhile_append_dropWhile _ (· = '#') l)
    rw [List.length_append] at hsplit
    exact Nat.exists_eq_add_one.mpr (by omega)
  have hhashes : l.takeWhile (· = '#') = List.replicate (n + 1) '#' := by
    refine List.eq_replicate_iff.mpr ⟨hn, fun c hc => ?_⟩
    simpa using List.all_eq_true.mp List.all_takeWhile c hc
  refine ⟨n, (l.dropWhile (· = '#')).takeWhile isBlank, List.all_takeWhile, ?_⟩
  rw [← hword, takeWhile_append_trimStart, ← hhashes, List.takeWhile_append_dropWhile]

theorem marker?_of_isMarkerLine {m : Marker} {l : Line} (h : IsMarkerLine m l) :
    marker? l = some m := by
  obtain ⟨n, blanks, hblank, rfl⟩ := h
  have hword : trimStart m.word = m.word := by cases m <;> rfl
  have hrest : (blanks ++ m.word).dropWhile (· = '#') = blanks ++ m.word := by
    cases blanks with
    | nil => cases m <;> rfl
    | cons c cs =>
      have hc : c ≠ '#' := by
        rintro rfl
        exact absurd (List.all_eq_true.mp hblank _ List.mem_cons_self) (by decide)
      simp [hc]
  have hdrop : (List.replicate (n + 1) '#' ++ (blanks ++ m.word)).dropWhile (· = '#')
      = blanks ++ m.word := by
    rw [List.dropWhile_append_of_pos (by simp), hrest]
  have hlt : (blanks ++ m.word).length
      < (List.replicate (n + 1) '#' ++ (blanks ++ m.word)).length := by
    simp only [List.length_append, List.length_replicate]
    omega
  simp only [marker?]
  rw [hdrop, if_pos hlt, trimStart_of_blank_append hblank, hword]
  cases m <;> rfl

theorem marker?_eq_some_iff {m : Marker} {l : Line} : marker? l = some m ↔ IsMarkerLine m l :=
  ⟨isMarkerLine_of_marker?, marker?_of_isMarkerLine⟩

instance (m : Marker) (l : Line) : Decidable (IsMarkerLine m l) :=
  decidable_of_iff _ marker?_eq_some_iff

/-- A line is a marker of one kind or the other. -/
def IsMarked (l : Line) : Prop := ∃ m, IsMarkerLine m l

theorem isMarked_iff {l : Line} : IsMarked l ↔ (marker? l).isSome = true := by
  simp [IsMarked, ← marker?_eq_some_iff, Option.isSome_iff_exists]

instance (l : Line) : Decidable (IsMarked l) := decidable_of_iff _ isMarked_iff.symm

/-! ## Segments -/

/-- The lines up to the first marker. -/
def leading (ls : List Line) : List Line := ls.takeWhile fun l => ¬IsMarked l

/-- The lines between a marker at the front and the next marker. -/
def below? (m : Marker) : List Line → Option (List Line)
  | [] => none
  | l :: ls => if IsMarkerLine m l then some (leading ls) else none

/-- The lines below each marker of a kind, up to the next marker. -/
def segments (m : Marker) (ls : List Line) : List (List Line) := ls.tails.filterMap (below? m)

theorem segments_cons (m : Marker) (l : Line) (ls : List Line) :
    segments m (l :: ls) = (if IsMarkerLine m l then [leading ls] else []) ++ segments m ls := by
  rw [segments, List.tails_cons, List.filterMap_cons, below?, segments]
  split <;> simp_all

theorem cut_fst (ls : List Line) : (cut ls).1 = leading ls := by
  induction ls with
  | nil => rfl
  | cons l ls ih =>
    cases h : marker? l with
    | none => simp [cut, leading, isMarked_iff, h, ih]
    | some m => simp [cut, leading, isMarked_iff, h]

theorem bodies_eq (m : Marker) (ls : List Line) : bodies m (cut ls).2 = segments m ls := by
  induction ls with
  | nil => rfl
  | cons l ls ih =>
    rw [segments_cons, ← ih]
    cases h : marker? l with
    | none => simp [cut, h, ← marker?_eq_some_iff]
    | some k =>
      by_cases hk : k = m
      · simp [cut, h, bodies, ← marker?_eq_some_iff, hk, cut_fst]
      · simp [cut, h, bodies, ← marker?_eq_some_iff, hk]

/-- The segment below a marker has the number that the marker has among those of its kind. -/
theorem getElem?_segments {m : Marker} {l : Line} (h : IsMarkerLine m l) (above under : List Line) :
    (segments m (above ++ l :: under))[above.countP (IsMarkerLine m ·)]? = some (leading under) := by
  induction above with
  | nil => simp [segments_cons, h]
  | cons k ks ih =>
    rw [List.cons_append, segments_cons, List.countP_cons]
    by_cases hk : IsMarkerLine m k
    · simpa [hk] using ih
    · simpa [hk] using ih

theorem length_segments (m : Marker) (ls : List Line) :
    (segments m ls).length = ls.countP (IsMarkerLine m ·) := by
  induction ls with
  | nil => rfl
  | cons l ls ih =>
    rw [segments_cons, List.length_append, ih, List.countP_cons]
    split
    · simp [*, Nat.add_comm]
    · simp [*]

/-- What stands in sections is in those of examples or in those of default values. -/
theorem flatMap_perm_bodies (ss : List (Marker × List Line)) :
    (ss.flatMap Prod.snd).Perm ((bodies .example ss).flatten ++ (bodies .default ss).flatten) := by
  induction ss with
  | nil => exact .nil
  | cons s ss ih =>
    have hcons := List.Perm.append_left s.2 ih
    obtain ⟨_ | _, b⟩ := s
    · rw [← List.append_assoc] at hcons
      exact hcons
    · have hmove := hcons.trans List.perm_append_comm
      rw [List.append_assoc] at hmove
      exact hmove.trans (List.Perm.append_left _ List.perm_append_comm)

/-- **A line that is no marker is in one segment.** -/
theorem unmarked_perm_segments (ls : List Line) : (ls.filter fun l => ¬IsMarked l).Perm
    (leading ls ++ ((segments .example ls).flatten ++ (segments .default ls).flatten)) := by
  have hfilter : (ls.filter fun l => ¬IsMarked l) = ls.filter fun l => (marker? l).isNone := by
    refine List.filter_congr fun l _ => ?_
    simp only [isMarked_iff]
    cases marker? l <;> rfl
  rw [hfilter, filter_eq_cut, cut_fst, ← bodies_eq, ← bodies_eq]
  exact List.Perm.append_left _ (flatMap_perm_bodies _)

/-! ## Line by line -/

/-- What a reader knows after some lines: those of the free text, of every example and of the default
value, and the section that is open. -/
structure Reading where
  freeText : List Line
  examples : List (List Line)
  default : List Line
  opened : Option Marker

/-- A line put behind those of the last block. -/
def addToLast (l : Line) : List (List Line) → List (List Line)
  | [] => []
  | [b] => [b ++ [l]]
  | b :: c :: bs => b :: addToLast l (c :: bs)

namespace Reading

/-- Nothing is read, and the free text is open. -/
def start : Reading := ⟨[], [], [], none⟩

/-- A marker opens a section, an example a new block, and any other line goes where the reader is. -/
def next (r : Reading) (l : Line) : Reading :=
  match marker? l with
  | some .example => { r with examples := r.examples ++ [[]], opened := some .example }
  | some .default => { r with opened := some .default }
  | none =>
    match r.opened with
    | none => { r with freeText := r.freeText ++ [l] }
    | some .example => { r with examples := addToLast l r.examples }
    | some .default => { r with default := r.default ++ [l] }

/-- The annotations of what is read. -/
def annotations (r : Reading) : Annotations :=
  { description := nonEmpty? (block r.freeText)
    examples := Examples.ofList (r.examples.map fun b => String.ofList (block b))
    default := nonEmpty? (block r.default) }

/-- What is known of lines that are cut. -/
def ofCut (c : List Line × List (Marker × List Line)) : Reading :=
  ⟨c.1, bodies .example c.2, (bodies .default c.2).flatten, c.2.getLast?.map Prod.fst⟩

end Reading

/-- A line put behind those of the last section, or behind the free text if there is no section. -/
def addToLastSection (l : Line) (c : List Line × List (Marker × List Line)) :
    List Line × List (Marker × List Line) :=
  match c.2.getLast? with
  | none => (c.1 ++ [l], [])
  | some s => (c.1, c.2.dropLast ++ [(s.1, s.2 ++ [l])])

/-- The cut with one more line at the end. -/
theorem cut_concat (ls : List Line) (l : Line) : cut (ls ++ [l]) = match marker? l with
    | some m => ((cut ls).1, (cut ls).2 ++ [(m, [])])
    | none => addToLastSection l (cut ls) := by
  induction ls with
  | nil => cases h : marker? l <;> simp [cut, h, addToLastSection]
  | cons k ks ih =>
    rw [List.cons_append, cut, ih, cut]
    cases hk : marker? k with
    | none =>
      cases marker? l with
      | some m => rfl
      | none =>
        rcases List.eq_nil_or_concat (cut ks).2 with hnil | ⟨ss, s, hconcat⟩
        · simp [addToLastSection, hnil]
        · simp [addToLastSection, hconcat]
    | some m =>
      cases marker? l with
      | some m' => rfl
      | none =>
        rcases List.eq_nil_or_concat (cut ks).2 with hnil | ⟨ss, s, hconcat⟩
        · simp [addToLastSection, hnil]
        · simp [addToLastSection, hconcat, List.getLast?_cons, List.dropLast_cons_of_ne_nil]

theorem addToLast_concat (l : Line) (bs : List (List Line)) (b : List Line) :
    addToLast l (bs ++ [b]) = bs ++ [b ++ [l]] := by
  induction bs with
  | nil => rfl
  | cons c cs ih =>
    cases cs with
    | nil => rfl
    | cons d ds => exact congrArg (c :: ·) ih

namespace Reading

/-- **One more line** takes the reader from what is known of the lines so far to what is known with it. -/
theorem next_ofCut (ls : List Line) (l : Line) : (ofCut (cut ls)).next l = ofCut (cut (ls ++ [l])) := by
  rw [cut_concat]
  unfold next
  split
  · next h => simp [ofCut, h, bodies]
  · next h => simp [ofCut, h, bodies]
  · next h =>
    simp only [h]
    rcases List.eq_nil_or_concat (cut ls).2 with hnil | ⟨ss, s, hconcat⟩
    · simp [ofCut, addToLastSection, hnil, bodies]
    · obtain ⟨_ | _, b⟩ := s
      · simp [ofCut, addToLastSection, hconcat, bodies, addToLast_concat]
      · simp [ofCut, addToLastSection, hconcat, bodies]

/-- **After all lines** the reader has their segments. -/
theorem foldl_next (ls : List Line) : ls.foldl next start = ofCut (cut ls) := by
  induction ls using List.reverseRecOn with
  | nil => rfl
  | append_singleton ls l ih => rw [List.foldl_append, ih, List.foldl_cons, List.foldl_nil, next_ofCut]

end Reading

/-! ## Annotations -/

/-- The annotations of lines by their segments. -/
structure Segmented (ls : List Line) (r : Annotations) : Prop where
  title : r.title = none
  comment : r.comment = none
  description : r.description = nonEmpty? (block (leading ls))
  form : r.examples = Examples.ofList r.exampleList
  count : r.exampleList.length = ls.countP (IsMarkerLine .example ·)
  exampleBelow : ∀ above l under, ls = above ++ l :: under → IsMarkerLine .example l →
    r.exampleList[above.countP (IsMarkerLine .example ·)]? = some (String.ofList (block (leading under)))
  default : r.default = nonEmpty? (block (segments .default ls).flatten)
  inOneSegment : (ls.filter fun l => ¬IsMarked l).Perm
    (leading ls ++ ((segments .example ls).flatten ++ (segments .default ls).flatten))

theorem readChars_eq_foldl (t : List Char) :
    readChars t = ((lines t).foldl Reading.next .start).annotations := by
  rw [Reading.foldl_next]
  rfl

theorem readChars_eq_segments (t : List Char) : readChars t
    = { description := nonEmpty? (block (leading (lines t)))
        examples := Examples.ofList ((segments .example (lines t)).map fun b => String.ofList (block b))
        default := nonEmpty? (block (segments .default (lines t)).flatten) } := by
  rw [← cut_fst, ← bodies_eq, ← bodies_eq]
  rfl

/-- **A description is read by its segments**, whoever wrote it: the free text is what stands above the
first marker, each example what stands between its marker and the next, the default value all that
stands below markers of its own. It can be read one line after the other. -/
theorem text_read_by_segments (t : String) :
    Segmented (lines t.toList) (read (some t)) ∧
      read (some t) = ((lines t.toList).foldl Reading.next .start).annotations := by
  have hread : read (some t) = readChars t.toList := rfl
  have hexamples : (readChars t.toList).exampleList
      = (segments .example (lines t.toList)).map fun b => String.ofList (block b) := by
    rw [readChars_eq_segments]
    exact Examples.toList_ofList _
  rw [hread]
  refine ⟨⟨?_, ?_, ?_, ?_, ?_, ?_, ?_, unmarked_perm_segments _⟩, readChars_eq_foldl _⟩
  · rw [readChars_eq_segments]
  · rw [readChars_eq_segments]
  · rw [readChars_eq_segments]
  · rw [hexamples, readChars_eq_segments]
  · rw [hexamples, List.length_map, length_segments]
  · intro above l under hlines hl
    rw [hexamples, hlines, List.getElem?_map, getElem?_segments hl]
    rfl
  · rw [readChars_eq_segments]

/-- Sections in any order: an example with nothing in it, and a default value in two parts. -/
example : read (some "Size\n##default\n  1\n# example\n#default\n\n  2\n#\texample\n# examples")
    = { description := some "Size"
        examples := some (.many ["", "# examples"])
        default := some "1\n\n  2" } := by decide +kernel

end SchemaBridge.Description
