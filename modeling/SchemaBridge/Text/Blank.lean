import SchemaBridge.Text.Ranges
/-!
# Blank characters

The blank characters are those with the Unicode property `White_Space`. Trimming removes them
from the ends of a text.

Results:
* `isBlank_of_isWhitespace`: every character that core calls whitespace is blank.
* `trim_eq_nil_iff`: trimming leaves nothing of blank texts only.
* `trim_append`: of two texts that are not blank, each is trimmed at its own end.
* `trim_append_of_blank`, `trim_of_blank_append`: a blank text at an end goes away.
* `trim_trim`: trimming again changes nothing.
* `trimStart_trimEnd`: the ends may be trimmed in either order.
* `mem_trim`: a character that is not blank stays.
-/
namespace SchemaBridge.Text

/-- The inclusive ranges of code points with the property `White_Space`. -/
def blankRanges : Ranges :=
  [(0x9, 0xD), (0x20, 0x20), (0x85, 0x85), (0xA0, 0xA0), (0x1680, 0x1680), (0x2000, 0x200A),
   (0x2028, 0x2029), (0x202F, 0x202F), (0x205F, 0x205F), (0x3000, 0x3000)]

/-- Whether a character has the property `White_Space`. -/
def isBlank (c : Char) : Bool := inRanges blankRanges c

/-- A text of blank characters only; the empty text is one. -/
def allBlank (t : List Char) : Bool := t.all isBlank

def trimStart (t : List Char) : List Char := t.dropWhile isBlank

def trimEnd (t : List Char) : List Char := (t.reverse.dropWhile isBlank).reverse

def trim (t : List Char) : List Char := trimEnd (trimStart t)

theorem isBlank_of_isWhitespace {c : Char} (h : c.isWhitespace = true) : isBlank c = true := by
  simp only [Char.isWhitespace, Bool.or_eq_true, decide_eq_true_eq] at h
  rcases h with ((rfl | rfl) | rfl) | rfl <;> decide

/-- Trimming at the front splits off a blank text. -/
theorem takeWhile_append_trimStart (t : List Char) :
    t.takeWhile isBlank ++ trimStart t = t := List.takeWhile_append_dropWhile

theorem trimStart_eq_nil_iff {t : List Char} : trimStart t = [] ↔ allBlank t = true := by
  induction t with
  | nil => simp [trimStart, allBlank]
  | cons c cs ih =>
    by_cases hc : isBlank c = true
    · have hstart : trimStart (c :: cs) = trimStart cs := by simp [trimStart, hc]
      have hall : allBlank (c :: cs) = allBlank cs := by simp [allBlank, hc]
      rw [hstart, hall, ih]
    · simp [trimStart, allBlank, hc]

theorem allBlank_reverse (t : List Char) : allBlank t.reverse = allBlank t := by
  simp [allBlank]

theorem trimEnd_eq_nil_iff {t : List Char} : trimEnd t = [] ↔ allBlank t = true := by
  rw [trimEnd, List.reverse_eq_nil_iff, ← allBlank_reverse]
  exact trimStart_eq_nil_iff

theorem allBlank_trimStart (t : List Char) : allBlank (trimStart t) = allBlank t := by
  induction t with
  | nil => rfl
  | cons c cs ih =>
    by_cases hc : isBlank c = true
    · simpa [trimStart, allBlank, hc] using ih
    · simp [trimStart, hc]

theorem allBlank_trimEnd (t : List Char) : allBlank (trimEnd t) = allBlank t := by
  rw [trimEnd, allBlank_reverse, ← allBlank_reverse t]
  exact allBlank_trimStart t.reverse

theorem trim_eq_nil_iff {t : List Char} : trim t = [] ↔ allBlank t = true := by
  rw [trim, trimEnd_eq_nil_iff, allBlank_trimStart]

/-! ## Texts in two parts -/

theorem trimStart_append {s : List Char} (h : allBlank s = false) (t : List Char) :
    trimStart (s ++ t) = trimStart s ++ t := by
  induction s with
  | nil => cases h
  | cons c cs ih =>
    cases hc : isBlank c with
    | true =>
      have hcs : allBlank cs = false := by simpa [allBlank, hc] using h
      simpa [trimStart, hc] using ih hcs
    | false => simp [trimStart, hc]

theorem trimStart_of_blank_append {s : List Char} (h : allBlank s = true) (t : List Char) :
    trimStart (s ++ t) = trimStart t := by
  induction s with
  | nil => rfl
  | cons c cs ih =>
    obtain ⟨hc, hcs⟩ : isBlank c = true ∧ allBlank cs = true := by simpa [allBlank] using h
    simpa [trimStart, hc] using ih hcs

theorem trimEnd_eq_reverse (t : List Char) : trimEnd t = (trimStart t.reverse).reverse := rfl

theorem trimEnd_append (s : List Char) {t : List Char} (h : allBlank t = false) :
    trimEnd (s ++ t) = s ++ trimEnd t := by
  rw [← allBlank_reverse] at h
  rw [trimEnd_eq_reverse, List.reverse_append, trimStart_append h, List.reverse_append,
    List.reverse_reverse, trimEnd_eq_reverse]

theorem trimEnd_append_of_blank (s : List Char) {t : List Char} (h : allBlank t = true) :
    trimEnd (s ++ t) = trimEnd s := by
  rw [← allBlank_reverse] at h
  rw [trimEnd_eq_reverse, List.reverse_append, trimStart_of_blank_append h, trimEnd_eq_reverse]

/-- Trimming at the end splits off a blank text. -/
theorem exists_trimEnd_append (t : List Char) : ∃ u, allBlank u = true ∧ trimEnd t ++ u = t := by
  refine ⟨(t.reverse.takeWhile isBlank).reverse, ?_, ?_⟩
  · rw [allBlank_reverse, allBlank, List.all_eq_true]
    exact fun c hc => List.all_eq_true.mp List.all_takeWhile c hc
  · have hsplit := congrArg List.reverse (takeWhile_append_trimStart t.reverse)
    rwa [List.reverse_append, List.reverse_reverse] at hsplit

theorem allBlank_append (s t : List Char) : allBlank (s ++ t) = (allBlank s && allBlank t) :=
  List.all_append

theorem allBlank_of_mem {c : Char} {t : List Char} (h : c ∈ t) (hc : isBlank c = false) :
    allBlank t = false := by
  rw [allBlank, List.all_eq_false]
  exact ⟨c, h, by simp [hc]⟩

theorem trim_append {s t : List Char} (hs : allBlank s = false) (ht : allBlank t = false) :
    trim (s ++ t) = trimStart s ++ trimEnd t := by
  rw [trim, trimStart_append hs, trimEnd_append _ ht]

theorem trim_of_blank_append {s : List Char} (h : allBlank s = true) (t : List Char) :
    trim (s ++ t) = trim t := by
  rw [trim, trimStart_of_blank_append h, trim]

theorem trim_append_of_blank (s : List Char) {t : List Char} (h : allBlank t = true) :
    trim (s ++ t) = trim s := by
  cases hs : allBlank s with
  | true => rw [trim_of_blank_append hs, trim_eq_nil_iff.mpr h, trim_eq_nil_iff.mpr hs]
  | false => rw [trim, trimStart_append hs, trimEnd_append_of_blank _ h, trim]

theorem trimStart_cons {c : Char} (h : isBlank c = false) (cs : List Char) :
    trimStart (c :: cs) = c :: cs := by
  simp [trimStart, h]

theorem trimEnd_concat (s : List Char) {c : Char} (h : isBlank c = false) :
    trimEnd (s ++ [c]) = s ++ [c] := by
  have hc : trimEnd [c] = [c] := by rw [trimEnd_eq_reverse, List.reverse_singleton, trimStart_cons h]; rfl
  rw [trimEnd_append s (allBlank_of_mem List.mem_cons_self h), hc]

theorem trimStart_trimStart (t : List Char) : trimStart (trimStart t) = trimStart t := by
  induction t with
  | nil => rfl
  | cons c cs ih =>
    cases hc : isBlank c with
    | true => simpa [trimStart, hc] using ih
    | false => rw [trimStart_cons hc, trimStart_cons hc]

theorem trimEnd_trimEnd (t : List Char) : trimEnd (trimEnd t) = trimEnd t := by
  rw [trimEnd_eq_reverse, trimEnd_eq_reverse, List.reverse_reverse, trimStart_trimStart]

/-- A text that is not blank starts with what is not blank, once its start is trimmed. -/
theorem exists_trimStart_eq {t : List Char} (h : allBlank t = false) :
    ∃ c cs, trimStart t = c :: cs ∧ isBlank c = false := by
  induction t with
  | nil => cases h
  | cons c cs ih =>
    cases hc : isBlank c with
    | true =>
      have hcs : allBlank cs = false := by simpa [allBlank, hc] using h
      simpa [trimStart, hc] using ih hcs
    | false => exact ⟨c, cs, trimStart_cons hc cs, hc⟩

theorem trimStart_trim (t : List Char) : trimStart (trim t) = trim t := by
  cases ht : allBlank t with
  | true => rw [trim_eq_nil_iff.mpr ht]; rfl
  | false =>
    obtain ⟨c, cs, hstart, hc⟩ := exists_trimStart_eq ht
    have hsplit : trimStart t = [c] ++ cs := hstart
    rw [trim, hsplit]
    cases hcs : allBlank cs with
    | true =>
      have hend : trimEnd [c] = [c] := trimEnd_concat [] hc
      rw [trimEnd_append_of_blank _ hcs, hend, trimStart_cons hc]
    | false => rw [trimEnd_append _ hcs]; exact trimStart_cons hc _

theorem trim_trimStart (t : List Char) : trim (trimStart t) = trim t := by
  rw [trim, trimStart_trimStart, trim]

theorem trim_trim (t : List Char) : trim (trim t) = trim t := by
  rw [trim, trimStart_trim, trim, trimEnd_trimEnd]

/-- The ends may be trimmed in either order. -/
theorem trimStart_trimEnd (t : List Char) : trimStart (trimEnd t) = trim t := by
  obtain ⟨u, hu, hsplit⟩ := exists_trimEnd_append t
  have hstart : trimStart (trimEnd t) = (trim t.reverse).reverse := by
    rw [trimEnd_eq_reverse, ← List.reverse_reverse (trimStart (trimStart t.reverse).reverse),
      ← trimEnd_eq_reverse, trim]
  have hend : trimEnd (trimStart (trimEnd t)) = trimStart (trimEnd t) := by
    rw [hstart, trimEnd_eq_reverse, List.reverse_reverse, trimStart_trim]
  calc trimStart (trimEnd t) = trim (trimEnd t) := hend.symm
    _ = trim (trimEnd t ++ u) := (trim_append_of_blank _ hu).symm
    _ = trim t := by rw [hsplit]

/-- A text that is not blank ends with what is not blank, once its end is trimmed. -/
theorem exists_trimEnd_eq {t : List Char} (h : allBlank t = false) :
    ∃ cs c, trimEnd t = cs ++ [c] ∧ isBlank c = false := by
  rw [← allBlank_reverse] at h
  obtain ⟨c, cs, hstart, hc⟩ := exists_trimStart_eq h
  exact ⟨cs.reverse, c, by rw [trimEnd_eq_reverse, hstart, List.reverse_cons], hc⟩

theorem mem_trimStart {c : Char} {t : List Char} (h : c ∈ t) (hc : isBlank c = false) :
    c ∈ trimStart t := by
  rw [← takeWhile_append_trimStart t, List.mem_append] at h
  rcases h with h | h
  · have hblank := List.all_eq_true.mp List.all_takeWhile c h
    rw [hc] at hblank
    cases hblank
  · exact h

theorem mem_trimEnd {c : Char} {t : List Char} (h : c ∈ t) (hc : isBlank c = false) :
    c ∈ trimEnd t := by
  rw [trimEnd_eq_reverse, List.mem_reverse]
  exact mem_trimStart (List.mem_reverse.mpr h) hc

theorem mem_trim {c : Char} {t : List Char} (h : c ∈ t) (hc : isBlank c = false) : c ∈ trim t :=
  mem_trimEnd (mem_trimStart h hc) hc

/-- The text without its blank ends. -/
def trimString (s : String) : String := String.ofList (trim s.toList)

/-- The text without its blank end. -/
def trimStringEnd (s : String) : String := String.ofList (trimEnd s.toList)

end SchemaBridge.Text
