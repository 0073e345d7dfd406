import SchemaBridge.Text.Lines
/-!
# Indentation

`indent` puts four spaces before every line of a text. `unindent` removes the indentation that
all lines share: the character is the first character of the first line, if that is a space or
a tab, and the amount is the least run of it at the start of any line.

Results:
* `length_unindent`: a line in, a line out.
* `unindent_of_unmarked`: lines whose first line is not indented stay as they are.
* `append_unindent`: what is removed is `commonRun` copies of the indentation character.
* `lines_indent`: indenting keeps the lines apart.
* `unindent_lines_indent`: unindenting undoes indenting, if the text itself does not start with a space.
* `unindent_of_empty_line`: lines with an empty line among them share no indentation.
-/
namespace SchemaBridge.Text

/-- The four spaces of one indentation step. -/
def indentStep : List Char := [' ', ' ', ' ', ' ']

/-- Every line one step to the right, blank lines too. -/
def indent (t : List Char) : List Char := unlines ((lines t).map (indentStep ++ ·))

/-- The number of copies of `c` at the start of a line. -/
def leadingRun (c : Char) (l : Line) : Nat := (l.takeWhile (· = c)).length

/-- The character that the lines may be indented with, read off the first line. -/
def indentChar? : List Line → Option Char
  | (c :: _) :: _ => if c = ' ' ∨ c = '\t' then some c else none
  | _ => none

/-- The least run of `c` at the start of any of the lines. -/
def commonRun (c : Char) : List Line → Nat
  | [] => 0
  | [l] => leadingRun c l
  | l :: m :: ls => min (leadingRun c l) (commonRun c (m :: ls))

/-- The lines without the indentation they share. -/
def unindent (ls : List Line) : List Line :=
  match indentChar? ls with
  | none => ls
  | some c => ls.map (List.drop (commonRun c ls))

@[simp] theorem length_unindent (ls : List Line) : (unindent ls).length = ls.length := by
  unfold unindent; split <;> simp

theorem unindent_of_unmarked {ls : List Line} (h : indentChar? ls = none) : unindent ls = ls := by
  simp [unindent, h]

theorem commonRun_le {c : Char} {ls : List Line} {l : Line} (h : l ∈ ls) :
    commonRun c ls ≤ leadingRun c l := by
  induction ls with
  | nil => simp at h
  | cons m ms ih =>
    cases ms with
    | nil => simp_all [commonRun]
    | cons n ns =>
      rw [commonRun]
      rcases List.mem_cons.mp h with rfl | h
      · omega
      · have := ih h; omega

/-- A run at least `n` long means that dropping `n` characters drops `n` copies. -/
theorem replicate_append_drop {c : Char} {l : Line} {n : Nat} (h : n ≤ leadingRun c l) :
    List.replicate n c ++ l.drop n = l := by
  induction l generalizing n with
  | nil => simp_all [leadingRun]
  | cons d ds ih =>
    cases n with
    | zero => simp
    | succ n =>
      by_cases hd : d = c
      · subst hd
        have : n ≤ leadingRun d ds := by simpa [leadingRun] using h
        simp [List.replicate_succ, ih this]
      · simp [leadingRun, hd] at h

/-- Each line is the shared indentation followed by what `unindent` leaves of it. -/
theorem append_unindent {c : Char} {ls : List Line} (h : indentChar? ls = some c) :
    (unindent ls).map (List.replicate (commonRun c ls) c ++ ·) = ls := by
  simp only [unindent, h, List.map_map]
  calc ls.map _ = ls.map id := List.map_congr_left fun l hl => replicate_append_drop (commonRun_le hl)
    _ = ls := List.map_id ls

theorem commonRun_eq_zero {c : Char} {ls : List Line} {l : Line} (h : l ∈ ls)
    (hl : leadingRun c l = 0) : commonRun c ls = 0 := by
  have := commonRun_le (c := c) h
  omega

theorem unindent_of_empty_line {ls : List Line} (h : [] ∈ ls) : unindent ls = ls := by
  unfold unindent
  split
  · rfl
  · rw [commonRun_eq_zero h rfl]
    exact List.map_id ls

/-- Lines are indented with spaces or with tabs. -/
theorem eq_of_indentChar? {c : Char} {ls : List Line} (h : indentChar? ls = some c) :
    c = ' ' ∨ c = '\t' := by
  unfold indentChar? at h
  split at h
  · split at h
    · next hmark => rwa [← Option.some.inj h]
    · cases h
  · cases h

/-- A character that no line is indented with stays. -/
theorem exists_mem_unindent {c : Char} (hspace : c ≠ ' ') (htab : c ≠ '\t') {ls : List Line}
    {l : Line} (hl : l ∈ ls) (hc : c ∈ l) : ∃ m ∈ unindent ls, c ∈ m := by
  cases h : indentChar? ls with
  | none => exact ⟨l, by rwa [unindent_of_unmarked h], hc⟩
  | some d =>
    rw [← append_unindent h, List.mem_map] at hl
    obtain ⟨m, hm, rfl⟩ := hl
    refine ⟨m, hm, ?_⟩
    rcases List.mem_append.mp hc with hc | hc
    · obtain rfl := (List.mem_replicate.mp hc).2
      exact ((eq_of_indentChar? h).elim hspace htab).elim
    · exact hc

/-! ## Indenting -/

theorem lines_indent (t : List Char) : lines (indent t) = (lines t).map (indentStep ++ ·) := by
  apply lines_unlines
  · simp [lines_ne_nil]
  · intro l hl
    obtain ⟨m, hm, rfl⟩ := List.mem_map.mp hl
    have hnl := newline_not_mem_of_mem_lines hm
    simp [indentStep, hnl]

theorem indent_of_not_mem {t : List Char} (h : '\n' ∉ t) : indent t = indentStep ++ t := by
  rw [indent, lines_of_not_mem h]
  rfl

theorem indent_append_newline (s t : List Char) :
    indent (s ++ '\n' :: t) = indent s ++ '\n' :: indent t := by
  have hs : (lines s).map (indentStep ++ ·) ≠ [] := by simp [lines_ne_nil]
  have ht : (lines t).map (indentStep ++ ·) ≠ [] := by simp [lines_ne_nil]
  rw [indent, lines_append_newline, List.map_append, unlines_append hs ht, indent, indent]

/-- A character at the end of a text stays there. -/
theorem indent_concat (t : List Char) {c : Char} (hc : c ≠ '\n') : indent (t ++ [c]) = indent t ++ [c] := by
  obtain ⟨ls, l, m, ms, ht, hm, happend⟩ := lines_append t [c]
  rw [lines_of_not_mem (by simpa using Ne.symm hc)] at hm
  obtain ⟨rfl, rfl⟩ := List.cons.inj hm
  rw [indent, indent, ht, happend, List.map_append, List.map_append]
  cases ls with
  | nil => simp [unlines]
  | cons k ks =>
    rw [unlines_append (by simp) (by simp), unlines_append (by simp) (by simp)]
    simp [unlines]

theorem mem_indent {c : Char} {t : List Char} (hc : c ≠ '\n') (h : c ∈ t) : c ∈ indent t := by
  obtain ⟨l, hl, hcl⟩ := (mem_iff_exists_line hc).mp h
  rw [mem_iff_exists_line hc, lines_indent]
  exact ⟨indentStep ++ l, List.mem_map_of_mem hl, List.mem_append_right _ hcl⟩

theorem leadingRun_indentStep (l : Line) : leadingRun ' ' (indentStep ++ l) = 4 + leadingRun ' ' l := by
  simp [leadingRun, indentStep]
  omega

theorem commonRun_map_indentStep {ls : List Line} (h : ls ≠ []) :
    commonRun ' ' (ls.map (indentStep ++ ·)) = 4 + commonRun ' ' ls := by
  induction ls with
  | nil => exact absurd rfl h
  | cons l ls ih =>
    cases ls with
    | nil => exact leadingRun_indentStep l
    | cons m ms =>
      have hms := ih (by simp)
      rw [List.map_cons, List.map_cons, commonRun, leadingRun_indentStep, commonRun]
      rw [List.map_cons] at hms
      rw [hms]
      omega

/-- Indented lines lose the indentation step and nothing else, if one of them was not indented. -/
theorem unindent_map_indentStep {ls : List Line} {l : Line} (hl : l ∈ ls)
    (h : leadingRun ' ' l = 0) : unindent (ls.map (indentStep ++ ·)) = ls := by
  have hne : ls ≠ [] := List.ne_nil_of_mem hl
  have hchar : indentChar? (ls.map (indentStep ++ ·)) = some ' ' := by
    cases ls with
    | nil => exact absurd rfl hne
    | cons m ms => rfl
  have hrun : commonRun ' ' (ls.map (indentStep ++ ·)) = 4 := by
    rw [commonRun_map_indentStep hne, commonRun_eq_zero hl h]
  simp only [unindent, hchar, hrun, List.map_map]
  exact List.map_id ls

theorem unindent_lines_indent {t : List Char} (h : t.head? ≠ some ' ') :
    unindent (lines (indent t)) = lines t := by
  rw [lines_indent]
  cases t with
  | nil => rfl
  | cons c cs =>
    have hc : c ≠ ' ' := by simpa using h
    by_cases hnl : c = '\n'
    · subst hnl
      rw [lines_newline]
      exact unindent_map_indentStep List.mem_cons_self rfl
    · obtain ⟨l, ls, -, hlines⟩ := lines_cons hnl cs
      rw [hlines]
      exact unindent_map_indentStep List.mem_cons_self (by simp [leadingRun, hc])

end SchemaBridge.Text
