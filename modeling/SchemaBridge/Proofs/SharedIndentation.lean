import Mathlib.Data.List.Forall2
import Mathlib.Order.Bounds.Defs
import SchemaBridge.Sdl.Literal
import SchemaBridge.Text.Indent
/-!
# The indentation that lines share

`unindent` takes the least count of indentation characters at the start of a line off every line. Where
lines are cut by bytes, that count serves as a number of bytes: there must be as many in every line, and
a character has to end with the last of them. Both hold, as a space or a tab takes one byte and every
line starts with the counted ones.

Results:
* `fromByte?_eq_some_iff`: a text is cut behind a number of bytes exactly if its characters end there.
* `isGreatest_commonRun`: the count is the most that all lines start with.
* `unindentBytes?_eq`: cutting by bytes always succeeds, and leaves what cutting by characters leaves.
* `shared_indentation_removed`: the indentation that is shared goes, nothing else does, and unindenting
  undoes indenting.
-/
namespace SchemaBridge.Text

/-! ## Cutting by bytes -/

/-- What is left of a text behind so many bytes, if the text has them and no character is cut. -/
def fromByte? (n : Nat) (t : List Char) : Option (List Char) :=
  if n ≤ byteLength t then Sdl.Literal.dropBytes? n t else none

/-- As `unindent`, with every line cut by bytes; if a line cannot be, there is no result. -/
def unindentBytes? (ls : List Line) : Option (List Line) :=
  match indentChar? ls with
  | none => some ls
  | some c => ls.mapM (fromByte? (commonRun c ls))

theorem byteLength_append (s t : List Char) : byteLength (s ++ t) = byteLength s + byteLength t := by
  induction s with
  | nil => simp [byteLength]
  | cons c s ih => simp [byteLength, ih, Nat.add_assoc]

theorem byteLength_replicate (n : Nat) (c : Char) :
    byteLength (List.replicate n c) = n * c.utf8Size := by
  induction n with
  | zero => simp [byteLength]
  | succ n ih => rw [List.replicate_succ, byteLength, ih, Nat.succ_mul, Nat.add_comm]

theorem dropBytes?_append (s t : List Char) :
    Sdl.Literal.dropBytes? (byteLength s) (s ++ t) = some t := by
  induction s with
  | nil => cases t <;> rfl
  | cons c s ih =>
    -- A character has a byte at least, so that the number of bytes is no zero.
    obtain ⟨n, hn⟩ := Nat.exists_eq_add_one.mpr c.utf8Size_pos
    have hsize : c.utf8Size + byteLength s = n + byteLength s + 1 := by omega
    have hrest : n + byteLength s + 1 - c.utf8Size = byteLength s := by omega
    rw [List.cons_append, byteLength, hsize, Sdl.Literal.dropBytes?, if_pos (by omega), hrest, ih]

theorem eq_append_of_dropBytes? {n : Nat} {t u : List Char} (hn : n ≤ byteLength t)
    (h : Sdl.Literal.dropBytes? n t = some u) : ∃ s, byteLength s = n ∧ t = s ++ u := by
  induction t generalizing n with
  | nil =>
    obtain rfl : n = 0 := by simpa [byteLength] using hn
    exact ⟨[], rfl, Option.some.inj h⟩
  | cons c t ih =>
    cases n with
    | zero => exact ⟨[], rfl, Option.some.inj h⟩
    | succ n =>
      rw [byteLength] at hn
      rw [Sdl.Literal.dropBytes?] at h
      split at h
      · next hc =>
        obtain ⟨s, hs, rfl⟩ := ih (by omega) h
        exact ⟨c :: s, by rw [byteLength, hs]; omega, rfl⟩
      · cases h

/-- A text is cut where one of its characters ends, and nowhere else. -/
theorem fromByte?_eq_some_iff {n : Nat} {t u : List Char} :
    fromByte? n t = some u ↔ ∃ s, byteLength s = n ∧ t = s ++ u := by
  constructor
  · intro h
    unfold fromByte? at h
    split at h
    · next hn => exact eq_append_of_dropBytes? hn h
    · cases h
  · rintro ⟨s, rfl, rfl⟩
    rw [fromByte?, if_pos (by rw [byteLength_append]; omega), dropBytes?_append]

/-! ## What lines share -/

/-- All lines start with `n` copies of a character. -/
def IndentedBy (c : Char) (n : Nat) (ls : List Line) : Prop := ∀ l ∈ ls, List.replicate n c <+: l

theorem replicate_prefix_iff {c : Char} {n : Nat} {l : Line} :
    List.replicate n c <+: l ↔ n ≤ leadingRun c l := by
  constructor
  · rintro ⟨rest, rfl⟩
    rw [leadingRun, List.takeWhile_append_of_pos (by simp), List.length_append,
      List.length_replicate]
    omega
  · intro h
    exact ⟨l.drop n, replicate_append_drop h⟩

theorem le_commonRun {c : Char} {n : Nat} {ls : List Line} (hne : ls ≠ [])
    (h : ∀ l ∈ ls, n ≤ leadingRun c l) : n ≤ commonRun c ls := by
  induction ls with
  | nil => exact absurd rfl hne
  | cons l ls ih =>
    obtain ⟨hl, hls⟩ := List.forall_mem_cons.mp h
    cases ls with
    | nil => exact hl
    | cons m ms =>
      have hms := ih (by simp) hls
      rw [commonRun]
      omega

theorem indentedBy_iff {c : Char} {n : Nat} {ls : List Line} (hne : ls ≠ []) :
    IndentedBy c n ls ↔ n ≤ commonRun c ls := by
  unfold IndentedBy
  simp only [replicate_prefix_iff]
  exact ⟨le_commonRun hne, fun h l hl => Nat.le_trans h (commonRun_le hl)⟩

/-- The least count of a character at the start of a line is the most that all lines start with. -/
theorem isGreatest_commonRun (c : Char) {ls : List Line} (hne : ls ≠ []) :
    IsGreatest {n | IndentedBy c n ls} (commonRun c ls) :=
  ⟨(indentedBy_iff hne).mpr (Nat.le_refl _), fun _ h => (indentedBy_iff hne).mp h⟩

/-- Where lines are indented with a character of one byte, they can be cut by bytes. -/
theorem fromByte?_commonRun {c : Char} (hc : c.utf8Size = 1) {ls : List Line} {l : Line}
    (hl : l ∈ ls) : fromByte? (commonRun c ls) l = some (l.drop (commonRun c ls)) := by
  rw [fromByte?_eq_some_iff]
  refine ⟨List.replicate (commonRun c ls) c, ?_, (replicate_append_drop (commonRun_le hl)).symm⟩
  rw [byteLength_replicate, hc, Nat.mul_one]

theorem mapM_eq_some_map {α β : Type} {f : α → Option β} {g : α → β} {xs : List α}
    (h : ∀ x ∈ xs, f x = some (g x)) : xs.mapM f = some (xs.map g) := by
  induction xs with
  | nil => rfl
  | cons x xs ih =>
    obtain ⟨hx, hxs⟩ := List.forall_mem_cons.mp h
    simp [List.mapM_cons, hx, ih hxs]

/-- Cutting by bytes never fails, and leaves the same. -/
theorem unindentBytes?_eq (ls : List Line) : unindentBytes? ls = some (unindent ls) := by
  unfold unindentBytes? unindent
  cases h : indentChar? ls with
  | none => rfl
  | some c =>
    have hc : c.utf8Size = 1 := by
      rcases eq_of_indentChar? h with rfl | rfl <;> rfl
    exact mapM_eq_some_map fun l hl => fromByte?_commonRun hc hl

/-! ## Unindenting -/

/-- The first of the lines starts with a character. -/
def StartWith (c : Char) (ls : List Line) : Prop := ∃ l rest, ls = (c :: l) :: rest

theorem indentChar?_eq_some_iff {c : Char} {ls : List Line} :
    indentChar? ls = some c ↔ (c = ' ' ∨ c = '\t') ∧ StartWith c ls := by
  constructor
  · intro h
    refine ⟨eq_of_indentChar? h, ?_⟩
    unfold indentChar? at h
    split at h
    · split at h
      · cases h
        exact ⟨_, _, rfl⟩
      · cases h
    · cases h
  · rintro ⟨hc, l, rest, rfl⟩
    exact if_pos hc

/-- The lines of a text start with what the text starts with, unless that is a newline. -/
theorem startWith_lines_iff {c : Char} (hc : c ≠ '\n') {t : List Char} :
    StartWith c (lines t) ↔ t.head? = some c := by
  cases t with
  | nil => simp [StartWith]
  | cons d t =>
    by_cases hd : d = '\n'
    · subst hd
      simp [StartWith, lines_newline, Ne.symm hc]
    · obtain ⟨l, ls, -, hlines⟩ := lines_cons hd t
      simp [StartWith, hlines]

/-- What unindenting does to lines. -/
structure LoseSharedIndentation (ls : List Line) : Prop where
  /-- There are as many lines as before. -/
  length_eq : (unindent ls).length = ls.length
  /-- Cut by bytes, every line has as many as are to go, and no character is cut in two. -/
  bytes : unindentBytes? ls = some (unindent ls)
  /-- If the first line starts with a space or a tab, the most that all lines share of it goes. -/
  indented : ∀ c, c = ' ' ∨ c = '\t' → StartWith c ls → ∃ k, IsGreatest {n | IndentedBy c n ls} k ∧
    List.Forall₂ (fun l m => l = List.replicate k c ++ m) ls (unindent ls)
  /-- If it starts with neither, nothing goes. -/
  unindented : (∀ c, c = ' ' ∨ c = '\t' → ¬ StartWith c ls) → unindent ls = ls

theorem loseSharedIndentation (ls : List Line) : LoseSharedIndentation ls := by
  refine ⟨length_unindent ls, unindentBytes?_eq ls, ?_, ?_⟩
  · intro c hc hstart
    have hchar : indentChar? ls = some c := indentChar?_eq_some_iff.mpr ⟨hc, hstart⟩
    have hne : ls ≠ [] := by
      obtain ⟨l, rest, rfl⟩ := hstart
      exact List.cons_ne_nil _ _
    refine ⟨commonRun c ls, isGreatest_commonRun c hne, ?_⟩
    rw [unindent, hchar, List.forall₂_map_right_iff, List.forall₂_same]
    intro l hl
    exact (replicate_append_drop (commonRun_le hl)).symm
  · intro hnot
    apply unindent_of_unmarked
    rw [Option.eq_none_iff_forall_ne_some]
    intro c h
    obtain ⟨hc, hstart⟩ := indentChar?_eq_some_iff.mp h
    exact hnot c hc hstart

/-- **Exactly the indentation that is shared goes, and unindenting undoes indenting.** Whatever the
lines are, each loses the same copies of the first line's space or tab, as many as all of them start
with. A text whose first line does not start with a space is read back from its indented lines. -/
theorem shared_indentation_removed :
    (∀ ls, LoseSharedIndentation ls) ∧
      ∀ t, ¬ StartWith ' ' (lines t) → unindent (lines (indent t)) = lines t := by
  refine ⟨loseSharedIndentation, fun t ht => unindent_lines_indent ?_⟩
  rwa [startWith_lines_iff (by decide)] at ht

/-- Lines with a tab more in the middle, spaces behind a tab, and characters of several bytes. -/
def tabbedLines : List Line := ["\té😀".toList, "\t\tx".toList, "\t  \t".toList]

/-- A text with a tab in front and an empty line. -/
def tabbedText : List Char := "\té\n\n  x".toList

theorem shared_indentation_removed_tabbedLines :
    (unindent tabbedLines = ["é😀".toList, "\tx".toList, "  \t".toList] ∧
      unindentBytes? tabbedLines = some ["é😀".toList, "\tx".toList, "  \t".toList] ∧
      (∃ k, IsGreatest {n | IndentedBy '\t' n tabbedLines} k ∧
        List.Forall₂ (fun l m => l = List.replicate k '\t' ++ m) tabbedLines (unindent tabbedLines))) ∧
    (¬ StartWith ' ' (lines tabbedText) ∧ unindent (lines (indent tabbedText)) = lines tabbedText) := by
  have hlost := shared_indentation_removed.1 tabbedLines
  have hout : unindent tabbedLines = ["é😀".toList, "\tx".toList, "  \t".toList] := by decide +kernel
  have hspace : ¬ StartWith ' ' (lines tabbedText) := by
    rw [startWith_lines_iff (by decide)]
    decide
  exact ⟨⟨hout, hout ▸ hlost.bytes, hlost.indented '\t' (.inr rfl) ⟨_, _, rfl⟩⟩, hspace,
    shared_indentation_removed.2 tabbedText hspace⟩

end SchemaBridge.Text
