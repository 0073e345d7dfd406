import Mathlib.Data.List.Induction
import Mathlib.Order.Basic
import SchemaBridge.Text.Lines
import SchemaBridge.Text.Position
/-!
# Positions in the order of a text

Positions are ordered by line, and on a line by column. A position points into a text if the text has
a line of its number and that line a character of its column, both counted from one. These are the
positions that are reached by walking over the characters of the text (`pointsInto_iff`).

Results:
* `after_append`: walking over a text in two parts.
* `le_after`, `lt_after`: walking on goes up in the order.
* `after_of_lines`: where walking over a text ends, in terms of its lines.
* `pointsInto_iff_lines`: the line that a position points at, cut in front of the character.
* `pointsInto_iff`: what a position points at stands behind the text that leads to it.
-/
namespace SchemaBridge.Text

/-! ## The order of positions -/

namespace Position

instance : Preorder Position where
  le p q := p.line < q.line ∨ p.line = q.line ∧ p.column ≤ q.column
  lt p q := p.line < q.line ∨ p.line = q.line ∧ p.column < q.column
  le_refl p := .inr ⟨rfl, Nat.le_refl _⟩
  le_trans p q r h h' := by omega
  lt_iff_le_not_ge p q := by omega

theorem lt_iff {p q : Position} :
    p < q ↔ p.line < q.line ∨ p.line = q.line ∧ p.column < q.column := Iff.rfl

theorem lt_nextLine (p : Position) : p < p.nextLine := .inl (Nat.lt_succ_self p.line)

theorem le_right (p : Position) (n : Nat) : p ≤ p.right n := .inr ⟨rfl, Nat.le_add_right _ _⟩

theorem lt_right (p : Position) {n : Nat} (h : 0 < n) : p < p.right n :=
  .inr ⟨rfl, Nat.lt_add_of_pos_right h⟩

/-! ## Walking over a text -/

theorem after_append (p : Position) (s t : List Char) : p.after (s ++ t) = (p.after s).after t := by
  induction s generalizing p with
  | nil => rfl
  | cons c s ih =>
    rw [List.cons_append, after, after, ih, ih]
    split <;> rfl

theorem le_after (p : Position) (t : List Char) : p ≤ p.after t := by
  induction t generalizing p with
  | nil => exact le_rfl
  | cons c t ih =>
    rw [after]
    split
    · exact (lt_nextLine p).le.trans (ih p.nextLine)
    · exact (le_right p 1).trans (ih (p.right 1))

theorem lt_after (p : Position) {t : List Char} (h : t ≠ []) : p < p.after t := by
  obtain ⟨c, t, rfl⟩ := List.exists_cons_of_ne_nil h
  rw [after]
  split
  · exact (lt_nextLine p).trans_le (le_after p.nextLine t)
  · exact (lt_right p Nat.one_pos).trans_le (le_after (p.right 1) t)

/-- Walking over a text from the start ends behind its last line. -/
theorem after_start (t : List Char) :
    ∃ ls l, lines t = ls ++ [l] ∧ start.after t = ⟨ls.length + 1, l.length + 1⟩ := by
  induction t using List.reverseRecOn with
  | nil => exact ⟨[], [], rfl, rfl⟩
  | append_singleton t c ih =>
    obtain ⟨ls, l, hlines, hafter⟩ := ih
    rw [after_append, hafter]
    by_cases hc : c = '\n'
    · subst hc
      refine ⟨ls ++ [l], [], by rw [lines_append_newline, hlines, lines_nil], ?_⟩
      rw [List.length_append]
      rfl
    · obtain ⟨ks, k, m, ms, ht, hm, happend⟩ := lines_append t [c]
      obtain ⟨rfl, hk⟩ := List.append_inj' (hlines.symm.trans ht) rfl
      obtain ⟨rfl, -⟩ := List.cons.inj hk
      rw [lines_of_not_mem (by simpa using Ne.symm hc)] at hm
      obtain ⟨rfl, rfl⟩ := List.cons.inj hm
      exact ⟨ls, l ++ [c], happend, by rw [after, if_neg hc, List.length_append]; rfl⟩

theorem after_of_lines {t : List Char} {ls : List Line} {l : Line} (h : lines t = ls ++ [l]) :
    start.after t = ⟨ls.length + 1, l.length + 1⟩ := by
  obtain ⟨ls', l', h', hafter⟩ := after_start t
  obtain ⟨rfl, hl⟩ := List.append_inj' (h.symm.trans h') rfl
  obtain ⟨rfl, -⟩ := List.cons.inj hl
  exact hafter

/-! ## Pointing into a text -/

/-- There is a line of this number, and a character of this column on it. -/
def PointsInto (p : Position) (t : List Char) : Prop :=
  1 ≤ p.line ∧ 1 ≤ p.column ∧ ∃ l, (lines t)[p.line - 1]? = some l ∧ p.column ≤ l.length

/-- Lines are cut at a place on one of them. -/
theorem unlines_cut (ls : List Line) (u v : Line) (ms : List Line) :
    ∃ w, unlines (ls ++ (u ++ v) :: ms) = unlines (ls ++ [u]) ++ (v ++ w) := by
  have hline : ∃ w, unlines ((u ++ v) :: ms) = u ++ (v ++ w) := by
    cases ms with
    | nil => exact ⟨[], by simp [unlines]⟩
    | cons m ms => exact ⟨'\n' :: unlines (m :: ms), by simp [unlines, joinWith_cons]⟩
  obtain ⟨w, hw⟩ := hline
  cases ls with
  | nil => exact ⟨w, hw⟩
  | cons l ls =>
    refine ⟨w, ?_⟩
    rw [unlines_append (List.cons_ne_nil l ls) (by simp), hw,
      unlines_append (List.cons_ne_nil l ls) (by simp), List.append_assoc]
    rfl

/-- The line is cut in front of the character that a position points at. -/
theorem pointsInto_iff_lines {p : Position} {t : List Char} :
    p.PointsInto t ↔
      ∃ ls u c r ms, lines t = ls ++ (u ++ c :: r) :: ms ∧ p = ⟨ls.length + 1, u.length + 1⟩ := by
  constructor
  · rintro ⟨hline, hcolumn, l, hl, hlength⟩
    obtain ⟨hlt, hget⟩ := List.getElem?_eq_some_iff.mp hl
    have hdrop : (lines t).drop (p.line - 1) = l :: (lines t).drop p.line := by
      rw [List.drop_eq_getElem_cons hlt, hget, Nat.sub_add_cancel hline]
    obtain ⟨c, r, hr⟩ : ∃ c r, l.drop (p.column - 1) = c :: r :=
      List.exists_cons_of_ne_nil (by rw [ne_eq, List.drop_eq_nil_iff]; omega)
    refine ⟨(lines t).take (p.line - 1), l.take (p.column - 1), c, r, (lines t).drop p.line, ?_, ?_⟩
    · rw [← hr, List.take_append_drop, ← hdrop, List.take_append_drop]
    · rw [List.length_take_of_le (by omega), List.length_take_of_le (by omega),
        Nat.sub_add_cancel hline, Nat.sub_add_cancel hcolumn]
  · rintro ⟨ls, u, c, r, ms, hlines, rfl⟩
    exact ⟨Nat.le_add_left 1 _, Nat.le_add_left 1 _, u ++ c :: r, by simp [hlines], by simp⟩

/-- What a position points at stands behind the text that leads to it. -/
theorem pointsInto_iff {p : Position} {t : List Char} :
    p.PointsInto t ↔ ∃ s c r, t = s ++ c :: r ∧ c ≠ '\n' ∧ start.after s = p := by
  rw [pointsInto_iff_lines]
  constructor
  · rintro ⟨ls, u, c, r, ms, hlines, rfl⟩
    have hno : ∀ l ∈ lines t, '\n' ∉ l := fun l hl => newline_not_mem_of_mem_lines hl
    rw [hlines, List.forall_mem_append, List.forall_mem_cons] at hno
    obtain ⟨hls, hline, -⟩ := hno
    simp only [List.mem_append, List.mem_cons, not_or] at hline
    have habove : ∀ l ∈ ls ++ [u], '\n' ∉ l :=
      List.forall_mem_append.mpr ⟨hls, List.forall_mem_singleton.mpr hline.1⟩
    obtain ⟨w, hw⟩ := unlines_cut ls u (c :: r) ms
    rw [← hlines, unlines_lines] at hw
    exact ⟨unlines (ls ++ [u]), c, r ++ w, hw, Ne.symm hline.2.1,
      after_of_lines (lines_unlines (by simp) habove)⟩
  · rintro ⟨s, c, r, rfl, hc, rfl⟩
    obtain ⟨ls, u, m, ms, hs, hr, happend⟩ := lines_append s (c :: r)
    obtain ⟨k, ks, -, hk⟩ := lines_cons hc r
    obtain ⟨rfl, rfl⟩ := List.cons.inj (hr.symm.trans hk)
    exact ⟨ls, u, c, k, ms, happend, after_of_lines hs⟩

end Position

end SchemaBridge.Text
