import Mathlib.Algebra.GroupWithZero.Nat
import Mathlib.Algebra.Order.BigOperators.Group.List
import Mathlib.Algebra.Order.Group.Nat
import SchemaBridge.Import
import SchemaBridge.Proofs.RecordedPlaces
/-!
# Offsets in the order of a source

The offset of a position counts the lines above it in bytes, and the characters in front of it on its
own line; newlines count nothing. A character further down is behind all the bytes of the line above,
of which there are at least as many as characters, so that offsets go up from character to character.
The positions of definitions and fields are those of lexemes, and point at characters unless the text
holds a tab, or a comment and a carriage return. With these two lexemes can share an offset.

Results:
* `offset_lt_offset`: of two characters, the one that comes first has the smaller offset.
* `offset_eq_countP`: in a text of ASCII characters, an offset counts the characters in front.
* `offsets_follow_source_order`: the offsets of a text, and of the definitions and fields in it.
* `tab_shares_offset`: behind a tab, or behind a comment that ends with a carriage return and a
  newline, two types can share an offset.
-/
namespace SchemaBridge

open Text (Line Position byteLength lines lines_append lines_cons lines_newline mem_iff_exists_line)
open Text.Position (start)

/-! ## Bytes and characters -/

namespace Text

theorem length_le_byteLength (t : List Char) : t.length ≤ byteLength t := by
  induction t with
  | nil => exact le_rfl
  | cons c t ih =>
    have hc := c.utf8Size_pos
    rw [byteLength, List.length_cons]
    omega

theorem byteLength_of_ascii {t : List Char} (h : ∀ c ∈ t, c.isAscii = true) :
    byteLength t = t.length := by
  induction t with
  | nil => rfl
  | cons c t ih =>
    obtain ⟨hc, ht⟩ := List.forall_mem_cons.mp h
    have hsize : c.utf8Size = 1 := by
      rw [Char.utf8Size_eq_one_iff, UInt32.le_iff_toNat_le]
      exact Nat.le_of_lt_succ (of_decide_eq_true hc)
    rw [byteLength, hsize, ih ht, List.length_cons, Nat.add_comm]

/-- All lines together hold the characters that are no newlines. -/
theorem sum_length_lines (t : List Char) :
    ((lines t).map List.length).sum = t.countP (· ≠ '\n') := by
  induction t with
  | nil => rfl
  | cons c t ih =>
    by_cases hc : c = '\n'
    · subst hc
      simpa [lines_newline] using ih
    · obtain ⟨l, ls, ht, hct⟩ := lines_cons hc t
      rw [ht, List.map_cons, List.sum_cons] at ih
      rw [hct, List.map_cons, List.sum_cons, List.length_cons, List.countP_cons, ← ih]
      simp only [ne_eq, hc, not_false_eq_true, decide_true, if_true]
      omega

end Text

/-! ## Offsets -/

namespace Sdl

namespace Source
variable {s : Source} {p q : Position}

/-- The number of bytes in the first lines. -/
def bytesAbove (s : Source) (n : Nat) : Nat := (s.sizes.take n).sum

theorem offset_eq (s : Source) (p : Position) :
    s.offset p = s.bytesAbove (p.line - 1) + p.column := by
  unfold offset bytesAbove
  induction s.sizes.take (p.line - 1) with
  | nil => exact (Nat.zero_add p.column).symm
  | cons n ns ih => rw [List.foldr_cons, ih, List.sum_cons, Nat.add_assoc]

theorem bytesAbove_mono (s : Source) {m n : Nat} (h : m ≤ n) : s.bytesAbove m ≤ s.bytesAbove n :=
  List.monotone_sum_take s.sizes h

theorem bytesAbove_succ {n : Nat} {l : Line} (h : (lines s.text.toList)[n]? = some l) :
    s.bytesAbove (n + 1) = s.bytesAbove n + byteLength l := by
  have hsize : s.sizes[n]? = some (byteLength l) := by
    rw [s.sizes_eq, lineSizes, List.getElem?_map, h]
    rfl
  obtain ⟨hn, hget⟩ := List.getElem?_eq_some_iff.mp hsize
  rw [bytesAbove, List.sum_take_succ _ _ hn, hget]
  rfl

theorem bytesAbove_length {ls ms : List Line} (h : lines s.text.toList = ls ++ ms) :
    s.bytesAbove ls.length = (ls.map byteLength).sum := by
  rw [bytesAbove, s.sizes_eq, lineSizes, h, List.map_append,
    List.take_left' (List.length_map byteLength)]

/-- Of two characters, the one that comes first has the smaller offset. -/
theorem offset_lt_offset (hp : p.PointsInto s.text.toList) (hq : q.PointsInto s.text.toList)
    (h : p < q) : s.offset p < s.offset q := by
  obtain ⟨hpline, -, l, hl, hlength⟩ := hp
  obtain ⟨-, hqcolumn, -⟩ := hq
  rw [offset_eq, offset_eq]
  rcases Position.lt_iff.mp h with hline | ⟨hline, hcolumn⟩
  · calc s.bytesAbove (p.line - 1) + p.column
        ≤ s.bytesAbove (p.line - 1) + byteLength l :=
          Nat.add_le_add_left (hlength.trans (Text.length_le_byteLength l)) _
      _ = s.bytesAbove p.line := by rw [← bytesAbove_succ hl, Nat.sub_add_cancel hpline]
      _ ≤ s.bytesAbove (q.line - 1) := s.bytesAbove_mono (Nat.le_sub_one_of_lt hline)
      _ < s.bytesAbove (q.line - 1) + q.column := Nat.lt_add_of_pos_right hqcolumn
  · rw [hline]
    exact Nat.add_lt_add_left hcolumn _

/-- In a text of ASCII characters, an offset counts the characters in front, but for newlines. -/
theorem offset_eq_countP (h : ∀ c ∈ s.text.toList, c.isAscii = true) {t r : List Char}
    (ht : s.text.toList = t ++ r) : s.offset (start.after t) = 1 + t.countP (· ≠ '\n') := by
  obtain ⟨ls, l, m, ms, htlines, -, happend⟩ := lines_append t r
  have hbytes : ls.map byteLength = ls.map List.length := by
    refine List.map_congr_left fun k hk => Text.byteLength_of_ascii fun c hc => h c ?_
    have hnewline : c ≠ '\n' := by
      rintro rfl
      exact Text.newline_not_mem_of_mem_lines (t := t)
        (htlines ▸ List.mem_append_left _ hk) hc
    rw [ht, List.mem_append, mem_iff_exists_line hnewline, htlines]
    exact .inl ⟨k, List.mem_append_left _ hk, hc⟩
  have habove : s.bytesAbove ls.length = (ls.map List.length).sum := by
    rw [bytesAbove_length (ht ▸ happend), hbytes]
  rw [offset_eq, Position.after_of_lines htlines, ← Text.sum_length_lines, htlines, List.map_append,
    List.sum_append, Nat.add_sub_cancel, habove]
  simp only [List.map_cons, List.map_nil, List.sum_singleton]
  omega

end Source

/-! ## Offsets of definitions and fields -/

open Source (ofText)

/-- Offsets in a text follow its order. -/
structure OffsetsFollowOrder (text : String) : Prop where
  /-- Of two characters, the one that comes first has the smaller offset. -/
  characters : ∀ p q : Position, p.PointsInto text.toList → q.PointsInto text.toList → p < q →
    (ofText text).offset p < (ofText text).offset q
  /-- So have definitions and fields that are at characters of the text. -/
  definitions : ∀ s : Schema, Schema.parse text = .ok s → s.places.Pairwise fun p q =>
    p.PointsInto text.toList → q.PointsInto text.toList →
      (ofText text).offset p < (ofText text).offset q
  /-- Without tabs, and without comments or carriage returns, all definitions and fields are. -/
  plain : '\t' ∉ text.toList → '#' ∉ text.toList ∨ '\r' ∉ text.toList →
    ∀ s : Schema, Schema.parse text = .ok s → (∀ p ∈ s.places, p.PointsInto text.toList) ∧
      (s.places.map (ofText text).offset).Pairwise (· < ·)
  /-- In ASCII, an offset is one more than the number of characters in front that are no newlines. -/
  ascii : (∀ c ∈ text.toList, c.isAscii = true) → ∀ p : Position, p.PointsInto text.toList →
    ∃ before c after, text.toList = before ++ c :: after ∧ c ≠ '\n' ∧ start.after before = p ∧
      (ofText text).offset p = 1 + before.countP (· ≠ '\n')

/-- **Source offsets follow source order.** In every text, of two characters the one that comes first
has the smaller offset; so have the definitions, fields, arguments and enum values of a schema in the
order in which they are written, as far as their positions point into the text, and all of them do in
a text without tabs that has no comments or no carriage returns. -/
theorem offsets_follow_source_order (text : String) : OffsetsFollowOrder text := by
  have hcharacters : ∀ p q : Position, p.PointsInto text.toList → q.PointsInto text.toList → p < q →
      (ofText text).offset p < (ofText text).offset q :=
    fun p q hp hq h => Source.offset_lt_offset hp hq h
  have hplaces : ∀ s : Schema, Schema.parse text = .ok s → s.places.Pairwise (· < ·) :=
    fun s hs => (Lexer.places_tokens_increasing text.toList).sublist (places_of_parse hs)
  have hdefinitions : ∀ s : Schema, Schema.parse text = .ok s → s.places.Pairwise fun p q =>
      p.PointsInto text.toList → q.PointsInto text.toList →
        (ofText text).offset p < (ofText text).offset q :=
    fun s hs => (hplaces s hs).imp fun h hp hq => hcharacters _ _ hp hq h
  refine ⟨hcharacters, hdefinitions, fun htab hcomment s hs => ?_, fun hascii p hp => ?_⟩
  · have hpoints : ∀ p ∈ s.places, p.PointsInto text.toList := fun p hp =>
      Lexer.pointsInto_of_mem_places htab hcomment p ((places_of_parse hs).subset hp)
    refine ⟨hpoints, List.pairwise_map.mpr ((hdefinitions s hs).imp_of_mem ?_)⟩
    exact fun hp hq h => h (hpoints _ hp) (hpoints _ hq)
  · obtain ⟨before, c, after, htext, hc, rfl⟩ := Position.pointsInto_iff.mp hp
    exact ⟨before, c, after, htext, hc, rfl,
      Source.offset_eq_countP (s := ofText text) hascii htext⟩

/-- A type behind a comment that takes more bytes than characters. -/
def wideComment : String := "# é😀\n\ntype A \x7b f(x: Int): Int\n  g: Int \x7d"

theorem offsets_follow_source_order_wideComment :
    ∃ s : Schema, Schema.parse wideComment = .ok s ∧
      s.places = [⟨3, 1⟩, ⟨3, 10⟩, ⟨3, 12⟩, ⟨4, 3⟩] ∧
      s.places.map (ofText wideComment).offset = [9, 18, 20, 34] ∧
      (s.places.map (ofText wideComment).offset).Pairwise (· < ·) := by
  have hparse : (Schema.parse wideComment).toOption.map Schema.places
      = some [⟨3, 1⟩, ⟨3, 10⟩, ⟨3, 12⟩, ⟨4, 3⟩] := by
    decide +kernel
  obtain ⟨s, hs, hplaces⟩ := exists_ok_of_map hparse
  have hoffsets : s.places.map (ofText wideComment).offset = [9, 18, 20, 34] := by
    rw [hplaces]
    decide +kernel
  have hplain := (offsets_follow_source_order wideComment).plain (by decide +kernel)
    (.inr (by decide +kernel)) s hs
  exact ⟨s, hs, hplaces, hoffsets, hplain.2⟩

/-- A tab makes a line longer than it is, and a comment that ends with a carriage return and a newline
makes one line two: either way two types come to have the same offset. -/
theorem tab_shares_offset :
    (Import.document {} "\ttype A\n type B").outcome.toOption.map (fun r =>
      r.data.types.map fun t => (t.name, t.node.loc.bind Model.Location.start))
      = some [("A", some (.point 1 9 9)), ("B", some (.point 2 2 9))] ∧
    (Import.document {} "# one\r\n# two\r\ntype A\r\ntype B\r\n").outcome.toOption.map (fun r =>
      r.data.types.map fun t => (t.name, t.node.loc.bind Model.Location.start))
      = some [("A", some (.point 5 1 27)), ("B", some (.point 6 1 27))] := by
  decide +kernel

end Sdl

end SchemaBridge
