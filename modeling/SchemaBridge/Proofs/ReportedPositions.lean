import SchemaBridge.Sdl.Fault
/-!
# Reported positions are found again

`positionsIn` finds the positions that a text reports. What it finds is what was written: between
positions there may be any text that does not hold the mark of a position, as long as no digit and no
colon stands right behind a position.

The mark starts with a character that it does not hold anywhere else (`markRest`). Two occurrences
therefore never overlap, and neither filler and a mark nor a mark and the numbers behind it make an
occurrence together.

Results:
* `nat?_toDigits`: decimal digits read back.
* `position?_append`: the numbers behind a mark are read, whatever follows.
* `positionsIn_append_of_no_mark`: text without a mark is passed over.
* `positionsIn_report`: one report, and then what is found in the text behind it.
* `positionsIn_interleave`: reports among other text.
* `reported_positions_found`: all of them are found; a position in front comes first whatever stands
  behind it, and a fault is located where it is.
-/
namespace SchemaBridge

namespace Decimal

theorem nat?_toDigits (n : Nat) : nat? (Nat.toDigits 10 n) = some n := by
  have hdigits : (Nat.toDigits 10 n).all Char.isDigit := by
    rw [List.all_eq_true]
    intro c hc
    exact Nat.isDigit_of_mem_toDigits (by decide) (Nat.le_refl 10) hc
  have hvalue : natOf (Nat.toDigits 10 n) = n :=
    Nat.ofDigitChars_toDigits (show 1 < 10 by decide) (Nat.le_refl 10)
  rw [nat?, if_pos ⟨Nat.toDigits_ne_nil, hdigits⟩, hvalue]

theorem natBelow?_toDigits {bits n : Nat} (h : n < Nat.pow 2 bits) :
    natBelow? bits (Nat.toDigits 10 n) = some n := by
  rw [natBelow?, nat?_toDigits, Option.filter_some_pos (by simpa using h)]

end Decimal

namespace Sdl

open Text (Position)

/-! ## The numbers of a position -/

/-- Both numbers have 64 bits. -/
def Fits (p : Position) : Prop := p.line < Nat.pow 2 64 ∧ p.column < Nat.pow 2 64

instance (p : Position) : Decidable (Fits p) := inferInstanceAs (Decidable (_ ∧ _))

/-- A character that a position may hold. -/
def inPosition (c : Char) : Bool := c.isDigit || c = ':'

/-- What stands behind a position does not go on with it. -/
def EndsPosition (t : List Char) : Prop := ∀ c ∈ t.head?, inPosition c = false

theorem endsPosition_nil : EndsPosition [] := nofun

theorem endsPosition_cons {c : Char} {t : List Char} :
    EndsPosition (c :: t) ↔ inPosition c = false := by
  simp [EndsPosition]

instance : (t : List Char) → Decidable (EndsPosition t)
  | [] => .isTrue endsPosition_nil
  | _ :: _ => decidable_of_iff _ endsPosition_cons.symm

/-- The line and the column of a position with a colon between them. -/
def numbers (p : Position) : List Char := Nat.toDigits 10 p.line ++ ':' :: Nat.toDigits 10 p.column

theorem reportPosition_eq (p : Position) : reportPosition p = reportMark ++ numbers p := by
  rw [reportPosition, numbers, List.append_assoc]

theorem isDigit_of_mem_toDigits {n : Nat} {c : Char} (h : c ∈ Nat.toDigits 10 n) :
    c.isDigit = true :=
  Nat.isDigit_of_mem_toDigits (by decide) (Nat.le_refl 10) h

theorem inPosition_of_mem_numbers {p : Position} {c : Char} (h : c ∈ numbers p) :
    inPosition c = true := by
  rw [inPosition, Bool.or_eq_true]
  rcases List.mem_append.mp h with h | h
  · exact .inl (isDigit_of_mem_toDigits h)
  · rcases List.mem_cons.mp h with rfl | h
    · exact .inr rfl
    · exact .inl (isDigit_of_mem_toDigits h)

theorem colon_not_mem_toDigits (n : Nat) : ∀ c ∈ Nat.toDigits 10 n, decide (c ≠ ':') = true := by
  intro c hc
  rw [decide_eq_true_eq]
  rintro rfl
  exact absurd (isDigit_of_mem_toDigits hc) (by decide)

/-- The run of digits and colons in front is exactly the two numbers. -/
theorem position?_append {p : Position} (hp : Fits p) {t : List Char} (ht : EndsPosition t) :
    position? (numbers p ++ t) = some p := by
  have hrun : (numbers p ++ t).takeWhile inPosition = numbers p := by
    rw [List.takeWhile_append_of_pos fun c hc => inPosition_of_mem_numbers hc]
    cases t with
    | nil => rw [List.takeWhile_nil, List.append_nil]
    | cons c t =>
      rw [List.takeWhile_cons_of_neg (by rw [ht c rfl]; exact Bool.false_ne_true), List.append_nil]
  have hline : (numbers p).takeWhile (· ≠ ':') = Nat.toDigits 10 p.line := by
    rw [numbers, List.takeWhile_append_of_pos (colon_not_mem_toDigits p.line)]
    simp
  have hcolumn : (numbers p).dropWhile (· ≠ ':') = ':' :: Nat.toDigits 10 p.column := by
    rw [numbers, List.dropWhile_append_of_pos (colon_not_mem_toDigits p.line)]
    simp
  unfold position?
  simp only [show (fun c : Char => c.isDigit || decide (c = ':')) = inPosition from rfl, hrun, hline,
    hcolumn, Decimal.natBelow?_toDigits hp.1, Decimal.natBelow?_toDigits hp.2]
  rfl

/-! ## The mark -/

/-- The mark behind its first character. -/
def markRest : List Char := "arse error at ".toList

theorem reportMark_eq : reportMark = 'P' :: markRest := by decide

theorem first_not_mem_markRest : 'P' ∉ markRest := by decide

/-- Characters other than the first of the mark are passed over. -/
theorem positionsIn_skip {s : List Char} (hs : 'P' ∉ s) (t : List Char) :
    positionsIn (s ++ t) = positionsIn t := by
  induction s with
  | nil => rfl
  | cons c s ih =>
    have hc : 'P' ≠ c := fun hc => hs (hc ▸ List.mem_cons_self)
    have hmark : reportMark.isPrefixOf (c :: (s ++ t)) = false := by
      rw [reportMark_eq, List.isPrefixOf, beq_false_of_ne hc, Bool.false_and]
    rw [List.cons_append, positionsIn, hmark]
    exact ih fun h => hs (List.mem_cons_of_mem c h)

/-- What comes behind filler: nothing more, or another mark. -/
def StartsMark (t : List Char) : Prop := ∀ c ∈ t.head?, c = 'P'

/-- An occurrence of the mark in filler and what comes behind is one in the filler: the rest of the
mark could not start with its first character. -/
theorem isPrefix_of_isPrefix_append {s t : List Char} (hs : s ≠ []) (ht : StartsMark t)
    (h : reportMark <+: s ++ t) : reportMark <+: s := by
  rcases List.prefix_or_prefix_of_prefix h (List.prefix_append s t) with hmark | ⟨u, hu⟩
  · exact hmark
  · cases u with
    | nil =>
      rw [List.append_nil] at hu
      exact hu ▸ List.prefix_rfl
    | cons c u =>
      rw [← hu, List.prefix_append_right_inj] at h
      obtain ⟨d, s, rfl⟩ := List.exists_cons_of_ne_nil hs
      cases t with
      | nil => exact absurd h (by simp)
      | cons e t =>
        obtain rfl : e = 'P' := ht e rfl
        obtain rfl : c = 'P' := (List.cons_prefix_cons.mp h).1
        rw [reportMark_eq, List.cons_append] at hu
        have hmem : 'P' ∈ markRest := by
          rw [← (List.cons.inj hu).2]
          exact List.mem_append_right s List.mem_cons_self
        exact absurd hmem first_not_mem_markRest

/-- Filler without a mark is passed over. -/
theorem positionsIn_append_of_no_mark {s t : List Char} (hs : ¬ reportMark <:+: s)
    (ht : StartsMark t) : positionsIn (s ++ t) = positionsIn t := by
  induction s with
  | nil => rfl
  | cons c s ih =>
    have hmark : reportMark.isPrefixOf (c :: (s ++ t)) = false := by
      rw [Bool.eq_false_iff, ne_eq, List.isPrefixOf_iff_prefix]
      intro h
      exact hs (isPrefix_of_isPrefix_append (List.cons_ne_nil c s) ht h).isInfix
    rw [List.cons_append, positionsIn, hmark]
    exact ih fun h => hs (List.infix_cons h)

/-- A report is found, and nothing else up to its end. -/
theorem positionsIn_report {p : Position} (hp : Fits p) {t : List Char} (ht : EndsPosition t) :
    positionsIn (reportPosition p ++ t) = p :: positionsIn t := by
  have hmark : reportMark.isPrefixOf ('P' :: (markRest ++ (numbers p ++ t))) = true := by
    rw [List.isPrefixOf_iff_prefix, ← List.cons_append, ← reportMark_eq]
    exact List.prefix_append _ _
  have hdrop : ('P' :: (markRest ++ (numbers p ++ t))).drop reportMark.length = numbers p ++ t := by
    rw [← List.cons_append, ← reportMark_eq, List.drop_left]
  have hrest : 'P' ∉ markRest ++ numbers p := by
    rw [List.mem_append, not_or]
    refine ⟨first_not_mem_markRest, fun h => ?_⟩
    exact absurd (inPosition_of_mem_numbers h) (by decide)
  rw [reportPosition_eq, reportMark_eq, List.append_assoc, List.cons_append, positionsIn,
    if_pos hmark, hdrop, position?_append hp ht, ← List.append_assoc, positionsIn_skip hrest]
  rfl

/-! ## Reports among other text -/

/-- Filler, and positions with filler behind each of them. -/
def interleave (filler : List Char) : List (Position × List Char) → List Char
  | [] => filler
  | (p, next) :: parts => filler ++ (reportPosition p ++ interleave next parts)

/-- Filler that does not go on with the position before it keeps the positions behind it from doing
so, too. -/
theorem endsPosition_interleave {filler : List Char} (h : EndsPosition filler)
    (parts : List (Position × List Char)) : EndsPosition (interleave filler parts) := by
  cases parts with
  | nil => exact h
  | cons part parts =>
    cases filler with
    | nil =>
      intro c hc
      obtain rfl := Option.mem_some_iff.mp hc
      decide
    | cons c filler => exact h

theorem positionsIn_interleave {filler : List Char} {parts : List (Position × List Char)}
    (hfiller : ¬ reportMark <:+: filler)
    (hparts : ∀ part ∈ parts, Fits part.1 ∧ ¬ reportMark <:+: part.2 ∧ EndsPosition part.2) :
    positionsIn (interleave filler parts) = parts.map Prod.fst := by
  induction parts generalizing filler with
  | nil =>
    have h := positionsIn_append_of_no_mark (t := []) hfiller (by simp [StartsMark])
    rwa [List.append_nil] at h
  | cons part parts ih =>
    obtain ⟨p, next⟩ := part
    obtain ⟨hp, hnext, hends⟩ := hparts _ List.mem_cons_self
    have hstarts : StartsMark (reportPosition p ++ interleave next parts) := by
      intro c hc
      exact (Option.mem_some_iff.mp hc).symm
    rw [interleave, positionsIn_append_of_no_mark hfiller hstarts,
      positionsIn_report hp (endsPosition_interleave hends parts),
      ih hnext fun part hpart => hparts part (List.mem_cons_of_mem _ hpart)]
    rfl

/-! ## Faults -/

/-- The place of a fault, if it has one. -/
def Fault.position? : Fault → Option Position
  | .unexpected p _ => some p
  | .malformed p => some p
  | .splitCharacter => none

/-- A report starts with the place of the fault, and what it quotes stands on a line below. -/
theorem report_eq {f : Fault} {p : Position} (h : f.position? = some p) :
    ∃ quoted, f.report = reportPosition p ++ quoted ∧ EndsPosition quoted := by
  match f, h with
  | .unexpected p none, rfl => exact ⟨[], (List.append_nil _).symm, endsPosition_nil⟩
  | .malformed p, rfl => exact ⟨[], (List.append_nil _).symm, endsPosition_nil⟩
  | .unexpected p (some l), rfl =>
    refine ⟨"\nUnexpected \x60".toList ++ (l.text ++ ('[' :: l.kind.label.toList ++ "]\x60\n".toList)),
      by simp only [Fault.report, List.append_assoc], ?_⟩
    exact endsPosition_cons.mpr (by decide)

/-- **Reported positions are found again.**
* Positions written among filler that holds no mark, the filler behind a position not going on with
  it, are found in the order in which they were written, and nothing else is.
* The position of the first mark of a text is found first, whatever stands behind it.
* A fault is therefore located where it is, whatever its report quotes from the source. -/
theorem reported_positions_found :
    (∀ filler parts, ¬ reportMark <:+: filler →
      (∀ part ∈ parts, Fits part.1 ∧ ¬ reportMark <:+: part.2 ∧ EndsPosition part.2) →
      positionsIn (interleave filler parts) = parts.map Prod.fst) ∧
    (∀ before p behind, ¬ reportMark <:+: before → Fits p → EndsPosition behind →
      (positionsIn (before ++ (reportPosition p ++ behind))).head? = some p) ∧
    ∀ (f : Fault) (p : Position) (source : Source), f.position? = some p → Fits p →
      f.location source = source.locate p := by
  have hfirst : ∀ before p behind, ¬ reportMark <:+: before → Fits p → EndsPosition behind →
      (positionsIn (before ++ (reportPosition p ++ behind))).head? = some p := by
    intro before p behind hbefore hp hbehind
    have hstarts : StartsMark (reportPosition p ++ behind) := by
      intro c hc
      exact (Option.mem_some_iff.mp hc).symm
    rw [positionsIn_append_of_no_mark hbefore hstarts, positionsIn_report hp hbehind]
    rfl
  refine ⟨fun filler parts => positionsIn_interleave, hfirst, fun f p source hf hp => ?_⟩
  obtain ⟨quoted, hreport, hends⟩ := report_eq hf
  have hhead : f.positions.head? = some p := by
    rw [Fault.positions, hreport]
    exact hfirst [] p quoted (by decide) hp hends
  obtain ⟨others, hpositions⟩ := List.head?_eq_some_iff.mp hhead
  rw [Fault.location, hpositions]
  rfl

/-- Two reports without filler between them, then most of a mark, and the largest numbers there are. -/
def adjacentReports : List (Position × List Char) :=
  [(⟨3, 14⟩, []), (⟨0, Nat.pow 2 64 - 1⟩, ", Parse error at".toList), (⟨8, 9⟩, " 1:1".toList)]

/-- A string where a name should be. It holds a report of its own, and one that is too large. -/
def misleadingLexeme : Lexeme :=
  ⟨.string, "\"Parse error at 1:1, Parse error at 18446744073709551616:1\"".toList, ⟨2, 7⟩⟩

def misleadingSource : Source := .ofText ("type\n      " ++ String.ofList misleadingLexeme.text)

theorem reported_positions_found_adjacent :
    (interleave "Parse error ".toList adjacentReports
        = ("Parse error Parse error at 3:14Parse error at 0:18446744073709551615, "
          ++ "Parse error atParse error at 8:9 1:1").toList ∧
      positionsIn (interleave "Parse error ".toList adjacentReports)
        = [⟨3, 14⟩, ⟨0, 18446744073709551615⟩, ⟨8, 9⟩]) ∧
    (positionsIn ("schema parse error: ".toList ++ (reportPosition ⟨2, 7⟩
      ++ ", Parse error at :, Parse error at 1:2".toList))).head? = some ⟨2, 7⟩ ∧
    (Fault.positions (.unexpected ⟨2, 7⟩ (some misleadingLexeme)) = [⟨2, 7⟩, ⟨1, 1⟩] ∧
      Fault.location (.unexpected ⟨2, 7⟩ (some misleadingLexeme)) misleadingSource
        = misleadingSource.locate ⟨2, 7⟩) := by
  refine ⟨⟨by decide +kernel, ?_⟩, ?_, by decide +kernel, ?_⟩
  · exact reported_positions_found.1 _ adjacentReports (by decide +kernel) (by decide +kernel)
  · exact reported_positions_found.2.1 _ ⟨2, 7⟩ _ (by decide +kernel) (by decide) (by decide)
  · exact reported_positions_found.2.2 _ ⟨2, 7⟩ _ rfl (by decide)

end Sdl

end SchemaBridge
