import Mathlib.Logic.Function.Iterate
import SchemaBridge.Proofs.SectionRoundTrip
/-!
# Annotations written and read again and again

A round writes annotations as a description and reads them back. The first round changes them: the
title and the comment are gone, the free text is trimmed, and code comes back with its quotation. Code
with a tick is written bare, so from then on no code is quoted again; what the first round leaves of
it is trimmed, and shares no indentation. Such annotations are `Settled`: a further round changes
nothing.

Annotations with a default value do not settle: its section puts a blank line into that of the last
example, whose lines then gain indentation in every round (`last_example_gains_indentation`).

Results:
* `block_sectionBody_settled`: settled code is read as it stands.
* `settled_round`: one round settles.
* `round_of_settled`: what is settled stays.
* `rounds_settle`: every number of rounds comes to the same as the first.
-/
namespace SchemaBridge.Description

open Text Model

/-- Annotations written and read again. -/
def round (includeComment : Bool) (a : Annotations) : Annotations :=
  read (some (write includeComment a))

/-! ## Code -/

/-- Code that is written bare and has no blank ends. -/
structure SettledCode (v : List Char) : Prop where
  tick : tick ∈ v
  trimmed : trim v = v

section
variable {v : List Char}

theorem SettledCode.sectionBody_eq (h : SettledCode v) : sectionBody v = indent v := by
  rw [sectionBody, quoteCode, if_pos h.tick]

theorem SettledCode.not_blank (h : SettledCode v) : allBlank v = false :=
  allBlank_of_mem h.tick isBlank_tick

theorem SettledCode.head_ne_space (h : SettledCode v) : v.head? ≠ some ' ' := by
  have hstart : trimStart v = v := by
    have := trimStart_trim v
    rwa [h.trimmed] at this
  intro hhead
  cases v with
  | nil => cases hhead
  | cons c cs =>
    obtain rfl := Option.some.inj hhead
    exact absurd (not_isBlank_of_trimStart hstart) (by decide)

/-- Settled code has no indentation of its own, so that reading takes off what was written. -/
theorem block_sectionBody_settled (h : SettledCode v) : block (lines (sectionBody v)) = v := by
  rw [block, h.sectionBody_eq, unindent_lines_indent h.head_ne_space, unlines_lines, h.trimmed]

theorem trimEnd_sectionBody_settled (h : SettledCode v) : trimEnd (sectionBody v) = sectionBody v := by
  have hend : trimEnd v = v := by
    rw [← h.trimmed, trim, trimEnd_trimEnd]
  obtain ⟨cs, c, hcs, hc⟩ := exists_trimEnd_eq h.not_blank
  rw [hend] at hcs
  have hnl : c ≠ '\n' := by
    rintro rfl
    exact absurd hc (by decide)
  rw [h.sectionBody_eq, hcs, indent_concat cs hnl, trimEnd_concat _ hc]

end

/-- Whatever the examples are, what is read of them is settled. -/
theorem settledCode_exampleSections (es : List (List Char)) :
    ∀ s ∈ exampleSections [] es, SettledCode (block s.2) := by
  have hblock : ∀ {t : List Char}, tick ∈ t → SettledCode (block (lines t)) := by
    intro t ht
    obtain ⟨l, hl, htick⟩ := (mem_iff_exists_line (by decide)).mp ht
    exact ⟨tick_mem_block hl htick, trim_trim _⟩
  induction es with
  | nil => exact List.forall_mem_nil _
  | cons v vs ih =>
    cases vs with
    | nil =>
      intro s hs
      obtain rfl := List.mem_singleton.mp hs
      rw [List.append_nil]
      exact hblock (mem_trimEnd (tick_mem_sectionBody v) isBlank_tick)
    | cons w ws =>
      intro s hs
      rcases List.mem_cons.mp hs with rfl | hs
      · exact hblock (tick_mem_sectionBody v)
      · exact ih s hs

theorem map_block_exampleSections {es : List (List Char)} (h : ∀ v ∈ es, SettledCode v) :
    (exampleSections [] es).map (fun s => block s.2) = es := by
  induction es with
  | nil => rfl
  | cons v vs ih =>
    have hv := h v List.mem_cons_self
    cases vs with
    | nil => simp [exampleSections, trimEnd_sectionBody_settled hv, block_sectionBody_settled hv]
    | cons w ws =>
      rw [exampleSections, List.map_cons, block_sectionBody_settled hv,
        ih fun u hu => h u (List.mem_cons_of_mem v hu)]

/-! ## Annotations -/

/-- Annotations that come back from a round as they are. -/
structure Settled (a : Annotations) : Prop where
  title : a.title = none
  comment : a.comment = none
  default : a.default = none
  description : a.description = nonEmpty? (trim (freeText a))
  examples : a.examples = Examples.ofList a.exampleList
  code : ∀ v ∈ exampleTexts a, SettledCode v
  unmarked : UnmarkedText a

section
variable {a : Annotations} {includeComment : Bool}

/-- A comment matters only if it is there and goes into the description. -/
theorem round_eq_of_no_comment (h : a.comment = none ∨ includeComment = false) :
    round includeComment a = round false a := by
  have hparts : parts includeComment a = parts false a := by
    unfold parts
    rcases h with h | h
    · rw [h]
      cases includeComment <;> rfl
    · rw [h]
  unfold round write writeChars
  rw [hparts]

theorem round_eq (h : UnmarkedText a) (hd : a.default = none) : round false a
    = { description := nonEmpty? (trim (freeText a))
        examples := Examples.ofList
          (((exampleSections [] (exampleTexts a)).map fun s => block s.2).map String.ofList) } := by
  have hnone : defaultText? a = none := by rw [defaultText?, hd]; rfl
  rw [round, read_write h, hnone, List.map_map]
  rfl

/-- **One round settles.** -/
theorem settled_round (h : UnmarkedText a) (hd : a.default = none) : Settled (round false a) := by
  rw [round_eq h hd]
  have hfree : ∀ {examples}, freeText { description := nonEmpty? (trim (freeText a)), examples }
      = trim (freeText a) := toList_getD_nonEmpty? _
  have hlist : ∀ (description : Option String) (es : List String),
      Annotations.exampleList { description, examples := Examples.ofList es } = es :=
    fun _ es => Examples.toList_ofList es
  refine ⟨rfl, rfl, rfl, ?_, ?_, ?_, ?_⟩
  · rw [hfree, trim_trim]
  · rw [hlist]
  · intro v hv
    rw [exampleTexts, hlist, List.map_map, List.mem_map] at hv
    obtain ⟨t, ht, rfl⟩ := hv
    obtain ⟨s, hs, rfl⟩ := List.mem_map.mp ht
    rw [Function.comp_apply, String.toList_ofList]
    exact settledCode_exampleSections _ s hs
  · rw [UnmarkedText, hfree, trim_trim]
    exact h

/-- **What is settled stays.** -/
theorem round_of_settled (h : Settled a) : round false a = a := by
  have hexamples : ((exampleTexts a).map String.ofList) = a.exampleList := by
    rw [exampleTexts, List.map_map]
    simp [Function.comp_def]
  rw [round_eq h.unmarked h.default, map_block_exampleSections h.code, hexamples, ← h.description,
    ← h.examples]
  obtain ⟨title, description, examples, default, comment⟩ := a
  obtain ⟨rfl, rfl, rfl, -⟩ := h
  rfl

end

/-- **Repeated conversion settles after one round**: annotations without a default value, whose
comment is absent or left out, are after any further number of rounds what they are after the first,
whatever text the examples hold. -/
theorem rounds_settle {a : Annotations} {includeComment : Bool} (hd : a.default = none)
    (hc : a.comment = none ∨ includeComment = false) (h : UnmarkedText a) (n : Nat) :
    (round includeComment)^[n + 1] a = round includeComment a := by
  have hsettled : Settled (round includeComment a) := by
    rw [round_eq_of_no_comment hc]
    exact settled_round h hd
  have hfixed : round includeComment (round includeComment a) = round includeComment a := by
    rw [round_eq_of_no_comment (.inl hsettled.comment), round_of_settled hsettled]
  rw [Function.iterate_succ_apply]
  exact Function.iterate_fixed hfixed n

/-- Bare code with indentation, blank lines and blank ends, and code that is quoted in the first round. -/
def bareExamples : Annotations :=
  { title := some "Size"
    description := some " \n# defaults \n"
    examples := some (.many ["  \x60a\x60\n\n    b \n", "c\nd", "\n\t\t\x60\n\t# example\n  "])
    comment := some "# example" }

theorem bareExamples_unmarked : UnmarkedText bareExamples := by decide +kernel

theorem rounds_settle_bareExamples :
    (bareExamples.default = none ∧ UnmarkedText bareExamples ∧
      (round false bareExamples).exampleList
        = ["\x60a\x60\n\n    b", "\x60\x60\x60\nc\nd\n\x60\x60\x60", "\x60\n\t# example"]) ∧
    (round false)^[100] bareExamples = round false bareExamples :=
  ⟨⟨rfl, bareExamples_unmarked, by decide +kernel⟩,
    rounds_settle rfl (.inr rfl) bareExamples_unmarked 99⟩

end SchemaBridge.Description
