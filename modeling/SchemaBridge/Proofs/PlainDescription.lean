import SchemaBridge.Description
/-!
# Descriptions without sections

Annotations that are a title and a description at most are written as that description and nothing
else, and are read back from it without the title.

Results:
* `write?_plain`: what is written is the description as it stands.
* `read_plain`: what is read are the annotations without their title.
-/
namespace SchemaBridge

/-! ## Trimmed texts -/

namespace Text

/-- A text without a blank start does not begin with a blank. -/
theorem not_isBlank_of_trimStart {c : Char} {cs : List Char} (h : trimStart (c :: cs) = c :: cs) :
    isBlank c = false := by
  cases hc : isBlank c with
  | false => rfl
  | true =>
    exfalso
    have hdrop : trimStart (c :: cs) = trimStart cs := by
      simp [trimStart, hc]
    have hle := (List.dropWhile_sublist isBlank (l := cs)).length_le
    have hlen := congrArg List.length h
    rw [hdrop, List.length_cons] at hlen
    unfold trimStart at hlen
    omega

/-- Lines of a text without a blank start share no indentation. -/
theorem unindent_of_trimStart {t : List Char} (h : trimStart t = t) :
    unindent (lines t) = lines t := by
  apply unindent_of_unmarked
  cases t with
  | nil => rfl
  | cons c cs =>
    have hc := not_isBlank_of_trimStart h
    have hnl : c ≠ '\n' := by
      rintro rfl
      exact absurd hc (by decide)
    obtain ⟨l, ls, -, hlines⟩ := lines_cons hnl cs
    rw [hlines]
    have hindent : ¬(c = ' ' ∨ c = '\t') := by
      rintro (rfl | rfl) <;> exact absurd hc (by decide)
    simp [indentChar?, hindent]

end Text

/-! ## Plain annotations -/

namespace Description

open Text Model

/-- At most a title and a description, which is not empty, has no blank ends and holds no marker. -/
structure Plain (a : Annotations) : Prop where
  examples : a.examples = none
  default : a.default = none
  comment : a.comment = none
  nonempty : a.description ≠ some ""
  trimmed : ∀ s ∈ a.description, trimString s = s
  unmarked : ∀ s ∈ a.description, ∀ l ∈ lines s.toList, marker? l = none

/-- A title alone is plain. -/
theorem plain_title (title : Option String) : Plain { title := title } :=
  ⟨rfl, rfl, rfl, by simp, by simp, by simp⟩

/-- Lines that are no markers stand in front of the first section. -/
theorem cut_append {ls : List Line} (h : ∀ l ∈ ls, marker? l = none) (rest : List Line) :
    cut (ls ++ rest) = (ls ++ (cut rest).1, (cut rest).2) := by
  induction ls with
  | nil => rfl
  | cons l ls ih =>
    have hl := h l List.mem_cons_self
    have hls := ih fun k hk => h k (List.mem_cons_of_mem l hk)
    rw [List.cons_append, cut, hl, hls]
    rfl

theorem cut_of_unmarked {ls : List Line} (h : ∀ l ∈ ls, marker? l = none) : cut ls = (ls, []) := by
  have hcut := cut_append h []
  simpa [cut] using hcut

section
variable {a : Annotations}

theorem parts_plain (h : Plain a) (includeComment : Bool) :
    parts includeComment a = (a.description.map String.toList).toList := by
  simp [parts, h.examples, h.default, h.comment]

theorem write?_plain (h : Plain a) (includeComment : Bool) :
    write? includeComment a = a.description := by
  unfold write? write writeChars
  rw [parts_plain h]
  cases hd : a.description with
  | none => rfl
  | some s =>
    have hs : s.toList ≠ [] := by
      intro hnil
      exact h.nonempty (by rw [hd, String.toList_eq_nil_iff.mp hnil])
    have hjoin : joinWith ['\n', '\n'] ([s.toList].filter (· ≠ [])) = s.toList := by
      simp [hs]
    have ht : String.ofList (trim s.toList) = s := h.trimmed s hd
    have hempty : s.isEmpty = false := by
      rw [← Bool.not_eq_true, String.isEmpty_iff]
      rintro rfl
      exact hs rfl
    show (if (String.ofList (trim (joinWith _ ([s.toList].filter (· ≠ []))))).isEmpty then none
      else some (String.ofList (trim (joinWith _ ([s.toList].filter (· ≠ [])))))) = some s
    rw [hjoin, ht, hempty]
    rfl

theorem read_plain (h : Plain a) : read a.description = { a with title := none } := by
  obtain ⟨title, description, examples, default, comment⟩ := a
  obtain ⟨rfl, rfl, rfl, hne, htrim, hmark⟩ := h
  cases description with
  | none => rfl
  | some s =>
    have hs : s.toList ≠ [] := by
      intro hnil
      exact hne (by rw [String.toList_eq_nil_iff.mp hnil])
    have ht : trim s.toList = s.toList := by
      have := congrArg String.toList (htrim s rfl)
      rwa [trimString, String.toList_ofList] at this
    have hstart : trimStart s.toList = s.toList := by
      have := trimStart_trim s.toList
      rwa [ht] at this
    have hblock : block (lines s.toList) = s.toList := by
      rw [block, unindent_of_trimStart hstart, unlines_lines, ht]
    have hcut := cut_of_unmarked (hmark s rfl)
    show readChars s.toList = _
    simp only [readChars, hcut, hblock, nonEmpty?, if_neg hs, String.ofList_toList]
    rfl

end

end Description

end SchemaBridge
