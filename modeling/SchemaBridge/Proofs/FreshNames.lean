import Mathlib.Data.List.Nodup
import Mathlib.Data.List.Perm.Subperm
import SchemaBridge.Export.NameGenerator
/-!
# Free names

A generator that tries numbered candidates finds a free one: among one more candidate than there are
names in use, all different, one is not in use.

Results:
* `mem_of_firstFree_mem`: the search ends at a name in use only if every candidate is one.
* `firstFree_not_mem`: candidates that all differ do not run out.
* `numbered_alwaysFree`: the generator used by default never picks a name in use.
-/
namespace SchemaBridge.Export

/-- If the search ends at a name in use, all candidates that it could test are in use. -/
theorem mem_of_firstFree_mem {candidate : Nat → String} {used : List String} {tests k : Nat}
    (h : firstFree candidate used tests k ∈ used) : ∀ i ≤ tests, candidate (k + i) ∈ used := by
  induction tests generalizing k with
  | zero =>
    intro i hi
    obtain rfl : i = 0 := by omega
    exact h
  | succ n ih =>
    rw [firstFree] at h
    split at h
    · next hk =>
      intro i hi
      cases i with
      | zero => exact hk
      | succ i =>
        have := ih h i (by omega)
        rwa [show k + (i + 1) = k + 1 + i by omega]
    · next hk => exact absurd h hk

/-- One more candidate than there are names in use is enough. -/
theorem firstFree_not_mem {candidate : Nat → String} (hinj : Function.Injective candidate)
    (used : List String) : firstFree candidate used used.length 0 ∉ used := by
  intro h
  have hall := mem_of_firstFree_mem h
  have hnodup : ((List.range (used.length + 1)).map candidate).Nodup :=
    List.nodup_range.map hinj
  have hsub : (List.range (used.length + 1)).map candidate ⊆ used := by
    intro name hname
    obtain ⟨i, hi, rfl⟩ := List.mem_map.mp hname
    have := hall i (by rw [List.mem_range] at hi; omega)
    rwa [Nat.zero_add] at this
  have hlen := (List.subperm_of_subset hnodup hsub).length_le
  rw [List.length_map, List.length_range] at hlen
  omega

namespace NameGenerator

/-- The generator never picks a name in use. -/
def AlwaysFree (g : NameGenerator) : Prop := ∀ base hint used, g base hint used ∉ used

/-- Decimal texts tell numbers apart, since they can be read back. -/
theorem toString_injective : Function.Injective (toString : Nat → String) := by
  intro m n h
  have hdigits : Nat.toDigits 10 m = Nat.toDigits 10 n := by
    simpa only [Nat.toString_eq_repr, Nat.toList_repr] using congrArg String.toList h
  have hread := congrArg (fun digits => Nat.ofDigitChars 10 digits 0) hdigits
  simpa only [Nat.ofDigitChars_toDigits (show 1 < 10 by decide) (Nat.le_refl 10)] using hread

theorem numberedName_injective (stem : String) : Function.Injective (numberedName stem) := by
  -- A number makes a name longer than the stem alone.
  have hlonger : ∀ n, stem ≠ stem ++ "_" ++ toString (n + 2) := by
    intro n h
    have := congrArg String.length h
    simp only [String.length_append] at this
    have hlen : "_".length = 1 := rfl
    omega
  intro m n h
  cases m with
  | zero =>
    cases n with
    | zero => rfl
    | succ n => exact absurd h (hlonger n)
  | succ m =>
    cases n with
    | zero => exact absurd h.symm (hlonger m)
    | succ n =>
      have := toString_injective ((String.append_right_inj _).mp h)
      omega

theorem numbered_alwaysFree : numbered.AlwaysFree :=
  fun _ _ used => firstFree_not_mem (numberedName_injective _) used

/-- What the generator picks is the owner and the hint, or that with a number. -/
theorem exists_numberedName (base hint : String) (used : List String) :
    ∃ n, numbered base hint used = numberedName (base ++ "_" ++ hint) n := by
  obtain ⟨n, hn, -⟩ := firstFree_spec (numberedName (base ++ "_" ++ hint)) used used.length 0
  exact ⟨0 + n, hn⟩

end NameGenerator

end SchemaBridge.Export
