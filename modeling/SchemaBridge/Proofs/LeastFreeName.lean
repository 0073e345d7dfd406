import Mathlib.Data.Finset.Card
import SchemaBridge.Proofs.Ensuring
import SchemaBridge.Proofs.FreshNames
/-!
# The least free name

`Search` is the search for a name without any bound: it tests one candidate after the other and ends
at the first that is not in use. Candidates that all differ cannot all be in use, so the search ends,
and it takes no more tests than there are different names in use, and one. `numbered`, which is given
as many tests as there are entries in a list, comes to the same name.

Results:
* `search_iff`: how many tests the search takes, and where it ends, if some candidate is free.
* `le_card_of_taken`: candidates in use are no more than the names in use.
* `numbered_finds_least`: the generator used by default finds the least free name, and another one
  every time.
-/
namespace SchemaBridge.Export

open NameGenerator (numbered numberedName numberedName_injective numbered_alwaysFree)

/-- The search from candidate `k` on ends at a name after so many tests. -/
inductive Search (candidate : Nat → String) (used : List String) : (k tests : Nat) → String → Prop
  | free {k : Nat} : candidate k ∉ used → Search candidate used k 1 (candidate k)
  | taken {k tests : Nat} {name : String} : candidate k ∈ used →
      Search candidate used (k + 1) tests name → Search candidate used k (tests + 1) name

section
variable {candidate : Nat → String} {used : List String}

/-- The search has one way to go only: it ends at the first candidate that is free. -/
theorem search_iff {k i : Nat} (hfree : candidate (k + i) ∉ used)
    (htaken : ∀ j < i, candidate (k + j) ∈ used) (tests : Nat) (name : String) :
    Search candidate used k tests name ↔ tests = i + 1 ∧ name = candidate (k + i) := by
  induction i generalizing k tests with
  | zero =>
    rw [Nat.add_zero] at hfree ⊢
    constructor
    · rintro (_ | ⟨hk, _⟩)
      · exact ⟨rfl, rfl⟩
      · exact absurd hk hfree
    · rintro ⟨rfl, rfl⟩
      exact .free hfree
  | succ i ih =>
    have hk : candidate k ∈ used := htaken 0 (by omega)
    have hnext : k + 1 + i = k + (i + 1) := by omega
    have ih' := ih (k := k + 1) (by rwa [hnext]) fun j hj => by
      rw [show k + 1 + j = k + (j + 1) by omega]
      exact htaken (j + 1) (by omega)
    rw [hnext] at ih'
    constructor
    · rintro (hk' | ⟨_, hrest⟩)
      · exact absurd hk hk'
      · obtain ⟨rfl, rfl⟩ := (ih' _).mp hrest
        exact ⟨rfl, rfl⟩
    · rintro ⟨rfl, rfl⟩
      exact .taken hk ((ih' (i + 1)).mpr ⟨rfl, rfl⟩)

/-- Candidates that differ are in use one by one. -/
theorem le_card_of_taken (hinj : Function.Injective candidate) {n : Nat}
    (htaken : ∀ j < n, candidate j ∈ used) : n ≤ used.toFinset.card := by
  have hsub : (Finset.range n).image candidate ⊆ used.toFinset := by
    intro name hname
    obtain ⟨j, hj, rfl⟩ := Finset.mem_image.mp hname
    exact List.mem_toFinset.mpr (htaken j (Finset.mem_range.mp hj))
  calc n = ((Finset.range n).image candidate).card := by
        rw [Finset.card_image_of_injective _ hinj, Finset.card_range]
    _ ≤ used.toFinset.card := Finset.card_le_card hsub

end

/-- **The generator used by default finds the least free name.** For every owner, hint and names in
use there is a number `n` such that
* the unbounded search through `base_hint`, `base_hint_2`, `base_hint_3` and so on ends after `n + 1`
  tests, and in no other way, with `n` at most the number of different names in use;
* the name that it ends at is what the generator picks: it is free, and no name before it is.

A name reserved with it is in use from then on, and no later reservation with the same owner and hint
gives it again, be it the next one or one from any registry that has kept the names. -/
theorem numbered_finds_least (base hint : String) :
    (∀ used : List String, ∃ n ≤ used.toFinset.card,
      (∀ tests name, Search (numberedName (base ++ "_" ++ hint)) used 0 tests name ↔
        tests = n + 1 ∧ name = numbered base hint used) ∧
      numbered base hint used = numberedName (base ++ "_" ++ hint) n ∧
      numbered base hint used ∉ used ∧
      ∀ m < n, numberedName (base ++ "_" ++ hint) m ∈ used) ∧
    ∀ (s : Settings) (r : Registry), ∃ first r₁,
      (reserve { s with generator := .numbered } base hint).Runs r first r₁ [.synthesizing first] ∧
      first ∉ r.keys ∧
      ∀ r₂ : Registry, r₁.keys ⊆ r₂.keys → ∃ second r₃,
        (reserve { s with generator := .numbered } base hint).Runs r₂ second r₃
          [.synthesizing second] ∧
        second ≠ first := by
  constructor
  · intro used
    have hinj := numberedName_injective (base ++ "_" ++ hint)
    have hfree := numbered_alwaysFree base hint used
    obtain ⟨n, hn, htaken⟩ :=
      firstFree_spec (numberedName (base ++ "_" ++ hint)) used used.length 0
    have hname : numbered base hint used = numberedName (base ++ "_" ++ hint) (0 + n) := hn
    rw [hname] at hfree ⊢
    have hsearch := search_iff hfree htaken
    simp only [Nat.zero_add] at hsearch htaken hfree ⊢
    exact ⟨n, le_card_of_taken hinj htaken, hsearch, rfl, hfree, htaken⟩
  · intro s r
    have hfree := numbered_alwaysFree base hint
    refine ⟨_, _, reserve_runs _ base hint r, hfree r.keys, fun r₂ hkept => ?_⟩
    refine ⟨_, _, reserve_runs _ base hint r₂, fun heq => hfree r₂.keys ?_⟩
    have hagain : numbered base hint r₂.keys = numbered base hint r.keys := heq
    rw [hagain]
    exact hkept (Keyed.mem_keys_put.mpr (.inl rfl))

/-- Two names before the free one are in use, and a name behind it does not matter. -/
example : numbered "Line" "end" ["Line", "Line_end", "Line_end_2", "Line_end_4"] = "Line_end_3" := by
  decide +kernel

end SchemaBridge.Export
