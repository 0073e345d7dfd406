/-!
# Names for synthesized types

A generator picks a name from the name of the owner, a hint, and the names in use. It may return a
name in use; `numbered`, the generator used by default, does not.

Results:
* `firstFree_spec`: the search returns a candidate, and those before it are in use.
-/
namespace SchemaBridge.Export

/-- A name for a type that belongs to `base`, by a hint, while some names are in use. It depends on these
three only: a generator that keeps a state of its own, a counter for instance, and so answers the same
question differently another time is none of these functions. -/
abbrev NameGenerator := (base hint : String) → (used : List String) → String

/-- The first candidate from `k` on that is not in use, after at most so many tests. -/
def firstFree (candidate : Nat → String) (used : List String) : (tests k : Nat) → String
  | 0, k => candidate k
  | n + 1, k => if candidate k ∈ used then firstFree candidate used n (k + 1) else candidate k

/-- The search ends at a candidate, and all candidates that it passes over are in use. -/
theorem firstFree_spec (candidate : Nat → String) (used : List String) (tests k : Nat) :
    ∃ i, firstFree candidate used tests k = candidate (k + i) ∧ ∀ j < i, candidate (k + j) ∈ used := by
  induction tests generalizing k with
  | zero => exact ⟨0, rfl, fun j hj => absurd hj (Nat.not_lt_zero j)⟩
  | succ n ih =>
    rw [firstFree]; split
    · next hk =>
      obtain ⟨i, hi, htaken⟩ := ih (k + 1)
      refine ⟨i + 1, by rw [hi]; congr 1; omega, fun j hj => ?_⟩
      cases j with
      | zero => exact hk
      | succ j =>
        rw [show k + (j + 1) = k + 1 + j by omega]
        exact htaken j (by omega)
    · exact ⟨0, rfl, fun j hj => absurd hj (Nat.not_lt_zero j)⟩

namespace NameGenerator

/-- The names `stem`, `stem_2`, `stem_3` and so on. -/
def numberedName (stem : String) : Nat → String
  | 0 => stem
  | n + 1 => stem ++ "_" ++ toString (n + 2)

/-- The owner and the hint with an underscore between them, numbered from the second on. One more
candidate than there are names in use is enough. -/
def numbered : NameGenerator := fun base hint used =>
  firstFree (numberedName (base ++ "_" ++ hint)) used used.length 0

/-- The hint, followed by as many `X` as it takes. -/
def padded : NameGenerator := fun _ hint used =>
  firstFree (fun n => hint ++ String.ofList (List.replicate n 'X')) used used.length 0

/-- The owner and the hint in capital letters, in use or not. -/
def joined : NameGenerator := fun base hint _ => base ++ String.ofList (hint.toList.map Char.toUpper)

/-- Always the same name. -/
def constant (name : String) : NameGenerator := fun _ _ _ => name

end NameGenerator

end SchemaBridge.Export
