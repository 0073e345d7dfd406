import Mathlib.Order.BooleanAlgebra.Set
import SchemaBridge.Proofs.FieldTypes
/-!
# Values of type references

A type reference stands for the set of values that it admits. What a name stands for is left open:
any set of values without `null` will do. Lists are finite and their items may be of any kind, lists
and `null` included.

Results:
* `lists_subset_lists_iff`: lists over a larger set are more lists.
* `null_mem_values_iff`: `null` is a value of a type unless the type excludes it.
* `values_require`: to require a type takes `null` away from its values and nothing else.
-/
namespace SchemaBridge

/-- What may be given for a type: `null`, a list, or anything else. -/
inductive Datum (α : Type) where
  | null
  | atom (a : α)
  | list (items : List (Datum α))

variable {α : Type}

namespace Datum

/-- The finite lists whose items are in a set. -/
def lists (s : Set (Datum α)) : Set (Datum α) := {d | ∃ ds, d = list ds ∧ ∀ e ∈ ds, e ∈ s}

@[simp] theorem list_mem_lists {s : Set (Datum α)} {ds : List (Datum α)} :
    list ds ∈ lists s ↔ ∀ e ∈ ds, e ∈ s := by
  constructor
  · rintro ⟨ds', heq, h⟩
    cases heq
    exact h
  · intro h
    exact ⟨ds, rfl, h⟩

theorem null_notMem_lists (s : Set (Datum α)) : null ∉ lists s := by
  rintro ⟨ds, heq, -⟩
  cases heq

/-- A value is as good as the list of it alone. -/
theorem lists_subset_lists_iff {s t : Set (Datum α)} : lists s ⊆ lists t ↔ s ⊆ t := by
  constructor
  · intro h d hd
    have hone : list [d] ∈ lists t := h (list_mem_lists.mpr (by simpa using hd))
    exact list_mem_lists.mp hone d (List.mem_singleton_self d)
  · rintro h _ ⟨ds, rfl, hds⟩
    exact list_mem_lists.mpr fun e he => h (hds e he)

end Datum

/-- A set of values for every name, none of them with `null` in it. -/
structure Meaning (α : Type) where
  ofName : String → Set (Datum α)
  null_notMem : ∀ name, Datum.null ∉ ofName name

/-- Every name stands for one value of its own. -/
def Meaning.ownNames : Meaning String where
  ofName name := {.atom name}
  null_notMem _ := nofun

namespace Sdl.TypeRef

/-- The values of a type. -/
def values (m : Meaning α) : TypeRef → Set (Datum α)
  | named name => insert .null (m.ofName name)
  | list item => insert .null (Datum.lists (item.values m))
  | nonNull inner => inner.values m \ {.null}

variable {m : Meaning α} {t : TypeRef}

theorem null_mem_values_iff : .null ∈ t.values m ↔ t.isRequired = false := by
  cases t with
  | named | list => simp [values, isRequired]
  | nonNull inner => simp [values, isRequired]

/-- Excluding `null` a second time takes nothing away. -/
theorem values_require (m : Meaning α) (t : TypeRef) : t.require.values m = t.values m \ {.null} := by
  unfold require
  split
  · next h =>
    have hnull : .null ∉ t.values m := by simp [null_mem_values_iff, h]
    exact (Set.sdiff_singleton_eq_self hnull).symm
  · rfl

end Sdl.TypeRef

end SchemaBridge
