import Mathlib.Order.Defs.Unbundled
import SchemaBridge.Changes.Compatibility
import SchemaBridge.Proofs.TypeValues
/-!
# Safe changes of a type

An output type may change if every value of the new type is one of the old type, and an input type if
every value of the old type is one of the new type. That is what the two recursions over pairs of
types decide, provided that names stand for sets that are told apart: none is empty, no two have a
value in common, and none has a list in it.

Results:
* `safeInput_named_iff`, `safeInput_list_iff`, `safeInput_nonNull_iff`: what may become of a type.
* `safeInput_trans`, `safeInput_antisymm`: safe changes of input types are an order.
* `safeOutput_eq_safeInput`: a change is safe for output if the way back is safe for input.
* `safeInput_iff_subset`: safe changes of input types lose no value.
* `safe_changes_are_inclusions`: all of it in one statement.
-/
namespace SchemaBridge

open Sdl (TypeRef)

/-- Names stand for sets that tell them apart, from each other and from lists. -/
structure Meaning.Separates {α : Type} (m : Meaning α) : Prop where
  nonempty : ∀ name, (m.ofName name).Nonempty
  unshared : ∀ name other d, d ∈ m.ofName name → d ∈ m.ofName other → name = other
  list_notMem : ∀ name ds, Datum.list ds ∉ m.ofName name

namespace Changes

/-! ## What may become of a type -/

section
variable {name : String} {a b c : TypeRef}

theorem safeInput_named_iff : safeInput (.named name) b = true ↔ b = .named name := by
  cases b with
  | named other =>
    rw [safeInput, beq_iff_eq, TypeRef.named.injEq]
    exact eq_comm
  | list | nonNull => simp [safeInput]

theorem safeInput_list_iff :
    safeInput (.list a) b = true ↔ ∃ item, b = .list item ∧ safeInput a item = true := by
  cases b with
  | list item => simp [safeInput]
  | named | nonNull => simp [safeInput]

/-- The exclusion of `null` may stay, or be dropped. -/
theorem safeInput_nonNull_iff :
    safeInput (.nonNull a) b = true ↔
      (∃ inner, b = .nonNull inner ∧ safeInput a inner = true) ∨
        b.isRequired = false ∧ safeInput a b = true := by
  cases b with
  | nonNull inner => simp [safeInput, TypeRef.isRequired]
  | named | list => simp [safeInput, TypeRef.isRequired]

/-- An input that need not be given never comes to be required. -/
theorem isRequired_eq_false_of_safeInput (h : safeInput a b = true) (ha : a.isRequired = false) :
    b.isRequired = false := by
  cases a with
  | named name =>
    rw [safeInput_named_iff.mp h]
    rfl
  | list a =>
    obtain ⟨item, rfl, -⟩ := safeInput_list_iff.mp h
    rfl
  | nonNull a => cases ha

/-! ## An order of types -/

theorem safeInput_trans (hab : safeInput a b = true) (hbc : safeInput b c = true) :
    safeInput a c = true := by
  induction a generalizing b c with
  | named name =>
    rw [safeInput_named_iff.mp hab] at hbc
    exact hbc
  | list a ih =>
    obtain ⟨b, rfl, hab⟩ := safeInput_list_iff.mp hab
    obtain ⟨c, rfl, hbc⟩ := safeInput_list_iff.mp hbc
    exact safeInput_list_iff.mpr ⟨c, rfl, ih hab hbc⟩
  | nonNull a ih =>
    rcases safeInput_nonNull_iff.mp hab with ⟨b, rfl, hab⟩ | ⟨hb, hab⟩
    · rcases safeInput_nonNull_iff.mp hbc with ⟨c, rfl, hbc⟩ | ⟨hc, hbc⟩
      · exact safeInput_nonNull_iff.mpr (.inl ⟨c, rfl, ih hab hbc⟩)
      · exact safeInput_nonNull_iff.mpr (.inr ⟨hc, ih hab hbc⟩)
    · have hc := isRequired_eq_false_of_safeInput hbc hb
      exact safeInput_nonNull_iff.mpr (.inr ⟨hc, ih hab hbc⟩)

theorem safeInput_antisymm (hab : safeInput a b = true) (hba : safeInput b a = true) : a = b := by
  induction a generalizing b with
  | named name => exact (safeInput_named_iff.mp hab).symm
  | list a ih =>
    obtain ⟨b, rfl, hab⟩ := safeInput_list_iff.mp hab
    rw [ih hab hba]
  | nonNull a ih =>
    rcases safeInput_nonNull_iff.mp hab with ⟨b, rfl, hab⟩ | ⟨hb, -⟩
    · rw [ih hab hba]
    · cases isRequired_eq_false_of_safeInput hba hb

theorem safeOutput_eq_safeInput (old new : TypeRef) : safeOutput old new = safeInput new old := by
  induction new generalizing old with
  | named name =>
    cases old with
    | named other => exact Bool.beq_comm
    | list | nonNull => rfl
  | list item ih =>
    cases old with
    | list other => exact ih other
    | named | nonNull => rfl
  | nonNull inner ih =>
    cases old with
    | named other => exact ih (.named other)
    | list other => exact ih (.list other)
    | nonNull other => exact ih other

instance safeInput_isPartialOrder : IsPartialOrder TypeRef fun old new => safeInput old new = true where
  refl := safeInput_refl
  trans _ _ _ := safeInput_trans
  antisymm _ _ := safeInput_antisymm

end

/-! ## Inclusion of values -/

section
variable {α : Type} {m : Meaning α}

/-- Two names have the same values if one has no more than the other. -/
theorem values_named_subset_iff (hm : m.Separates) {name other : String} :
    (TypeRef.named name).values m ⊆ (TypeRef.named other).values m ↔ name = other := by
  constructor
  · intro h
    obtain ⟨d, hd⟩ := hm.nonempty name
    rcases h (Set.mem_insert_of_mem _ hd) with rfl | hother
    · exact absurd hd (m.null_notMem name)
    · exact hm.unshared name other d hd hother
  · rintro rfl
    rfl

theorem not_named_subset_list (hm : m.Separates) (name : String) (item : TypeRef) :
    ¬ (TypeRef.named name).values m ⊆ (TypeRef.list item).values m := by
  intro h
  obtain ⟨d, hd⟩ := hm.nonempty name
  rcases h (Set.mem_insert_of_mem _ hd) with rfl | ⟨ds, rfl, -⟩
  · exact m.null_notMem name hd
  · exact hm.list_notMem name ds hd

theorem not_list_subset_named (hm : m.Separates) (item : TypeRef) (name : String) :
    ¬ (TypeRef.list item).values m ⊆ (TypeRef.named name).values m := by
  intro h
  have hnil : Datum.list [] ∈ (TypeRef.list item).values m :=
    Set.mem_insert_of_mem _ (Datum.list_mem_lists.mpr nofun)
  rcases h hnil with heq | hmem
  · cases heq
  · exact hm.list_notMem name [] hmem

/-- A type that admits `null` has a value that a required type lacks. -/
theorem not_subset_nonNull {t : TypeRef} (ht : t.isRequired = false) (inner : TypeRef) :
    ¬ t.values m ⊆ (TypeRef.nonNull inner).values m := by
  intro h
  exact (h (TypeRef.null_mem_values_iff.mpr ht)).2 rfl

theorem values_list_subset_list_iff {item other : TypeRef} :
    (TypeRef.list item).values m ⊆ (TypeRef.list other).values m ↔
      item.values m ⊆ other.values m := by
  rw [TypeRef.values, TypeRef.values, Set.insert_subset_insert_iff (Datum.null_notMem_lists _),
    Datum.lists_subset_lists_iff]

/-- Between types that admit `null`, it makes no difference to inclusion. -/
theorem values_nonNull_subset_iff {inner t : TypeRef} (ht : t.isRequired = false) :
    (TypeRef.nonNull inner).values m ⊆ t.values m ↔ inner.values m ⊆ t.values m := by
  rw [TypeRef.values, Set.sdiff_singleton_subset_iff,
    Set.insert_eq_of_mem (TypeRef.null_mem_values_iff.mpr ht)]

theorem values_nonNull_subset_nonNull_iff {inner other : TypeRef} (hother : other.isRequired = false) :
    (TypeRef.nonNull inner).values m ⊆ (TypeRef.nonNull other).values m ↔
      inner.values m ⊆ other.values m := by
  rw [← values_nonNull_subset_iff hother]
  constructor
  · intro h d hd
    exact (h hd).1
  · intro h d hd
    exact ⟨h hd, hd.2⟩

theorem safeInput_iff_subset (hm : m.Separates) {old new : TypeRef} (hold : old.WellFormed)
    (hnew : new.WellFormed) : safeInput old new = true ↔ old.values m ⊆ new.values m := by
  induction old generalizing new with
  | named name =>
    cases new with
    | named other => rw [safeInput, beq_iff_eq, values_named_subset_iff hm]
    | list item => exact iff_of_false Bool.false_ne_true (not_named_subset_list hm name item)
    | nonNull inner => exact iff_of_false Bool.false_ne_true (not_subset_nonNull rfl inner)
  | list item ih =>
    cases new with
    | named other => exact iff_of_false Bool.false_ne_true (not_list_subset_named hm item other)
    | list other =>
      rw [values_list_subset_list_iff]
      exact ih hold hnew
    | nonNull inner => exact iff_of_false Bool.false_ne_true (not_subset_nonNull rfl inner)
  | nonNull inner ih =>
    cases new with
    | named | list =>
      rw [values_nonNull_subset_iff rfl]
      exact ih hold.2 hnew
    | nonNull other =>
      rw [values_nonNull_subset_nonNull_iff hnew.1]
      exact ih hold.2 hnew.2

end

/-! ## The main result -/

/-- **Safe changes are inclusions of values**, whatever names stand for if they are told apart. Hence
both kinds of safe changes are orders of types, each the converse of the other. -/
theorem safe_changes_are_inclusions :
    (∀ (α : Type) (m : Meaning α), m.Separates →
      ∀ old new : TypeRef, old.WellFormed → new.WellFormed →
        (safeOutput old new = true ↔ new.values m ⊆ old.values m) ∧
        (safeInput old new = true ↔ old.values m ⊆ new.values m)) ∧
    IsPartialOrder TypeRef (fun old new => safeOutput old new = true) ∧
    IsPartialOrder TypeRef (fun old new => safeInput old new = true) ∧
    ∀ old new : TypeRef, safeOutput old new = safeInput new old := by
  refine ⟨?_, ?_, safeInput_isPartialOrder, safeOutput_eq_safeInput⟩
  · intro α m hm old new hold hnew
    rw [safeOutput_eq_safeInput]
    exact ⟨safeInput_iff_subset hm hnew hold, safeInput_iff_subset hm hold hnew⟩
  · simp only [safeOutput_eq_safeInput]
    exact inferInstanceAs
      (IsPartialOrder TypeRef (Function.swap fun old new => safeInput old new = true))

theorem ownNames_separates : Meaning.ownNames.Separates where
  nonempty _ := Set.singleton_nonempty _
  unshared _ _ _ hd hother := Datum.atom.inj (hd.symm.trans hother)
  list_notMem _ _ := nofun

/-- The type of an output, but not that of an input, may come to exclude `null` at two depths. -/
theorem safe_changes_are_inclusions_nestedLists :
    let item := TypeRef.nonNull (.named "Int")
    let old := TypeRef.list (.list item)
    let new := TypeRef.nonNull (.list (.nonNull (.list item)))
    Meaning.ownNames.Separates ∧ old.WellFormed ∧ new.WellFormed ∧
      safeOutput old new = true ∧ new.values .ownNames ⊆ old.values .ownNames ∧
      safeInput old new = false ∧ ¬ old.values .ownNames ⊆ new.values .ownNames := by
  intro item old new
  have hold : old.WellFormed := ⟨rfl, trivial⟩
  have hnew : new.WellFormed := ⟨rfl, rfl, rfl, trivial⟩
  obtain ⟨hout, hin⟩ := safe_changes_are_inclusions.1 String .ownNames ownNames_separates old new
    hold hnew
  exact ⟨ownNames_separates, hold, hnew, rfl, hout.mp rfl, rfl, fun h => nomatch hin.mpr h⟩

end Changes

end SchemaBridge
