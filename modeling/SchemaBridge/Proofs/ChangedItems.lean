import Mathlib.Data.Multiset.Bind
import SchemaBridge.Proofs.CompatibleSchemas
/-!
# What changes are about

A change is about an item: a type, or below it a field, an argument, a member, a value or an
interface. The items of the changes of one code are counted as often as they occur. Which codes there
can be follows from the form of type that is compared.

Results:
* `items_append`, `items_flatMap`, `items_map`: the items of changes that are put together.
* `about_bodyBreaking`, `about_bodyDangerous`: between bodies of one form, all changes are about
  their type and have the codes of the form.
* `items_bodyBreaking_eq_zero`, `items_bodyDangerous_eq_zero`: no item for any other code.
-/
namespace SchemaBridge.Changes

open Sdl (Form TypeBody Field InputValue)

/-! ## What changes are about -/

/-- A type, and below it what a change is about. -/
abbrev Item := String × List String

/-- Changes have a code and are about an item. -/
class Change (α : Type) where
  code : α → String
  item : α → Item

def Breaking.item : Breaking → Item
  | argChangedKind owner field arg _ _ => (owner, [field, arg])
  | argRemoved owner field arg => (owner, [field, arg])
  | fieldChangedKind owner field _ _ => (owner, [field])
  | fieldRemoved owner field => (owner, [field])
  | interfaceRemovedFromObject owner interface => (owner, [interface])
  | requiredArgAdded owner field arg => (owner, [field, arg])
  | requiredInputFieldAdded owner field => (owner, [field])
  | typeChangedKind name _ _ => (name, [])
  | typeRemoved name => (name, [])
  | typeRemovedFromUnion owner member => (owner, [member])
  | valueRemovedFromEnum owner value => (owner, [value])

def Dangerous.item : Dangerous → Item
  | interfaceAddedToObject owner interface => (owner, [interface])
  | optionalArgAdded owner field arg => (owner, [field, arg])
  | optionalInputFieldAdded owner field => (owner, [field])
  | typeAddedToUnion owner member => (owner, [member])
  | valueAddedToEnum owner value => (owner, [value])

instance : Change Breaking := ⟨Breaking.code, Breaking.item⟩

instance : Change Dangerous := ⟨Dangerous.code, Dangerous.item⟩

@[simp] theorem code_breaking (x : Breaking) : Change.code x = x.code := rfl

@[simp] theorem code_dangerous (x : Dangerous) : Change.code x = x.code := rfl

section
variable {α β : Type} [Change α] {c d : String}

/-- The items of the changes of a code, as often as they occur. -/
def items (c : String) (xs : List α) : Multiset Item :=
  ↑((xs.filter fun x => Change.code x = c).map Change.item)

@[simp] theorem items_nil : items c ([] : List α) = 0 := rfl

@[simp] theorem items_append (xs ys : List α) : items c (xs ++ ys) = items c xs + items c ys := by
  simp [items]

theorem items_flatMap (xs : List β) (f : β → List α) :
    items c (xs.flatMap f) = (xs : Multiset β).bind fun x => items c (f x) := by
  simp [items, List.filter_flatMap, List.map_flatMap, ← Multiset.coe_bind]

/-- Changes of one kind are all there, or none of them is. -/
theorem items_map {mk : β → α} (h : ∀ x, Change.code (mk x) = d) (xs : List β) :
    items c (xs.map mk) = if d = c then ↑(xs.map fun x => Change.item (mk x)) else 0 := by
  unfold items
  split <;> simp_all [List.filter_map, Function.comp_def]

theorem items_eq_zero {xs : List α} (h : ∀ x ∈ xs, Change.code x ≠ c) : items c xs = 0 := by
  have hnil : xs.filter (fun x => Change.code x = c) = [] := by
    simpa [List.filter_eq_nil_iff] using h
  rw [items, hnil]
  rfl

theorem of_mem_items {xs : List α} {i : Item} (h : i ∈ items c xs) :
    ∃ x ∈ xs, Change.item x = i := by
  obtain ⟨x, hx, rfl⟩ := List.mem_map.mp (Multiset.mem_coe.mp h)
  exact ⟨x, List.mem_of_mem_filter hx, rfl⟩

end

/-! ## Codes by form -/

/-- The codes of the breaking changes between fields with arguments. -/
def fieldCodes : List String :=
  ["FIELD_REMOVED", "FIELD_CHANGED_KIND", "ARG_REMOVED", "ARG_CHANGED_KIND", "REQUIRED_ARG_ADDED"]

/-- The codes of the breaking changes between bodies of a form. -/
def breakingCodes : Form → List String
  | .scalar => []
  | .object | .interface => "INTERFACE_REMOVED_FROM_OBJECT" :: fieldCodes
  | .union => ["TYPE_REMOVED_FROM_UNION"]
  | .enum => ["VALUE_REMOVED_FROM_ENUM"]
  | .input => ["FIELD_REMOVED", "FIELD_CHANGED_KIND", "REQUIRED_INPUT_FIELD_ADDED"]

/-- The codes of the dangerous changes between bodies of a form. -/
def dangerousCodes : Form → List String
  | .scalar => []
  | .object | .interface => ["INTERFACE_ADDED_TO_OBJECT", "OPTIONAL_ARG_ADDED"]
  | .union => ["TYPE_ADDED_TO_UNION"]
  | .enum => ["VALUE_ADDED_TO_ENUM"]
  | .input => ["OPTIONAL_INPUT_FIELD_ADDED"]

/-- All changes have one of some codes, and concern one type. -/
def About {α : Type} [Change α] (owner : String) (codes : List String) (xs : List α) : Prop :=
  ∀ x ∈ xs, (Change.item x).1 = owner ∧ Change.code x ∈ codes

section
variable {α β : Type} [Change α] {owner : String} {codes codes' : List String}

theorem about_nil : About owner codes ([] : List α) := fun _ h => absurd h List.not_mem_nil

theorem about_singleton {x : α} (howner : (Change.item x).1 = owner)
    (hcode : Change.code x ∈ codes) : About owner codes [x] := by
  intro y hy
  rw [List.mem_singleton.mp hy]
  exact ⟨howner, hcode⟩

theorem About.mono {xs : List α} (h : codes ⊆ codes') (hx : About owner codes xs) :
    About owner codes' xs :=
  fun x hmem => (hx x hmem).imp_right (@h _)

theorem About.append {xs ys : List α} (hx : About owner codes xs) (hy : About owner codes ys) :
    About owner codes (xs ++ ys) :=
  fun x h => (List.mem_append.mp h).elim (hx x) (hy x)

theorem About.flatMap {xs : List β} {f : β → List α} (h : ∀ x, About owner codes (f x)) :
    About owner codes (xs.flatMap f) := by
  intro y hy
  obtain ⟨x, -, hy⟩ := List.mem_flatMap.mp hy
  exact h x y hy

theorem About.map {xs : List β} {mk : β → α} (howner : ∀ x, (Change.item (mk x)).1 = owner)
    (hcode : ∀ x, Change.code (mk x) ∈ codes) : About owner codes (xs.map mk) := by
  intro y hy
  obtain ⟨x, -, rfl⟩ := List.mem_map.mp hy
  exact ⟨howner x, hcode x⟩

theorem About.items_eq_zero {xs : List α} {c : String} (h : About owner codes xs)
    (hc : c ∉ codes) : items c xs = 0 := by
  apply SchemaBridge.Changes.items_eq_zero
  rintro x hx rfl
  exact hc (h x hx).2

theorem About.owner_eq {xs : List α} {c : String} (h : About owner codes xs) {i : Item}
    (hi : i ∈ items c xs) : i.1 = owner := by
  obtain ⟨x, hx, rfl⟩ := of_mem_items hi
  exact (h x hx).1

end

section
variable (owner : String)

theorem about_argBreaking (field : String) (u : InputValue) (found : Option InputValue) :
    About owner ["ARG_REMOVED", "ARG_CHANGED_KIND"] (argBreaking owner field u found) := by
  cases found with
  | none => exact about_singleton rfl (by simp [Breaking.code])
  | some v =>
    rw [argBreaking]
    split
    · exact about_nil
    · exact about_singleton rfl (by simp [Breaking.code])

theorem about_argsBreaking (field : String) (old new : List InputValue) :
    About owner fieldCodes (argsBreaking owner field old new) :=
  .append (.flatMap fun u => (about_argBreaking owner field u _).mono (by simp [fieldCodes]))
    (.map (fun _ => rfl) (by simp [Breaking.code, fieldCodes]))

theorem about_fieldsBreaking (old new : List Field) :
    About owner fieldCodes (fieldsBreaking owner old new) := by
  apply About.flatMap
  intro f
  cases findField new f.name with
  | none => exact about_singleton rfl (by simp [Breaking.code, fieldCodes])
  | some g =>
    apply About.append (about_argsBreaking owner f.name f.arguments g.arguments)
    split
    · exact about_nil
    · exact about_singleton rfl (by simp [Breaking.code, fieldCodes])

theorem about_inputFieldBreaking (u : InputValue) (found : Option InputValue) :
    About owner ["FIELD_REMOVED", "FIELD_CHANGED_KIND"] (inputFieldBreaking owner u found) := by
  cases found with
  | none => exact about_singleton rfl (by simp [Breaking.code])
  | some v =>
    rw [inputFieldBreaking]
    split
    · exact about_nil
    · exact about_singleton rfl (by simp [Breaking.code])

theorem about_inputFieldsBreaking (old new : List InputValue) :
    About owner (breakingCodes .input) (inputFieldsBreaking owner old new) :=
  .append (.flatMap fun u => (about_inputFieldBreaking owner u _).mono (by simp [breakingCodes]))
    (.map (fun _ => rfl) (by simp [Breaking.code, breakingCodes]))

theorem about_fieldsDangerous (old new : List Field) :
    About owner ["OPTIONAL_ARG_ADDED"] (fieldsDangerous owner old new) := by
  apply About.flatMap
  intro f
  cases findField new f.name with
  | none => exact about_nil
  | some g => exact About.map (fun _ => rfl) (by simp [Dangerous.code])

/-- Breaking changes between bodies of one form have the codes of that form. -/
theorem about_bodyBreaking {old new : TypeBody} (h : old.form = new.form) :
    About owner (breakingCodes old.form) (bodyBreaking owner old new) := by
  cases sameForm_of_form_eq h with
  | scalar => exact about_nil
  | object | interface =>
    exact ((about_fieldsBreaking owner _ _).mono (List.subset_cons_self _ _)).append
      (About.map (fun _ => rfl) (by simp [Breaking.code]))
  | union | enum =>
    exact About.map (fun _ => rfl) (by simp [Breaking.code, breakingCodes, TypeBody.form])
  | input => exact about_inputFieldsBreaking owner _ _

/-- Dangerous changes between bodies have the codes of their form. -/
theorem about_bodyDangerous {old new : TypeBody} (h : old.form = new.form) :
    About owner (dangerousCodes old.form) (bodyDangerous owner old new) := by
  cases sameForm_of_form_eq h with
  | scalar => exact about_nil
  | object | interface =>
    exact ((about_fieldsDangerous owner _ _).mono (List.subset_cons_self _ _)).append
      (About.map (fun _ => rfl) (by simp [Dangerous.code]))
  | union | enum | input =>
    exact About.map (fun _ => rfl) (by simp [Dangerous.code, dangerousCodes, TypeBody.form])

/-- Nothing is reported under a code that the form of the bodies does not have. -/
theorem items_bodyBreaking_eq_zero {c : String} {old new : TypeBody}
    (hform : old.form = new.form → c ∉ breakingCodes old.form) (hkind : "TYPE_CHANGED_KIND" ≠ c) :
    items c (bodyBreaking owner old new) = 0 := by
  by_cases h : old.form = new.form
  · exact (about_bodyBreaking owner h).items_eq_zero (hform h)
  · rw [bodyBreaking_of_form_ne owner h]
    apply items_eq_zero
    simpa [Breaking.code] using hkind

theorem items_bodyDangerous_eq_zero {c : String} {old new : TypeBody}
    (hform : old.form = new.form → c ∉ dangerousCodes old.form) :
    items c (bodyDangerous owner old new) = 0 := by
  by_cases h : old.form = new.form
  · exact (about_bodyDangerous owner h).items_eq_zero (hform h)
  · rw [bodyDangerous_of_form_ne owner h, items_nil]

theorem items_interfacesBreaking {c : String} (hc : "INTERFACE_REMOVED_FROM_OBJECT" ≠ c)
    (is js : List String) : items c (interfacesBreaking owner is js) = 0 := by
  rw [interfacesBreaking, items_map (d := "INTERFACE_REMOVED_FROM_OBJECT") (fun _ => rfl),
    if_neg hc]

theorem items_interfacesDangerous {c : String} (hc : "INTERFACE_ADDED_TO_OBJECT" ≠ c)
    (is js : List String) : items c (interfacesDangerous owner is js) = 0 := by
  rw [interfacesDangerous, items_map (d := "INTERFACE_ADDED_TO_OBJECT") (fun _ => rfl), if_neg hc]

end

end SchemaBridge.Changes
