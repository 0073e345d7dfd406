import Mathlib.Data.List.Nodup
import SchemaBridge.Proofs.CompatibleSchemas
import SchemaBridge.Proofs.SafeChanges
/-!
# Upgrades in two steps

If a schema is compatible with an older one, and a third with it, is the third compatible with the
first? What is there in the first schema is there in the third, with a type that is reached in two
safe steps. But what is new to the third may have come with the second: there it could be left out,
and the step to the third has to keep it so. That takes two conditions. A default value in the second
schema would let a required input come in without notice; and if the third repeated a name, the step
would look at its first occurrence only.

Results:
* `InputsCompatible.trans`: arguments and input fields in two steps.
* `FieldsCompatible.trans`, `BodyCompatible.trans`, `Compatible.trans`: the rest of a schema.
* `compatible_upgrades_compose`: the same for reports of breaking changes.
-/
namespace SchemaBridge.Changes

open Sdl (TypeRef TypeBody TypeDef Field InputValue Schema)

/-! ## Inputs of a schema -/

/-- The argument lists and the input fields of a type. -/
def inputLists : TypeBody → List (List InputValue)
  | .object _ fs | .interface _ fs => fs.map Field.arguments
  | .input fs => [fs]
  | _ => []

/-- No argument or input field has a default value. -/
def WithoutDefaults (s : Schema) : Prop :=
  ∀ t ∈ types s, ∀ vs ∈ inputLists t.body, ∀ v ∈ vs, v.default = none

/-- No argument list and no input type repeats a name. -/
def WithoutRepeats (s : Schema) : Prop :=
  ∀ t ∈ types s, ∀ vs ∈ inputLists t.body, (vs.map InputValue.name).Nodup

instance (s : Schema) : Decidable (WithoutDefaults s) :=
  inferInstanceAs (Decidable (∀ t ∈ types s, ∀ vs ∈ inputLists t.body, ∀ v ∈ vs, v.default = none))

instance (s : Schema) : Decidable (WithoutRepeats s) :=
  inferInstanceAs
    (Decidable (∀ t ∈ types s, ∀ vs ∈ inputLists t.body, (vs.map InputValue.name).Nodup))

/-! ## Two steps -/

theorem InputsCompatible.trans {old mid new : List InputValue} (hdefault : ∀ v ∈ mid, v.default = none)
    (hrepeat : (new.map InputValue.name).Nodup) (h : InputsCompatible old mid)
    (h' : InputsCompatible mid new) : InputsCompatible old new where
  kept u hu := by
    obtain ⟨v, hv, hname, hsafe⟩ := h.kept u hu
    obtain ⟨w, hw, hname', hsafe'⟩ := h'.kept v hv.mem
    exact ⟨w, hw, hname'.trans hname, safeInput_trans hsafe hsafe'⟩
  omittable w hw hnew := by
    by_cases hmid : IsNew mid w
    · exact h'.omittable w hw hmid
    · -- The input came with the step before, and could be left out then.
      obtain ⟨v, hv, hname⟩ : ∃ v ∈ mid, v.name = w.name := by simpa [IsNew] using hmid
      have hcame : IsNew old v := fun u hu => hname ▸ hnew u hu
      have hnullable : v.type.isRequired = false :=
        (h.omittable v hv hcame).resolve_right (by rw [hdefault v hv]; exact Bool.false_ne_true)
      obtain ⟨w', hw', hname', hsafe⟩ := h'.kept v hv
      obtain rfl : w' = w :=
        List.inj_on_of_nodup_map hrepeat hw'.mem hw (hname'.trans hname)
      exact .inl (isRequired_eq_false_of_safeInput hsafe hnullable)

theorem FieldsCompatible.trans {old mid new : List Field}
    (hdefault : ∀ vs ∈ mid.map Field.arguments, ∀ v ∈ vs, v.default = none)
    (hrepeat : ∀ vs ∈ new.map Field.arguments, (vs.map InputValue.name).Nodup)
    (h : FieldsCompatible old mid) (h' : FieldsCompatible mid new) : FieldsCompatible old new := by
  intro f hf
  obtain ⟨g, hg, hname, hsafe, hinputs⟩ := h f hf
  obtain ⟨k, hk, hname', hsafe', hinputs'⟩ := h' g hg.mem
  refine ⟨k, hk, hname'.trans hname, ?_, ?_⟩
  · rw [safeOutput_eq_safeInput] at hsafe hsafe' ⊢
    exact safeInput_trans hsafe' hsafe
  · exact hinputs.trans (hdefault _ (List.mem_map_of_mem hg.mem))
      (hrepeat _ (List.mem_map_of_mem hk.mem)) hinputs'

theorem BodyCompatible.trans {old mid new : TypeBody}
    (hdefault : ∀ vs ∈ inputLists mid, ∀ v ∈ vs, v.default = none)
    (hrepeat : ∀ vs ∈ inputLists new, (vs.map InputValue.name).Nodup) (h : BodyCompatible old mid)
    (h' : BodyCompatible mid new) : BodyCompatible old new := by
  cases h with
  | scalar => exact h'
  | object hinterfaces hfields =>
    cases h' with
    | object hinterfaces' hfields' =>
      exact .object (List.Subset.trans hinterfaces hinterfaces')
        (hfields.trans hdefault hrepeat hfields')
  | interface hinterfaces hfields =>
    cases h' with
    | interface hinterfaces' hfields' =>
      exact .interface (List.Subset.trans hinterfaces hinterfaces')
        (hfields.trans hdefault hrepeat hfields')
  | union hmembers =>
    cases h' with
    | union hmembers' => exact .union (List.Subset.trans hmembers hmembers')
  | enum hvalues =>
    cases h' with
    | enum hvalues' => exact .enum (List.Subset.trans hvalues hvalues')
  | input hfields =>
    cases h' with
    | input hfields' =>
      exact .input (hfields.trans (hdefault _ (List.mem_singleton_self _))
        (hrepeat _ (List.mem_singleton_self _)) hfields')

theorem Compatible.trans {a b c : Schema} (hb : WithoutDefaults b) (hc : WithoutRepeats c)
    (hab : Compatible a b) (hbc : Compatible b c) : Compatible a c := by
  intro t ht
  obtain ⟨u, hu, hname, hbody⟩ := hab t ht
  obtain ⟨w, hw, hname', hbody'⟩ := hbc u hu
  exact ⟨w, hw, hname'.trans hname, hbody.trans (hb u hu.mem) (hc w hw.mem) hbody'⟩

/-- **Compatible upgrades compose**: if neither step of an upgrade breaks requests, the two of them
together do not, provided that the middle schema has no default values and the last one does not
repeat the name of an argument or input field. -/
theorem compatible_upgrades_compose {a b c : Schema} (hb : WithoutDefaults b)
    (hc : WithoutRepeats c) (hab : breaking a b = []) (hbc : breaking b c = []) :
    breaking a c = [] := by
  rw [breaking_eq_nil_iff] at hab hbc ⊢
  exact hab.trans hb hc hbc

/-- A type with one field, by its arguments and its type. -/
def findWith (arguments : List InputValue) (type : TypeRef) : Schema :=
  [.type ⟨⟨1, 1⟩, none, "Query", [], .object [] [⟨⟨1, 14⟩, none, "find", arguments, type, []⟩]⟩]

def argument (name : String) (type : TypeRef) : InputValue := ⟨⟨1, 19⟩, none, name, type, none, []⟩

/-- An argument comes with the first step, and stops to be required with the second. -/
theorem compatible_upgrades_compose_newArgument :
    let a := findWith [argument "id" (.nonNull (.named "ID"))] (.named "Item")
    let b := findWith [argument "id" (.nonNull (.named "ID")), argument "limit" (.named "Int")]
      (.nonNull (.named "Item"))
    let c := findWith [argument "limit" (.named "Int"), argument "id" (.named "ID")]
      (.nonNull (.named "Item"))
    WithoutDefaults b ∧ WithoutRepeats c ∧ breaking a b = [] ∧ breaking b c = [] ∧
      breaking a c = [] := by
  intro a b c
  have hb : WithoutDefaults b := by decide
  have hc : WithoutRepeats c := by decide
  have hab : breaking a b = [] := by decide
  have hbc : breaking b c = [] := by decide
  exact ⟨hb, hc, hab, hbc, compatible_upgrades_compose hb hc hab hbc⟩

/-- A default value in the middle hides that an argument has come to be required. -/
example :
    let required := argument "limit" (.nonNull (.named "Int"))
    let a := findWith [] (.named "Item")
    let b := findWith [{ required with default := some (.int 10) }] (.named "Item")
    let c := findWith [required] (.named "Item")
    breaking a b = [] ∧ breaking b c = [] ∧ breaking a c ≠ [] := by decide

end SchemaBridge.Changes
