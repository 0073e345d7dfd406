import Mathlib.Data.List.Induction
import SchemaBridge.Changes.Compare
/-!
# Compatible schemas

What it takes for a schema to take the place of an older one, said without reference to how schemas
are compared: which definitions, fields and arguments have to be there again, and which may not be
new. A schema may repeat names, so that each condition also says which occurrence of a name it means.

Results:
* `lookup?_ofEntries_map`, `findInput_eq_some_iff`, `findField_eq_some_iff`: the occurrences that the
  comparison finds are the last of a type and the first of a field or argument.
* `breaking_eq_nil_iff`: there are no breaking changes exactly to a compatible schema.
* `dangerous_eq_nil_iff`: there are no dangerous changes exactly to a schema without additions.
* `empty_report_iff`: both in one statement.
-/
namespace SchemaBridge.Changes

open Sdl (TypeRef TypeBody TypeDef Field InputValue EnumValue Definition Schema)

/-! ## Occurrences of a name -/

section
variable {α : Type} {name : α → String} {xs : List α} {a : α}

/-- An element with none of its name before it. -/
def FirstOf (name : α → String) (xs : List α) (a : α) : Prop :=
  ∃ before after, xs = before ++ a :: after ∧ ∀ b ∈ before, name b ≠ name a

/-- An element with none of its name after it. -/
def LastOf (name : α → String) (xs : List α) (a : α) : Prop :=
  ∃ before after, xs = before ++ a :: after ∧ ∀ b ∈ after, name b ≠ name a

theorem FirstOf.mem (h : FirstOf name xs a) : a ∈ xs := by
  obtain ⟨before, after, rfl, -⟩ := h
  exact List.mem_append_right _ List.mem_cons_self

theorem LastOf.mem (h : LastOf name xs a) : a ∈ xs := by
  obtain ⟨before, after, rfl, -⟩ := h
  exact List.mem_append_right _ List.mem_cons_self

theorem find?_eq_some_iff_firstOf {key : String} :
    xs.find? (fun x => name x = key) = some a ↔ FirstOf name xs a ∧ name a = key := by
  rw [List.find?_eq_some_iff_append, decide_eq_true_eq]
  constructor
  · rintro ⟨rfl, before, after, hxs, hbefore⟩
    exact ⟨⟨before, after, hxs, by simpa using hbefore⟩, rfl⟩
  · rintro ⟨⟨before, after, hxs, hbefore⟩, rfl⟩
    exact ⟨rfl, before, after, hxs, by simpa using hbefore⟩

theorem lastOf_concat {x : α} :
    LastOf name (xs ++ [x]) a ↔ a = x ∨ LastOf name xs a ∧ name x ≠ name a := by
  constructor
  · rintro ⟨before, after, hxs, hafter⟩
    rcases List.eq_nil_or_concat after with rfl | ⟨after, y, rfl⟩
    · obtain ⟨-, hx⟩ := List.append_inj' hxs rfl
      exact .inl (List.cons.inj hx).1.symm
    · rw [List.concat_eq_append] at hxs hafter
      rw [← List.cons_append, ← List.append_assoc] at hxs
      obtain ⟨hinit, hlast⟩ := List.append_inj' hxs rfl
      obtain rfl : x = y := (List.cons.inj hlast).1
      refine .inr ⟨⟨before, after, hinit, ?_⟩, hafter x (by simp)⟩
      intro b hb
      exact hafter b (List.mem_append_left _ hb)
  · rintro (rfl | ⟨⟨before, after, rfl, hafter⟩, hx⟩)
    · exact ⟨xs, [], rfl, by simp⟩
    · refine ⟨before, after ++ [x], by simp, ?_⟩
      intro b hb
      rcases List.mem_append.mp hb with hb | hb
      · exact hafter b hb
      · rw [List.mem_singleton.mp hb]
        exact hx

/-- Of elements put under their names, a name holds the last. -/
theorem lookup?_ofEntries_map {key : String} :
    (Keyed.ofEntries (xs.map fun x => (name x, x))).lookup? key = some a
      ↔ LastOf name xs a ∧ name a = key := by
  -- The element put last decides, so the list is taken apart from its end.
  induction xs using List.reverseRecOn with
  | nil => simp [Keyed.ofEntries, Keyed.lookup?, LastOf]
  | append_singleton xs x ih =>
    rw [List.map_append, List.map_singleton, Keyed.ofEntries_concat, lastOf_concat]
    by_cases hx : name x = key
    · subst hx
      rw [Keyed.lookup?_put_self, Option.some.injEq]
      constructor
      · rintro rfl
        exact ⟨.inl rfl, rfl⟩
      · rintro ⟨rfl | ⟨-, hne⟩, ha⟩
        · rfl
        · exact absurd ha.symm hne
    · rw [Keyed.lookup?_put_of_ne (Ne.symm hx), ih]
      constructor
      · rintro ⟨hlast, rfl⟩
        exact ⟨.inr ⟨hlast, hx⟩, rfl⟩
      · rintro ⟨rfl | ⟨hlast, -⟩, ha⟩
        · exact absurd ha hx
        · exact ⟨hlast, ha⟩

end

/-! ## Bodies of one form -/

/-- Bodies of one form whose names (of interfaces, members or values), fields or input fields are
related. -/
inductive SameForm (Names : List String → List String → Prop)
    (Fields : List Field → List Field → Prop) (Inputs : List InputValue → List InputValue → Prop) :
    (old new : TypeBody) → Prop
  | scalar : SameForm Names Fields Inputs .scalar .scalar
  | object {is js : List String} {fs gs : List Field} (hinterfaces : Names is js)
    (hfields : Fields fs gs) : SameForm Names Fields Inputs (.object is fs) (.object js gs)
  | interface {is js : List String} {fs gs : List Field} (hinterfaces : Names is js)
    (hfields : Fields fs gs) : SameForm Names Fields Inputs (.interface is fs) (.interface js gs)
  | union {ms ns : List String} (hmembers : Names ms ns) :
    SameForm Names Fields Inputs (.union ms) (.union ns)
  | enum {vs ws : List EnumValue} (hvalues : Names (vs.map EnumValue.name) (ws.map EnumValue.name)) :
    SameForm Names Fields Inputs (.enum vs) (.enum ws)
  | input {fs gs : List InputValue} (hfields : Inputs fs gs) :
    SameForm Names Fields Inputs (.input fs) (.input gs)

section
variable {Names : List String → List String → Prop} {Fields : List Field → List Field → Prop}
  {Inputs : List InputValue → List InputValue → Prop} {old new : TypeBody}

theorem SameForm.form_eq (h : SameForm Names Fields Inputs old new) : old.form = new.form := by
  cases h <;> rfl

/-- Bodies of one form, whatever they hold. -/
theorem sameForm_of_form_eq (h : old.form = new.form) :
    SameForm (fun _ _ => True) (fun _ _ => True) (fun _ _ => True) old new := by
  cases old with
  | scalar =>
    cases new with
    | scalar => exact .scalar
    | _ => cases h
  | object =>
    cases new with
    | object => exact .object trivial trivial
    | _ => cases h
  | interface =>
    cases new with
    | interface => exact .interface trivial trivial
    | _ => cases h
  | union =>
    cases new with
    | union => exact .union trivial
    | _ => cases h
  | enum =>
    cases new with
    | enum => exact .enum trivial
    | _ => cases h
  | input =>
    cases new with
    | input => exact .input trivial
    | _ => cases h

/-- A relation that is known form by form is `SameForm`. -/
theorem sameForm_iff {Holds : TypeBody → TypeBody → Prop} (hform : old.form = new.form)
    (hscalar : Holds .scalar .scalar)
    (hobject : ∀ is js fs gs, Holds (.object is fs) (.object js gs) ↔ Names is js ∧ Fields fs gs)
    (hinterface : ∀ is js fs gs,
      Holds (.interface is fs) (.interface js gs) ↔ Names is js ∧ Fields fs gs)
    (hunion : ∀ ms ns, Holds (.union ms) (.union ns) ↔ Names ms ns)
    (henum : ∀ vs ws, Holds (.enum vs) (.enum ws) ↔
      Names (vs.map EnumValue.name) (ws.map EnumValue.name))
    (hinput : ∀ fs gs, Holds (.input fs) (.input gs) ↔ Inputs fs gs) :
    Holds old new ↔ SameForm Names Fields Inputs old new := by
  constructor
  · intro h
    cases sameForm_of_form_eq hform with
    | scalar => exact .scalar
    | object =>
      obtain ⟨hinterfaces, hfields⟩ := (hobject _ _ _ _).mp h
      exact .object hinterfaces hfields
    | interface =>
      obtain ⟨hinterfaces, hfields⟩ := (hinterface _ _ _ _).mp h
      exact .interface hinterfaces hfields
    | union => exact .union ((hunion _ _).mp h)
    | enum => exact .enum ((henum _ _).mp h)
    | input => exact .input ((hinput _ _).mp h)
  · intro h
    cases h with
    | scalar => exact hscalar
    | object hinterfaces hfields => exact (hobject _ _ _ _).mpr ⟨hinterfaces, hfields⟩
    | interface hinterfaces hfields => exact (hinterface _ _ _ _).mpr ⟨hinterfaces, hfields⟩
    | union hmembers => exact (hunion _ _).mpr hmembers
    | enum hvalues => exact (henum _ _).mpr hvalues
    | input hfields => exact (hinput _ _).mpr hfields

end

/-! ## Compatible schemas -/

/-- An argument or input field that need not be given: nullable, or with a default value. -/
def Omittable (v : InputValue) : Prop := v.type.isRequired = false ∨ v.default.isSome = true

/-- An argument or input field whose name none of the old ones has. -/
def IsNew (old : List InputValue) (v : InputValue) : Prop := ∀ u ∈ old, u.name ≠ v.name

/-- Everything that was given for the old arguments or input fields can be given for the new. -/
structure InputsCompatible (old new : List InputValue) : Prop where
  kept : ∀ u ∈ old, ∃ v, FirstOf InputValue.name new v ∧ v.name = u.name ∧
    safeInput u.type v.type = true
  omittable : ∀ v ∈ new, IsNew old v → Omittable v

/-- Everything that was asked of the old fields can be asked of the new. -/
def FieldsCompatible (old new : List Field) : Prop :=
  ∀ f ∈ old, ∃ g, FirstOf Field.name new g ∧ g.name = f.name ∧
    safeOutput f.type g.type = true ∧ InputsCompatible f.arguments g.arguments

/-- A body that can take the place of an older one. -/
def BodyCompatible : (old new : TypeBody) → Prop :=
  SameForm (fun old new => old ⊆ new) FieldsCompatible InputsCompatible

/-- The types that a schema defines, in order. -/
def types (s : Schema) : List TypeDef :=
  s.filterMap fun d =>
    match d with
    | .type t => some t
    | _ => none

/-- Every type is there again, with a compatible body. -/
def Compatible (old new : Schema) : Prop :=
  ∀ t, LastOf TypeDef.name (types old) t →
    ∃ u, LastOf TypeDef.name (types new) u ∧ u.name = t.name ∧ BodyCompatible t.body u.body

/-! ## Schemas without additions -/

/-- No new argument or input field can be left out. -/
def InputsUnextended (old new : List InputValue) : Prop := ∀ v ∈ new, IsNew old v → ¬ Omittable v

/-- No argument that can be left out is new to a field that is there again. -/
def FieldsUnextended (old new : List Field) : Prop :=
  ∀ f ∈ old, ∀ g, FirstOf Field.name new g → g.name = f.name →
    InputsUnextended f.arguments g.arguments

/-- A body without additions to an older one. -/
def BodyUnextended : (old new : TypeBody) → Prop :=
  SameForm (fun old new => new ⊆ old) FieldsUnextended InputsUnextended

/-- Nothing is added to a type that is there again in the same form. -/
def Unextended (old new : Schema) : Prop :=
  ∀ t u, LastOf TypeDef.name (types old) t → LastOf TypeDef.name (types new) u →
    u.name = t.name → u.form = t.form → BodyUnextended t.body u.body

/-! ## Parts of a type -/

theorem removed_eq_nil_iff {old new : List String} : removed old new = [] ↔ old ⊆ new := by
  simp [removed, List.filter_eq_nil_iff, List.subset_def]

theorem isRequired_eq_false_iff {v : InputValue} : isRequired v = false ↔ Omittable v := by
  simp [isRequired, Omittable, imp_iff_not_or]

theorem isRequired_eq_true_iff {v : InputValue} : isRequired v = true ↔ ¬ Omittable v := by
  rw [← isRequired_eq_false_iff, Bool.not_eq_false]

theorem mem_newInputs {old new : List InputValue} {v : InputValue} :
    v ∈ newInputs old new ↔ v ∈ new ∧ IsNew old v := by
  simp [newInputs, IsNew]

theorem required_newInputs_eq_nil_iff {old new : List InputValue} :
    (newInputs old new).filter isRequired = [] ↔ ∀ v ∈ new, IsNew old v → Omittable v := by
  simp only [List.filter_eq_nil_iff, mem_newInputs, and_imp, Bool.not_eq_true,
    isRequired_eq_false_iff]

theorem optional_newInputs_eq_nil_iff {old new : List InputValue} :
    ((newInputs old new).filter fun v => !isRequired v) = [] ↔ InputsUnextended old new := by
  simp only [List.filter_eq_nil_iff, mem_newInputs, and_imp, Bool.not_eq_true, Bool.not_eq_false',
    isRequired_eq_true_iff, InputsUnextended]

theorem findInput_eq_some_iff {vs : List InputValue} {name : String} {v : InputValue} :
    findInput vs name = some v ↔ FirstOf InputValue.name vs v ∧ v.name = name :=
  find?_eq_some_iff_firstOf

theorem findInput_eq_none_iff {vs : List InputValue} {name : String} :
    findInput vs name = none ↔ name ∉ vs.map InputValue.name := by
  simp [findInput]

theorem findField_eq_some_iff {fs : List Field} {name : String} {f : Field} :
    findField fs name = some f ↔ FirstOf Field.name fs f ∧ f.name = name :=
  find?_eq_some_iff_firstOf

/-- Old inputs that are all found with a type that accepts theirs, and new ones that can be left out:
arguments and input fields are compared alike, only what is reported of them differs. -/
theorem inputs_eq_nil_iff {α : Type} {lost : InputValue → Option InputValue → List α}
    {required : InputValue → α} {old new : List InputValue}
    (hlost : ∀ u found, lost u found = [] ↔ ∃ v, found = some v ∧ safeInput u.type v.type = true) :
    old.flatMap (fun u => lost u (findInput new u.name))
      ++ ((newInputs old new).filter isRequired).map required = [] ↔ InputsCompatible old new := by
  rw [List.append_eq_nil_iff, List.flatMap_eq_nil_iff, List.map_eq_nil_iff,
    required_newInputs_eq_nil_iff]
  constructor
  · rintro ⟨hkept, hnew⟩
    refine ⟨?_, hnew⟩
    intro u hu
    obtain ⟨v, hfound, hsafe⟩ := (hlost u _).mp (hkept u hu)
    obtain ⟨hfirst, hname⟩ := findInput_eq_some_iff.mp hfound
    exact ⟨v, hfirst, hname, hsafe⟩
  · rintro ⟨hkept, hnew⟩
    refine ⟨?_, hnew⟩
    intro u hu
    obtain ⟨v, hfirst, hname, hsafe⟩ := hkept u hu
    exact (hlost u _).mpr ⟨v, findInput_eq_some_iff.mpr ⟨hfirst, hname⟩, hsafe⟩

section
variable (owner field : String)

theorem argsBreaking_eq_nil_iff {old new : List InputValue} :
    argsBreaking owner field old new = [] ↔ InputsCompatible old new := by
  apply inputs_eq_nil_iff
  intro u found
  cases found <;> simp [argBreaking]

theorem inputFieldsBreaking_eq_nil_iff {old new : List InputValue} :
    inputFieldsBreaking owner old new = [] ↔ InputsCompatible old new := by
  apply inputs_eq_nil_iff
  intro u found
  cases found <;> simp [inputFieldBreaking]

theorem fieldBreaking_eq_nil_iff {f : Field} {found : Option Field} :
    fieldBreaking owner f found = [] ↔
      ∃ g, found = some g ∧ safeOutput f.type g.type = true ∧
        InputsCompatible f.arguments g.arguments := by
  cases found with
  | none => simp [fieldBreaking]
  | some g => simp [fieldBreaking, argsBreaking_eq_nil_iff, and_comm]

theorem fieldsBreaking_eq_nil_iff {old new : List Field} :
    fieldsBreaking owner old new = [] ↔ FieldsCompatible old new := by
  rw [fieldsBreaking, List.flatMap_eq_nil_iff]
  apply forall₂_congr
  intro f _
  rw [fieldBreaking_eq_nil_iff]
  apply exists_congr
  intro g
  rw [findField_eq_some_iff, and_assoc]

theorem fieldsDangerous_eq_nil_iff {old new : List Field} :
    fieldsDangerous owner old new = [] ↔ FieldsUnextended old new := by
  rw [fieldsDangerous, List.flatMap_eq_nil_iff]
  apply forall₂_congr
  intro f _
  constructor
  · intro h g hfirst hname
    rw [findField_eq_some_iff.mpr ⟨hfirst, hname⟩] at h
    exact optional_newInputs_eq_nil_iff.mp (List.map_eq_nil_iff.mp h)
  · intro h
    cases hfound : findField new f.name with
    | none => rfl
    | some g =>
      obtain ⟨hfirst, hname⟩ := findField_eq_some_iff.mp hfound
      exact List.map_eq_nil_iff.mpr (optional_newInputs_eq_nil_iff.mpr (h g hfirst hname))

/-! ## Bodies -/

theorem interfacesBreaking_eq_nil_iff {old new : List String} :
    interfacesBreaking owner old new = [] ↔ old ⊆ new := by
  rw [interfacesBreaking, List.map_eq_nil_iff, removed_eq_nil_iff]

theorem interfacesDangerous_eq_nil_iff {old new : List String} :
    interfacesDangerous owner old new = [] ↔ new ⊆ old := by
  rw [interfacesDangerous, List.map_eq_nil_iff, added, removed_eq_nil_iff]

/-- Object types and interfaces are compared alike. -/
theorem implementerBreaking_eq_nil_iff {is js : List String} {fs gs : List Field} :
    fieldsBreaking owner fs gs ++ interfacesBreaking owner is js = [] ↔
      is ⊆ js ∧ FieldsCompatible fs gs := by
  rw [List.append_eq_nil_iff, fieldsBreaking_eq_nil_iff, interfacesBreaking_eq_nil_iff, and_comm]

theorem implementerDangerous_eq_nil_iff {is js : List String} {fs gs : List Field} :
    fieldsDangerous owner fs gs ++ interfacesDangerous owner is js = [] ↔
      js ⊆ is ∧ FieldsUnextended fs gs := by
  rw [List.append_eq_nil_iff, fieldsDangerous_eq_nil_iff, interfacesDangerous_eq_nil_iff, and_comm]

theorem bodyBreaking_of_form_ne {old new : TypeBody} (hform : old.form ≠ new.form) :
    bodyBreaking owner old new = [.typeChangedKind owner old.form new.form] := by
  unfold bodyBreaking
  split
  case h_7 => rfl
  all_goals exact absurd rfl hform

theorem bodyDangerous_of_form_ne {old new : TypeBody} (hform : old.form ≠ new.form) :
    bodyDangerous owner old new = [] := by
  unfold bodyDangerous
  split
  case h_6 => rfl
  all_goals exact absurd rfl hform

theorem bodyBreaking_eq_nil_iff {old new : TypeBody} :
    bodyBreaking owner old new = [] ↔ BodyCompatible old new := by
  by_cases hform : old.form = new.form
  · apply sameForm_iff hform
    · rfl
    · intro is js fs gs
      exact implementerBreaking_eq_nil_iff owner
    · intro is js fs gs
      exact implementerBreaking_eq_nil_iff owner
    · intro ms ns
      exact List.map_eq_nil_iff.trans removed_eq_nil_iff
    · intro vs ws
      exact List.map_eq_nil_iff.trans removed_eq_nil_iff
    · intro fs gs
      exact inputFieldsBreaking_eq_nil_iff owner
  · rw [bodyBreaking_of_form_ne owner hform]
    constructor
    · intro h
      cases h
    · intro h
      exact absurd h.form_eq hform

theorem bodyDangerous_eq_nil_iff {old new : TypeBody} :
    bodyDangerous owner old new = [] ↔ (new.form = old.form → BodyUnextended old new) := by
  by_cases hform : old.form = new.form
  · rw [forall_prop_of_true hform.symm]
    apply sameForm_iff hform
    · rfl
    · intro is js fs gs
      exact implementerDangerous_eq_nil_iff owner
    · intro is js fs gs
      exact implementerDangerous_eq_nil_iff owner
    · intro ms ns
      exact List.map_eq_nil_iff.trans removed_eq_nil_iff
    · intro vs ws
      exact List.map_eq_nil_iff.trans removed_eq_nil_iff
    · intro fs gs
      exact List.map_eq_nil_iff.trans optional_newInputs_eq_nil_iff
  · constructor
    · intro _ h
      exact absurd h.symm hform
    · intro _
      exact bodyDangerous_of_form_ne owner hform

end

/-! ## Schemas -/

theorem typeDefs_eq (s : Schema) :
    typeDefs s = Keyed.ofEntries ((types s).map fun t => (t.name, t)) := by
  rw [typeDefs, types, List.map_filterMap]
  congr 2
  funext d
  cases d <;> rfl

theorem lookup?_typeDefs {s : Schema} {name : String} {t : TypeDef} :
    (typeDefs s).lookup? name = some t ↔ LastOf TypeDef.name (types s) t ∧ t.name = name := by
  rw [typeDefs_eq]
  exact lookup?_ofEntries_map

theorem keys_typeDefs_nodup (s : Schema) : ((typeDefs s).map Prod.fst).Nodup :=
  Keyed.keys_ofEntries_nodup _

theorem mem_typeDefs {s : Schema} {m : String × TypeDef} :
    m ∈ typeDefs s ↔ (typeDefs s).lookup? m.1 = some m.2 :=
  Keyed.mem_iff_lookup? (keys_typeDefs_nodup s)

/-- The types that are compared are the last of their names. -/
theorem forall_mem_typeDefs {s : Schema} {Holds : String × TypeDef → Prop} :
    (∀ m ∈ typeDefs s, Holds m) ↔
      ∀ t, LastOf TypeDef.name (types s) t → Holds (t.name, t) := by
  constructor
  · intro h t ht
    have hmem : (t.name, t) ∈ typeDefs s := mem_typeDefs.mpr (lookup?_typeDefs.mpr ⟨ht, rfl⟩)
    exact h _ hmem
  · rintro h ⟨name, t⟩ hmem
    have hfound : (typeDefs s).lookup? name = some t := mem_typeDefs.mp hmem
    obtain ⟨ht, rfl⟩ := lookup?_typeDefs.mp hfound
    exact h t ht

theorem mem_types_of_mem_typeDefs {s : Schema} {m : String × TypeDef} (h : m ∈ typeDefs s) :
    m.2 ∈ types s :=
  (lookup?_typeDefs.mp (mem_typeDefs.mp h)).1.mem

theorem typeBreaking_eq_nil_iff {name : String} {t : TypeDef} {found : Option TypeDef} :
    typeBreaking name t found = [] ↔ ∃ u, found = some u ∧ BodyCompatible t.body u.body := by
  cases found with
  | none => simp [typeBreaking]
  | some u => simp [typeBreaking, bodyBreaking_eq_nil_iff]

theorem typeDangerous_eq_nil_iff {name : String} {t : TypeDef} {found : Option TypeDef} :
    typeDangerous name t found = [] ↔
      ∀ u, found = some u → u.form = t.form → BodyUnextended t.body u.body := by
  cases found with
  | none => simp [typeDangerous]
  | some u => simp [typeDangerous, bodyDangerous_eq_nil_iff, TypeDef.form]

theorem breaking_eq_nil_iff {old new : Schema} : breaking old new = [] ↔ Compatible old new := by
  rw [breaking, List.flatMap_eq_nil_iff, forall_mem_typeDefs]
  apply forall₂_congr
  intro t _
  rw [typeBreaking_eq_nil_iff]
  apply exists_congr
  intro u
  rw [lookup?_typeDefs, and_assoc]

theorem dangerous_eq_nil_iff {old new : Schema} :
    dangerous old new = [] ↔ Unextended old new := by
  rw [dangerous, List.flatMap_eq_nil_iff, forall_mem_typeDefs]
  constructor
  · intro h t u ht hu hname
    exact typeDangerous_eq_nil_iff.mp (h t ht) u (lookup?_typeDefs.mpr ⟨hu, hname⟩)
  · intro h t ht
    apply typeDangerous_eq_nil_iff.mpr
    intro u hfound
    obtain ⟨hu, hname⟩ := lookup?_typeDefs.mp hfound
    exact h t u ht hu hname

/-- **Reports are empty exactly if there is nothing to report.** Between any two schemas, also ones
that repeat names, there are no breaking changes if and only if the new one is compatible, and no
dangerous changes if and only if it is without additions. -/
theorem empty_report_iff (old new : Schema) :
    (breaking old new = [] ↔ Compatible old new) ∧
      (dangerous old new = [] ↔ Unextended old new) :=
  ⟨breaking_eq_nil_iff, dangerous_eq_nil_iff⟩

/-- Compatibility is decided by comparing. -/
instance (old new : Schema) : Decidable (Compatible old new) :=
  decidable_of_iff (breaking old new = []) breaking_eq_nil_iff

instance (old new : Schema) : Decidable (Unextended old new) :=
  decidable_of_iff (dangerous old new = []) dangerous_eq_nil_iff

/-! ## Repeated names -/

/-- The first element of each name, in order. -/
def firsts {α : Type} (name : α → String) (xs : List α) : List α :=
  xs.eraseDupsBy fun x y => name x == name y

def fieldsOnce (fs : List Field) : List Field :=
  (firsts Field.name fs).map fun f => { f with arguments := firsts InputValue.name f.arguments }

def bodyOnce : TypeBody → TypeBody
  | .object is fs => .object is (fieldsOnce fs)
  | .interface is fs => .interface is (fieldsOnce fs)
  | .input fs => .input (firsts InputValue.name fs)
  | b => b

/-- A schema in which a repeated field or argument stands for its first occurrence. -/
def schemaOnce (s : Schema) : Schema :=
  s.map fun d =>
    match d with
    | .type t => .type { t with body := bodyOnce t.body }
    | d => d

/-- A type whose only field has arguments. -/
def fieldWithArguments (arguments : List InputValue) : Schema :=
  [.type ⟨⟨1, 1⟩, none, "A", [],
    .object [] [⟨⟨1, 10⟩, none, "f", arguments, .named "Int", []⟩]⟩]

/-- Two arguments of one name, only the first of which can be left out. -/
def repeatedArgument : List InputValue :=
  [⟨⟨1, 12⟩, none, "a", .named "Int", none, []⟩,
   ⟨⟨1, 20⟩, none, "a", .nonNull (.named "Int"), none, []⟩]

/-- A repeated new argument counts with each occurrence, not with its first alone. -/
theorem repeated_argument_counts :
    ¬ (breaking (fieldWithArguments []) (fieldWithArguments repeatedArgument) = [] ↔
      Compatible (fieldWithArguments []) (schemaOnce (fieldWithArguments repeatedArgument))) := by
  have hreported : breaking (fieldWithArguments []) (fieldWithArguments repeatedArgument)
      = [.requiredArgAdded "A" "f" "a"] := by decide
  have hfirst : Compatible (fieldWithArguments [])
      (schemaOnce (fieldWithArguments repeatedArgument)) := by decide
  intro h
  have := h.mpr hfirst
  rw [hreported] at this
  cases this

end SchemaBridge.Changes
