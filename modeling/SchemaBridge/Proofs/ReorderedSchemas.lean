import Mathlib.Data.List.Perm.Basic
import SchemaBridge.Proofs.ComposedUpgrades
import SchemaBridge.Proofs.MirroredChanges
/-!
# Schemas in another order

Definitions, fields, arguments, input fields, values, members and interfaces may stand in any order:
if no name is given twice where the comparison looks for it, the same changes are reported, in
another order perhaps. Where an element stands in its source, how it is described and which
directives it has is left open, too.

Results:
* `Reordered.flatMap_perm`, `Reordered.filter`, `Reordered.find?`: lists in another order are gone
  through, filtered and searched alike.
* `inputs_perm`, `fieldsBreaking_perm`, `bodyBreaking_perm`: the parts of a type.
* `bodiesAlikeCases`: two bodies and their reorderings, case by case.
* `breaking_perm`, `dangerous_perm`: all changes between schemas.
* `Compatible.refl`, `Unextended.refl`: a schema that repeats no name is not changed by itself.
* `comparison_ignores_order`: reports do not depend on the order.
-/
namespace SchemaBridge.Changes

open Sdl (TypeBody TypeDef Field InputValue EnumValue Schema)

/-! ## Lists in another order -/

section
variable {α β : Type} {R : α → α → Prop} {name : α → String} {xs ys : List α}

/-- A list in another order, in which every element is related to the one it stands for. -/
def Reordered (R : α → α → Prop) (xs ys : List α) : Prop :=
  ∃ zs, xs.Perm zs ∧ List.Forall₂ R zs ys

theorem Reordered.of_perm (hR : ∀ x, R x x) (h : xs.Perm ys) : Reordered R xs ys :=
  ⟨ys, h, List.forall₂_same.mpr fun x _ => hR x⟩

theorem Reordered.swap {x y x' y' : α} (hx : R x x') (hy : R y y') :
    Reordered R [x, y] [y', x'] :=
  ⟨[y, x], .swap y x [], .cons hy (.cons hx .nil)⟩

theorem Reordered.flatMap_perm {f g : α → List β} (h : Reordered R xs ys)
    (hfg : ∀ x y, R x y → (f x).Perm (g y)) : (xs.flatMap f).Perm (ys.flatMap g) := by
  obtain ⟨zs, hperm, hzs⟩ := h
  refine (hperm.flatMap_right f).trans ?_
  clear hperm
  induction hzs with
  | nil => exact .nil
  | cons hxy _ ih =>
    rw [List.flatMap_cons, List.flatMap_cons]
    exact (hfg _ _ hxy).append ih

theorem Reordered.map_perm {f g : α → β} (h : Reordered R xs ys) (hfg : ∀ x y, R x y → f x = g y) :
    (xs.map f).Perm (ys.map g) := by
  rw [List.map_eq_flatMap, List.map_eq_flatMap]
  exact h.flatMap_perm fun x y hxy => by rw [hfg x y hxy]

theorem Reordered.filter {p q : α → Bool} (h : Reordered R xs ys)
    (hpq : ∀ x y, R x y → p x = q y) : Reordered R (xs.filter p) (ys.filter q) := by
  obtain ⟨zs, hperm, hzs⟩ := h
  refine ⟨zs.filter p, hperm.filter p, List.rel_filter ?_ hzs⟩
  intro x y hxy
  exact iff_of_eq (congrArg (· = true) (hpq x y hxy))

/-- If names differ, each element is the first of its name. -/
theorem firstOf_iff_mem (hn : (xs.map name).Nodup) {a : α} : FirstOf name xs a ↔ a ∈ xs := by
  constructor
  · exact FirstOf.mem
  · intro ha
    obtain ⟨before, after, rfl⟩ := List.append_of_mem ha
    refine ⟨before, after, rfl, ?_⟩
    intro b hb hname
    rw [List.map_append, List.nodup_append] at hn
    exact hn.2.2 (name b) (List.mem_map_of_mem hb) (name a) (by simp) hname

theorem find?_eq_some_iff_mem (hn : (xs.map name).Nodup) {key : String} {a : α} :
    xs.find? (fun x => name x = key) = some a ↔ a ∈ xs ∧ name a = key := by
  rw [find?_eq_some_iff_firstOf, firstOf_iff_mem hn]

/-- If names differ, what is found under a name does not depend on the order. -/
theorem find?_perm (hn : (xs.map name).Nodup) (h : xs.Perm ys) (key : String) :
    xs.find? (fun x => name x = key) = ys.find? fun x => name x = key := by
  have hn' : (ys.map name).Nodup := (h.map name).nodup_iff.mp hn
  apply Option.ext
  intro a
  rw [find?_eq_some_iff_mem hn, find?_eq_some_iff_mem hn', h.mem_iff]

theorem Reordered.find? (h : Reordered R xs ys) (hR : ∀ x y, R x y → name x = name y)
    (hn : (xs.map name).Nodup) (key : String) :
    Option.Rel R (xs.find? fun x => name x = key) (ys.find? fun x => name x = key) := by
  obtain ⟨zs, hperm, hzs⟩ := h
  rw [find?_perm hn hperm]
  clear hperm
  induction hzs with
  | nil => exact .none
  | @cons x y _ _ hxy _ ih =>
    rw [List.find?_cons, List.find?_cons, hR x y hxy]
    split
    · exact .some hxy
    · exact ih

end

/-! ## Reordered schemas -/

/-- An argument or input field of the same name and type, both with a default value or both without. -/
structure InputAlike (u v : InputValue) : Prop where
  name : u.name = v.name
  type : u.type = v.type
  default : u.default.isSome = v.default.isSome

/-- A field of the same name and type, with its arguments in any order. -/
structure FieldAlike (f g : Field) : Prop where
  name : f.name = g.name
  type : f.type = g.type
  arguments : Reordered InputAlike f.arguments g.arguments

/-- A body of the same form, with everything in it in any order. -/
def BodyAlike : (b b' : TypeBody) → Prop :=
  SameForm List.Perm (Reordered FieldAlike) (Reordered InputAlike)

/-- A type of the same name, with everything in it in any order. -/
structure TypeAlike (t u : TypeDef) : Prop where
  name : t.name = u.name
  body : BodyAlike t.body u.body

/-- A schema with its types, and everything in them, in any order. Other definitions are not compared,
and may be others. -/
def SchemaReordered (s s' : Schema) : Prop := Reordered TypeAlike (types s) (types s')

/-- Types have different names, and so have the fields, the arguments and the input fields of one
owner. -/
structure Unambiguous (s : Schema) : Prop where
  types : ((types s).map TypeDef.name).Nodup
  fields : WithoutRepeatedFields s
  inputs : WithoutRepeats s

theorem InputAlike.refl (u : InputValue) : InputAlike u u := ⟨rfl, rfl, rfl⟩

theorem FieldAlike.refl (f : Field) : FieldAlike f f := ⟨rfl, rfl, .of_perm InputAlike.refl (.refl _)⟩

theorem TypeAlike.refl (t : TypeDef) : TypeAlike t t := by
  refine ⟨rfl, ?_⟩
  cases t.body with
  | scalar => exact .scalar
  | object is fs => exact .object (.refl _) (.of_perm FieldAlike.refl (.refl _))
  | interface is fs => exact .interface (.refl _) (.of_perm FieldAlike.refl (.refl _))
  | union ms => exact .union (.refl _)
  | enum vs => exact .enum (.refl _)
  | input fs => exact .input (.of_perm InputAlike.refl (.refl _))

/-- Definitions in another order make a reordered schema. -/
theorem SchemaReordered.of_perm {s s' : Schema} (h : s.Perm s') : SchemaReordered s s' :=
  Reordered.of_perm TypeAlike.refl (h.filterMap _)

/-! ## Arguments and input fields -/

theorem removed_perm {old old' new new' : List String} (h : old.Perm old') (h' : new.Perm new') :
    (removed old new).Perm (removed old' new') := by
  simp only [removed, h'.mem_iff]
  exact h.filter _

section
variable {α : Type} {old old' new new' : List InputValue}

theorem InputAlike.isRequired_eq {u v : InputValue} (h : InputAlike u v) :
    isRequired u = isRequired v := by
  rw [isRequired, isRequired, h.type, ← Option.not_isSome, h.default, Option.not_isSome]

theorem newInputs_reordered (h : Reordered InputAlike old old') (h' : Reordered InputAlike new new') :
    Reordered InputAlike (newInputs old new) (newInputs old' new') := by
  have hnames : (old.map InputValue.name).Perm (old'.map InputValue.name) :=
    h.map_perm fun _ _ huv => huv.name
  refine h'.filter fun u v huv => ?_
  simp only [huv.name, hnames.mem_iff]

theorem findInput_reordered (h : Reordered InputAlike new new') (hn : (new.map InputValue.name).Nodup)
    (name : String) : Option.Rel InputAlike (findInput new name) (findInput new' name) :=
  h.find? (fun _ _ huv => huv.name) hn name

/-- Of the new inputs that pass the same test, the same is reported. -/
theorem newInputs_map_perm {p : InputValue → Bool} {report : InputValue → α}
    (hp : ∀ u v, InputAlike u v → p u = p v) (hreport : ∀ u v, InputAlike u v → report u = report v)
    (h : Reordered InputAlike old old') (h' : Reordered InputAlike new new') :
    (((newInputs old new).filter p).map report).Perm (((newInputs old' new').filter p).map report) :=
  ((newInputs_reordered h h').filter hp).map_perm hreport

/-- Arguments and input fields are compared alike, only what is reported of them differs. -/
theorem inputs_perm {lost : InputValue → Option InputValue → List α} {required : InputValue → α}
    (hlost : ∀ u u' found found', InputAlike u u' → Option.Rel InputAlike found found' →
      lost u found = lost u' found')
    (hrequired : ∀ u v, InputAlike u v → required u = required v)
    (h : Reordered InputAlike old old') (h' : Reordered InputAlike new new')
    (hn : (new.map InputValue.name).Nodup) :
    (old.flatMap (fun u => lost u (findInput new u.name))
        ++ ((newInputs old new).filter isRequired).map required).Perm
      (old'.flatMap (fun u => lost u (findInput new' u.name))
        ++ ((newInputs old' new').filter isRequired).map required) := by
  refine List.Perm.append (h.flatMap_perm fun u u' hu => ?_)
    (newInputs_map_perm (fun _ _ => InputAlike.isRequired_eq) hrequired h h')
  have hfound := findInput_reordered h' hn u'.name
  rw [hu.name, hlost u u' _ _ hu hfound]

end

section
variable (owner : String)

theorem argsBreaking_perm (field : String) {old old' new new' : List InputValue}
    (h : Reordered InputAlike old old') (h' : Reordered InputAlike new new')
    (hn : (new.map InputValue.name).Nodup) :
    (argsBreaking owner field old new).Perm (argsBreaking owner field old' new') := by
  refine inputs_perm ?_ (fun u v huv => by rw [huv.name]) h h' hn
  intro u u' found found' hu hfound
  cases hfound with
  | none => rw [argBreaking, argBreaking, hu.name]
  | some hv => rw [argBreaking, argBreaking, hu.name, hu.type, hv.type]

theorem inputFieldsBreaking_perm {old old' new new' : List InputValue}
    (h : Reordered InputAlike old old') (h' : Reordered InputAlike new new')
    (hn : (new.map InputValue.name).Nodup) :
    (inputFieldsBreaking owner old new).Perm (inputFieldsBreaking owner old' new') := by
  refine inputs_perm ?_ (fun u v huv => by rw [huv.name]) h h' hn
  intro u u' found found' hu hfound
  cases hfound with
  | none => rw [inputFieldBreaking, inputFieldBreaking, hu.name]
  | some hv => rw [inputFieldBreaking, inputFieldBreaking, hu.name, hu.type, hv.type]

/-! ## Fields -/

theorem findField_reordered {fs gs : List Field} (h : Reordered FieldAlike fs gs)
    (hn : (fs.map Field.name).Nodup) (name : String) :
    Option.Rel FieldAlike (findField fs name) (findField gs name) :=
  h.find? (fun _ _ hfg => hfg.name) hn name

theorem mem_of_findField {fs : List Field} {f : Field} {name : String}
    (h : findField fs name = some f) : f ∈ fs :=
  List.mem_of_find?_eq_some h

theorem fieldBreaking_perm {f f' : Field} {found found' : Option Field} (h : FieldAlike f f')
    (hfound : Option.Rel FieldAlike found found')
    (hn : ∀ g, found = some g → (g.arguments.map InputValue.name).Nodup) :
    (fieldBreaking owner f found).Perm (fieldBreaking owner f' found') := by
  cases hfound with
  | none => rw [fieldBreaking, fieldBreaking, h.name]
  | some hg =>
    rw [fieldBreaking, fieldBreaking, h.name, h.type, hg.type]
    exact (argsBreaking_perm owner f'.name h.arguments hg.arguments (hn _ rfl)).append_right _

theorem fieldDangerous_perm {f f' : Field} {found found' : Option Field} (h : FieldAlike f f')
    (hfound : Option.Rel FieldAlike found found') :
    (fieldDangerous owner f found).Perm (fieldDangerous owner f' found') := by
  cases hfound with
  | none => exact .nil
  | some hg =>
    rw [fieldDangerous, fieldDangerous, h.name]
    refine newInputs_map_perm (fun u v huv => ?_) (fun u v huv => ?_) h.arguments hg.arguments
    · rw [huv.isRequired_eq]
    · rw [huv.name]

section
variable {old old' new new' : List Field} (h : Reordered FieldAlike old old')
  (h' : Reordered FieldAlike new new') (hn : (new.map Field.name).Nodup)

include h h' hn

theorem fieldsBreaking_perm (hargs : ∀ g ∈ new, (g.arguments.map InputValue.name).Nodup) :
    (fieldsBreaking owner old new).Perm (fieldsBreaking owner old' new') := by
  refine h.flatMap_perm fun f f' hf => ?_
  have hfound := findField_reordered h' hn f'.name
  rw [hf.name]
  exact fieldBreaking_perm owner hf hfound fun g hg => hargs g (mem_of_findField hg)

theorem fieldsDangerous_perm :
    (fieldsDangerous owner old new).Perm (fieldsDangerous owner old' new') := by
  refine h.flatMap_perm fun f f' hf => ?_
  have hfound := findField_reordered h' hn f'.name
  rw [hf.name]
  exact fieldDangerous_perm owner hf hfound

end

/-! ## Bodies -/

section
variable {is is' js js' : List String} {old old' new new' : List Field} (his : is.Perm is')
  (hjs : js.Perm js') (h : Reordered FieldAlike old old') (h' : Reordered FieldAlike new new')
  (hn : (new.map Field.name).Nodup)

include his hjs h h' hn

theorem implementerBreaking_perm (hargs : ∀ g ∈ new, (g.arguments.map InputValue.name).Nodup) :
    (fieldsBreaking owner old new ++ interfacesBreaking owner is js).Perm
      (fieldsBreaking owner old' new' ++ interfacesBreaking owner is' js') :=
  (fieldsBreaking_perm owner h h' hn hargs).append ((removed_perm his hjs).map _)

theorem implementerDangerous_perm :
    (fieldsDangerous owner old new ++ interfacesDangerous owner is js).Perm
      (fieldsDangerous owner old' new' ++ interfacesDangerous owner is' js') :=
  (fieldsDangerous_perm owner h h' hn).append ((removed_perm hjs his).map _)

end

/-- Two bodies of one form are reordered into two of that form, and others into others. -/
@[elab_as_elim]
theorem bodiesAlikeCases {motive : (old new old' new' : TypeBody) → Prop}
    (scalar : motive .scalar .scalar .scalar .scalar)
    (object : ∀ is js is' js' fs gs fs' gs', is.Perm is' → js.Perm js' →
      Reordered FieldAlike fs fs' → Reordered FieldAlike gs gs' →
      motive (.object is fs) (.object js gs) (.object is' fs') (.object js' gs'))
    (interface : ∀ is js is' js' fs gs fs' gs', is.Perm is' → js.Perm js' →
      Reordered FieldAlike fs fs' → Reordered FieldAlike gs gs' →
      motive (.interface is fs) (.interface js gs) (.interface is' fs') (.interface js' gs'))
    (union : ∀ ms ns ms' ns', ms.Perm ms' → ns.Perm ns' →
      motive (.union ms) (.union ns) (.union ms') (.union ns'))
    (enum : ∀ vs ws vs' ws', (vs.map EnumValue.name).Perm (vs'.map EnumValue.name) →
      (ws.map EnumValue.name).Perm (ws'.map EnumValue.name) →
      motive (.enum vs) (.enum ws) (.enum vs') (.enum ws'))
    (input : ∀ fs gs fs' gs', Reordered InputAlike fs fs' → Reordered InputAlike gs gs' →
      motive (.input fs) (.input gs) (.input fs') (.input gs'))
    (differ : ∀ old new old' new', old.form ≠ new.form → old.form = old'.form →
      new.form = new'.form → motive old new old' new')
    {old new old' new' : TypeBody} (h : BodyAlike old old') (h' : BodyAlike new new') :
    motive old new old' new' := by
  by_cases hform : old.form = new.form
  · cases h with
    | scalar =>
      cases h' with
      | scalar => exact scalar
      | _ => cases hform
    | object his hfs =>
      cases h' with
      | object hjs hgs => exact object _ _ _ _ _ _ _ _ his hjs hfs hgs
      | _ => cases hform
    | interface his hfs =>
      cases h' with
      | interface hjs hgs => exact interface _ _ _ _ _ _ _ _ his hjs hfs hgs
      | _ => cases hform
    | union hms =>
      cases h' with
      | union hns => exact union _ _ _ _ hms hns
      | _ => cases hform
    | enum hvs =>
      cases h' with
      | enum hws => exact enum _ _ _ _ hvs hws
      | _ => cases hform
    | input hfs =>
      cases h' with
      | input hgs => exact input _ _ _ _ hfs hgs
      | _ => cases hform
  · exact differ _ _ _ _ hform h.form_eq h'.form_eq

section
variable {old old' new' : TypeBody} {u : TypeDef} (h : BodyAlike old old')
  (h' : BodyAlike u.body new') (hfields : (u.fields.map Field.name).Nodup)

include h h' hfields

theorem bodyBreaking_perm (hinputs : ∀ vs ∈ inputLists u.body, (vs.map InputValue.name).Nodup) :
    (bodyBreaking owner old u.body).Perm (bodyBreaking owner old' new') := by
  obtain ⟨_, _, _, _, new⟩ := u
  change BodyAlike new new' at h'
  revert hfields hinputs
  refine bodiesAlikeCases ?scalar ?object ?interface ?union ?enum ?input ?differ h h'
  case scalar => exact fun _ _ => .nil
  case object | interface =>
    intro is js is' js' fs gs fs' gs' his hjs hfs hgs hfields hinputs
    exact implementerBreaking_perm owner his hjs hfs hgs hfields
      fun g hg => hinputs _ (List.mem_map_of_mem hg)
  case union => exact fun ms ns ms' ns' hms hns _ _ => (removed_perm hms hns).map _
  case enum => exact fun vs ws vs' ws' hvs hws _ _ => (removed_perm hvs hws).map _
  case input =>
    intro fs gs fs' gs' hfs hgs _ hinputs
    exact inputFieldsBreaking_perm owner hfs hgs (hinputs _ (List.mem_singleton_self _))
  case differ =>
    intro old new old' new' hform hold hnew _ _
    rw [bodyBreaking_of_form_ne owner hform,
      bodyBreaking_of_form_ne owner (by rwa [← hold, ← hnew]), hold, hnew]

theorem bodyDangerous_perm :
    (bodyDangerous owner old u.body).Perm (bodyDangerous owner old' new') := by
  obtain ⟨_, _, _, _, new⟩ := u
  change BodyAlike new new' at h'
  revert hfields
  refine bodiesAlikeCases ?scalar ?object ?interface ?union ?enum ?input ?differ h h'
  case scalar => exact fun _ => .nil
  case object | interface =>
    intro is js is' js' fs gs fs' gs' his hjs hfs hgs hfields
    exact implementerDangerous_perm owner his hjs hfs hgs hfields
  case union => exact fun ms ns ms' ns' hms hns _ => (removed_perm hns hms).map _
  case enum => exact fun vs ws vs' ws' hvs hws _ => (removed_perm hws hvs).map _
  case input =>
    intro fs gs fs' gs' hfs hgs _
    refine newInputs_map_perm (fun u v huv => ?_) (fun u v huv => ?_) hfs hgs
    · rw [huv.isRequired_eq]
    · rw [huv.name]
  case differ =>
    intro old new old' new' hform hold hnew _
    rw [bodyDangerous_of_form_ne owner hform,
      bodyDangerous_of_form_ne owner (by rwa [← hold, ← hnew])]

end

end

/-! ## Schemas -/

section
variable {s : Schema}

/-- If types have different names, all of them are compared, as they stand. -/
theorem typeDefs_of_nodup (h : ((types s).map TypeDef.name).Nodup) :
    typeDefs s = (types s).map fun t => (t.name, t) := by
  rw [typeDefs_eq]
  apply Keyed.ofEntries_of_nodup
  rwa [Keyed.keys, List.map_map]

theorem lookup?_typeDefs_of_nodup (h : ((types s).map TypeDef.name).Nodup) (name : String) :
    (typeDefs s).lookup? name = (types s).find? fun t => t.name = name := by
  rw [typeDefs_of_nodup h, Keyed.lookup?_eq_find?, List.find?_map, Option.map_map]
  exact Option.map_id'

end

section
variable {old old' new new' : Schema}

theorem SchemaReordered.types_nodup (h : SchemaReordered old old')
    (hn : ((types old).map TypeDef.name).Nodup) : ((types old').map TypeDef.name).Nodup :=
  (h.map_perm fun _ _ ht => ht.name).nodup_iff.mp hn

/-- Where types have different names, what is said of the types by their names is said of the
schemas. -/
theorem perm_of_types {α : Type} {report : String → TypeDef → Option TypeDef → List α}
    (hold : ((types old).map TypeDef.name).Nodup) (hnew : ((types new).map TypeDef.name).Nodup)
    (h : SchemaReordered old old') (h' : SchemaReordered new new')
    (hreport : ∀ t t' found found', TypeAlike t t' → Option.Rel TypeAlike found found' →
      (∀ u ∈ found, u ∈ types new) → (report t.name t found).Perm (report t'.name t' found')) :
    ((typeDefs old).flatMap fun t => report t.1 t.2 ((typeDefs new).lookup? t.1)).Perm
      ((typeDefs old').flatMap fun t => report t.1 t.2 ((typeDefs new').lookup? t.1)) := by
  rw [typeDefs_of_nodup hold, typeDefs_of_nodup (h.types_nodup hold), List.flatMap_map,
    List.flatMap_map]
  refine h.flatMap_perm fun t t' ht => ?_
  rw [lookup?_typeDefs_of_nodup hnew, lookup?_typeDefs_of_nodup (h'.types_nodup hnew)]
  refine hreport t t' _ _ ht ?_ fun u hu => List.mem_of_find?_eq_some hu
  rw [ht.name]
  exact h'.find? (fun _ _ hu => hu.name) hnew t'.name

theorem breaking_perm (hold : Unambiguous old) (hnew : Unambiguous new)
    (h : SchemaReordered old old') (h' : SchemaReordered new new') :
    (breaking old new).Perm (breaking old' new') := by
  refine perm_of_types hold.types hnew.types h h' ?_
  intro t t' found found' ht hfound hmem
  rw [ht.name]
  cases hfound with
  | none => exact .refl _
  | some hu =>
    have hu' := hmem _ rfl
    exact bodyBreaking_perm t'.name ht.body hu.body (hnew.fields _ hu') (hnew.inputs _ hu')

theorem dangerous_perm (hold : Unambiguous old) (hnew : Unambiguous new)
    (h : SchemaReordered old old') (h' : SchemaReordered new new') :
    (dangerous old new).Perm (dangerous old' new') := by
  refine perm_of_types hold.types hnew.types h h' ?_
  intro t t' found found' ht hfound hmem
  rw [ht.name]
  cases hfound with
  | none => exact .refl _
  | some hu => exact bodyDangerous_perm t'.name ht.body hu.body (hnew.fields _ (hmem _ rfl))

end

/-! ## A schema and itself -/

theorem InputsCompatible.refl {vs : List InputValue} (hn : (vs.map InputValue.name).Nodup) :
    InputsCompatible vs vs where
  kept u hu := ⟨u, (firstOf_iff_mem hn).mpr hu, rfl, safeInput_refl u.type⟩
  omittable v hv hnew := absurd rfl (hnew v hv)

theorem InputsUnextended.refl (vs : List InputValue) : InputsUnextended vs vs :=
  fun v hv hnew => absurd rfl (hnew v hv)

theorem FieldsCompatible.refl {fs : List Field} (hn : (fs.map Field.name).Nodup)
    (hargs : ∀ f ∈ fs, (f.arguments.map InputValue.name).Nodup) : FieldsCompatible fs fs :=
  fun f hf => ⟨f, (firstOf_iff_mem hn).mpr hf, rfl, safeOutput_refl f.type, .refl (hargs f hf)⟩

theorem FieldsUnextended.refl {fs : List Field} (hn : (fs.map Field.name).Nodup) :
    FieldsUnextended fs fs := by
  intro f hf g hg hname
  obtain rfl : g = f := List.inj_on_of_nodup_map hn hg.mem hf hname
  exact .refl g.arguments

theorem BodyCompatible.refl {t : TypeDef} (hfields : (t.fields.map Field.name).Nodup)
    (hinputs : ∀ vs ∈ inputLists t.body, (vs.map InputValue.name).Nodup) :
    BodyCompatible t.body t.body := by
  obtain ⟨_, _, _, _, b⟩ := t
  cases b with
  | scalar => exact .scalar
  | object is fs =>
    exact .object (List.Subset.refl is)
      (.refl hfields fun f hf => hinputs _ (List.mem_map_of_mem hf))
  | interface is fs =>
    exact .interface (List.Subset.refl is)
      (.refl hfields fun f hf => hinputs _ (List.mem_map_of_mem hf))
  | union ms => exact .union (List.Subset.refl ms)
  | enum vs => exact .enum (List.Subset.refl _)
  | input fs => exact .input (.refl (hinputs _ (List.mem_singleton_self _)))

theorem BodyUnextended.refl {t : TypeDef} (hfields : (t.fields.map Field.name).Nodup) :
    BodyUnextended t.body t.body := by
  obtain ⟨_, _, _, _, b⟩ := t
  cases b with
  | scalar => exact .scalar
  | object is fs => exact .object (List.Subset.refl is) (.refl hfields)
  | interface is fs => exact .interface (List.Subset.refl is) (.refl hfields)
  | union ms => exact .union (List.Subset.refl ms)
  | enum vs => exact .enum (List.Subset.refl _)
  | input fs => exact .input (.refl fs)

/-- A schema is compatible with itself if no name in it has two meanings. -/
theorem Compatible.refl {s : Schema} (h : Unambiguous s) : Compatible s s :=
  fun t ht => ⟨t, ht, rfl, .refl (h.fields t ht.mem) (h.inputs t ht.mem)⟩

theorem Unextended.refl {s : Schema} (h : Unambiguous s) : Unextended s s := by
  intro t u ht hu hname _
  obtain rfl : u = t := List.inj_on_of_nodup_map h.types hu.mem ht.mem hname
  exact .refl (h.fields u hu.mem)

/-- **Comparing schemas ignores order**: if no name is given twice, then the same changes are
reported for reordered schemas, and none between a schema and a reordering of it, such as itself. -/
theorem comparison_ignores_order :
    (∀ {old old' new new' : Schema}, Unambiguous old → Unambiguous new → SchemaReordered old old' →
      SchemaReordered new new' → (breaking old new).Perm (breaking old' new') ∧
        (dangerous old new).Perm (dangerous old' new')) ∧
    ∀ {s s' : Schema}, Unambiguous s → s' = s ∨ SchemaReordered s s' →
      breaking s s' = [] ∧ dangerous s s' = [] := by
  refine ⟨fun hold hnew h h' => ⟨breaking_perm hold hnew h h', dangerous_perm hold hnew h h'⟩, ?_⟩
  intro s s' hs h
  have hrefl : SchemaReordered s s := .of_perm (.refl s)
  have hs' : SchemaReordered s s' := by
    rcases h with rfl | h
    · exact hrefl
    · exact h
  have hbreaking : breaking s s = [] := breaking_eq_nil_iff.mpr (.refl hs)
  have hdangerous : dangerous s s = [] := dangerous_eq_nil_iff.mpr (.refl hs)
  refine ⟨?_, ?_⟩
  · have hperm := breaking_perm hs hs hrefl hs'
    rw [hbreaking] at hperm
    exact hperm.nil_eq.symm
  · have hperm := dangerous_perm hs hs hrefl hs'
    rw [hdangerous] at hperm
    exact hperm.nil_eq.symm

/-- Two schemas, each written in two orders, that have only the names of their types and of the field
`find` in common: the reports list the same changes, in different orders. -/
theorem comparison_ignores_order_allSwapped :
    let find := [requiredInput "id", optionalInput "skip"]
    let old := schemaOf [("find", find), ("all", [])] [requiredInput "from", optionalInput "to"]
      ["RED", "GREEN"]
    let old' := (schemaOf [("all", []), ("find", find.reverse)]
      [optionalInput "to", requiredInput "from"] ["GREEN", "RED"]).reverse
    let look := [requiredInput "key", optionalInput "lang"]
    let new := schemaOf [("find", look), ("any", [])] [requiredInput "by", optionalInput "of"]
      ["BLUE", "WHITE"]
    let new' := (schemaOf [("any", []), ("find", look.reverse)]
      [optionalInput "of", requiredInput "by"] ["WHITE", "BLUE"]).reverse
    Unambiguous old ∧ Unambiguous new ∧ SchemaReordered old old' ∧ SchemaReordered new new' ∧
      (breaking old new).length = 9 ∧ breaking old new ≠ breaking old' new' ∧
      (breaking old new).Perm (breaking old' new') ∧
      (dangerous old new).Perm (dangerous old' new') ∧
      breaking old old' = [] ∧ dangerous old old' = [] := by
  intro find old old' look new new'
  have hold : Unambiguous old := ⟨by decide, by decide, by decide⟩
  have hnew : Unambiguous new := ⟨by decide, by decide, by decide⟩
  have hreordered : SchemaReordered old old' :=
    ⟨(types old).reverse, (List.reverse_perm _).symm,
      .cons ⟨rfl, .enum (.swap ..)⟩ <| .cons ⟨rfl, .input (.swap (.refl _) (.refl _))⟩ <|
      .cons ⟨rfl, .object (.refl _) (.swap ⟨rfl, rfl, .swap (.refl _) (.refl _)⟩ (.refl _))⟩ .nil⟩
  have hreordered' : SchemaReordered new new' :=
    ⟨(types new).reverse, (List.reverse_perm _).symm,
      .cons ⟨rfl, .enum (.swap ..)⟩ <| .cons ⟨rfl, .input (.swap (.refl _) (.refl _))⟩ <|
      .cons ⟨rfl, .object (.refl _) (.swap ⟨rfl, rfl, .swap (.refl _) (.refl _)⟩ (.refl _))⟩ .nil⟩
  obtain ⟨hbreaking, hdangerous⟩ := comparison_ignores_order.1 hold hnew hreordered hreordered'
  obtain ⟨hnone, hnone'⟩ := comparison_ignores_order.2 hold (.inr hreordered)
  exact ⟨hold, hnew, hreordered, hreordered', by decide, by decide, hbreaking, hdangerous, hnone,
    hnone'⟩

end SchemaBridge.Changes
