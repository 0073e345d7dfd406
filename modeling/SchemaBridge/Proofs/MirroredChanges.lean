import Mathlib.Data.Multiset.Filter
import SchemaBridge.Proofs.ChangedItems
/-!
# Additions and removals

What is removed on the way from one schema to another is added on the way back. Values, members and
interfaces are compared by their names alone, so that each removal is an addition of the same name.
For an argument or input field the way back tells required ones, which break requests, from optional
ones, which are only dangerous; the two together are the removals. Arguments belong to a field, and
fields are matched with the first of their name, which is the same match on the way back only if no
name comes twice.

Results:
* `matched_swap`: if names differ, matching by name does not depend on the side to start from.
* `items_removed`: names that are removed and names that are added.
* `items_lost`, `items_came`: inputs that are not there again, and inputs that were not there before.
* `names_mirrored`, `bodyArgs_mirrored`, `bodyInputs_mirrored`: bodies of a type.
* `items_breaking`, `items_dangerous`: the changes between two schemas, type by type.
* `removals_mirror_additions`: removals and additions between two schemas.
-/
namespace SchemaBridge.Changes

open Sdl (Form TypeBody TypeDef Field InputValue Schema)

/-! ## Matching by name -/

section
variable {γ β : Type} {name : γ → String} {xs ys : List γ}

/-- Every element of a list with the first of its name in another. -/
def matched (name : γ → String) (xs ys : List γ) : Multiset (γ × γ) :=
  (xs : Multiset γ).bind fun x => (ys.find? fun y => name y = name x).elim 0 fun y => {(x, y)}

theorem bind_matched (f : γ × γ → Multiset β) :
    (matched name xs ys).bind f
      = (xs : Multiset γ).bind fun x =>
          (ys.find? fun y => name y = name x).elim 0 fun y => f (x, y) := by
  rw [matched, Multiset.bind_assoc]
  apply Multiset.bind_congr
  intro x _
  cases ys.find? fun y => name y = name x with
  | none => rfl
  | some y => exact Multiset.singleton_bind _ _

theorem of_mem_matched {p : γ × γ} (h : p ∈ matched name xs ys) :
    p.1 ∈ xs ∧ p.2 ∈ ys ∧ name p.2 = name p.1 := by
  obtain ⟨x, hx, hp⟩ := Multiset.mem_bind.mp h
  cases hfound : ys.find? fun y => name y = name x with
  | none =>
    rw [hfound] at hp
    exact absurd hp (Multiset.notMem_zero p)
  | some y =>
    rw [hfound] at hp
    obtain rfl : p = (x, y) := Multiset.mem_singleton.mp hp
    exact ⟨hx, List.mem_of_find?_eq_some hfound, by simpa using List.find?_some hfound⟩

theorem elim_find?_eq_bind (hy : (ys.map name).Nodup) (key : String) (f : γ → Multiset β) :
    (ys.find? fun y => name y = key).elim 0 f
      = (ys : Multiset γ).bind fun y => if name y = key then f y else 0 := by
  induction ys with
  | nil => rfl
  | cons y ys ih =>
    obtain ⟨hnot, hys⟩ := List.nodup_cons.mp hy
    rw [← Multiset.cons_coe, Multiset.cons_bind, ← ih hys]
    by_cases hkey : name y = key
    · have hnone : ys.find? (fun y => name y = key) = none := by
        simp only [List.find?_eq_none, decide_eq_true_eq]
        intro z hz heq
        exact hnot (hkey ▸ heq ▸ List.mem_map_of_mem hz)
      simp [hkey, hnone]
    · simp [hkey]

/-- If names differ on both sides, it does not matter from which side they are matched. -/
theorem matched_swap (hx : (xs.map name).Nodup) (hy : (ys.map name).Nodup) :
    (matched name xs ys).map Prod.swap = matched name ys xs := by
  -- Where a name comes once, to find it is to go through all elements; the two passes commute.
  simp only [matched, elim_find?_eq_bind hx, elim_find?_eq_bind hy, Multiset.map_bind]
  rw [Multiset.bind_bind]
  apply Multiset.bind_congr
  intro y _
  apply Multiset.bind_congr
  intro x _
  by_cases hname : name x = name y
  · simp [hname]
  · simp [hname, Ne.symm hname]

/-- What is said of matched elements in the one direction and in the other. -/
theorem bind_matched_comm (hx : (xs.map name).Nodup) (hy : (ys.map name).Nodup)
    {f g : γ × γ → Multiset β}
    (hfg : ∀ x ∈ xs, ∀ y ∈ ys, name y = name x → f (x, y) = g (y, x)) :
    (matched name xs ys).bind f = (matched name ys xs).bind g := by
  rw [← matched_swap hx hy, Multiset.bind_map]
  apply Multiset.bind_congr
  rintro ⟨x, y⟩ hp
  obtain ⟨hx, hy, hname⟩ := of_mem_matched hp
  exact hfg x hx y hy hname

end

/-! ## Names -/

/-- The codes of a removal and of an addition of what a type lists by its name alone. -/
inductive Counterpart : (removal addition : String) → Prop
  | value : Counterpart "VALUE_REMOVED_FROM_ENUM" "VALUE_ADDED_TO_ENUM"
  | member : Counterpart "TYPE_REMOVED_FROM_UNION" "TYPE_ADDED_TO_UNION"
  | interface : Counterpart "INTERFACE_REMOVED_FROM_OBJECT" "INTERFACE_ADDED_TO_OBJECT"

theorem Counterpart.unique {c d c' d' : String} (h : Counterpart c d) (h' : Counterpart c' d') :
    c' = c ↔ d' = d := by
  cases h <;> cases h' <;> decide

section
variable {α β : Type} [Change α] [Change β]

/-- What is removed under one code is added under its counterpart, and under no other. -/
theorem items_removed {c d c' d' : String} {mk : String → α} {mk' : String → β}
    (h : Counterpart c d) (h' : Counterpart c' d') (hcode : ∀ x, Change.code (mk x) = c')
    (hcode' : ∀ x, Change.code (mk' x) = d')
    (hitem : ∀ x, Change.item (mk x) = Change.item (mk' x)) (old new : List String) :
    items c ((removed old new).map mk) = items d ((added new old).map mk') := by
  rw [items_map hcode, items_map hcode', funext hitem, added]
  simp only [h.unique h']

end

/-! ## Arguments and input fields -/

section
variable {α β : Type} [Change α] [Change β] {c d e : String} {place : InputValue → Item}

/-- The old inputs that are not found again are the new ones of the way back. -/
theorem items_lost {lost : InputValue → Option InputValue → List α}
    (hnone : ∀ u, items c (lost u none) = {place u})
    (hsome : ∀ u v, items c (lost u (some v)) = 0) (old new : List InputValue) :
    items c (old.flatMap fun u => lost u (findInput new u.name))
      = ↑((newInputs new old).map place) := by
  rw [newInputs]
  induction old with
  | nil => rfl
  | cons u old ih =>
    rw [List.flatMap_cons, items_append, ih]
    cases hfound : findInput new u.name with
    | none =>
      have hnew := findInput_eq_none_iff.mp hfound
      rw [hnone, List.filter_cons_of_pos (by simpa using hnew), List.map_cons,
        ← Multiset.cons_coe, Multiset.singleton_add]
    | some v =>
      have hnew : ¬ u.name ∉ new.map InputValue.name := by
        rw [← findInput_eq_none_iff, hfound]
        exact Option.some_ne_none v
      rw [hsome, zero_add, List.filter_cons_of_neg (by simpa using hnew)]

/-- New inputs are required or optional. -/
theorem items_came {mk : InputValue → α} {mk' : InputValue → β}
    (hcode : ∀ v, Change.code (mk v) = d) (hcode' : ∀ v, Change.code (mk' v) = e)
    (hitem : ∀ v, Change.item (mk v) = place v) (hitem' : ∀ v, Change.item (mk' v) = place v)
    (vs : List InputValue) :
    items d ((vs.filter isRequired).map mk)
        + items e ((vs.filter fun v => !isRequired v).map mk') = ↑(vs.map place) := by
  rw [items_map hcode, items_map hcode', if_pos rfl, if_pos rfl, funext hitem, funext hitem',
    Multiset.coe_add, ← List.map_append, Multiset.coe_eq_coe]
  exact (List.filter_append_perm isRequired vs).map place

/-- Arguments and input fields are compared alike, only what is reported of them differs. -/
theorem inputs_mirrored {lost : InputValue → Option InputValue → List α} {mk : InputValue → α}
    {mk' : InputValue → β} (place : InputValue → Item) (hne : d ≠ c)
    (hnone : ∀ u, items c (lost u none) = {place u})
    (hsome : ∀ u v, items c (lost u (some v)) = 0) (hlost : ∀ u found, items d (lost u found) = 0)
    (hcode : ∀ v, Change.code (mk v) = d) (hcode' : ∀ v, Change.code (mk' v) = e)
    (hitem : ∀ v, Change.item (mk v) = place v) (hitem' : ∀ v, Change.item (mk' v) = place v)
    (old new : List InputValue) :
    items c (old.flatMap (fun u => lost u (findInput new u.name))
        ++ ((newInputs old new).filter isRequired).map mk)
      = items d (new.flatMap (fun u => lost u (findInput old u.name))
          ++ ((newInputs new old).filter isRequired).map mk)
        + items e (((newInputs new old).filter fun v => !isRequired v).map mk') := by
  have hrequired : items c (((newInputs old new).filter isRequired).map mk) = 0 := by
    rw [items_map hcode, if_neg hne]
  have hnot : items d (new.flatMap fun u => lost u (findInput old u.name)) = 0 := by
    simp only [items_flatMap, hlost, Multiset.bind_zero]
  rw [items_append, items_append, items_lost hnone hsome, hrequired, hnot, add_zero, zero_add,
    items_came hcode hcode' hitem hitem']

end

section
variable (owner field : String)

theorem args_mirrored (old new : List InputValue) :
    items "ARG_REMOVED" (argsBreaking owner field old new)
      = items "REQUIRED_ARG_ADDED" (argsBreaking owner field new old)
        + items "OPTIONAL_ARG_ADDED" (argsDangerous owner field new old) := by
  apply inputs_mirrored (fun a => (owner, [field, a.name])) (by decide)
  case hnone | hcode | hcode' | hitem | hitem' => exact fun _ => rfl
  case hsome =>
    intro u v
    rw [argBreaking]
    split <;> rfl
  case hlost =>
    exact fun u found => (about_argBreaking owner field u found).items_eq_zero (by decide)

theorem inputFields_mirrored (old new : List InputValue) :
    items "FIELD_REMOVED" (inputFieldsBreaking owner old new)
      = items "REQUIRED_INPUT_FIELD_ADDED" (inputFieldsBreaking owner new old)
        + items "OPTIONAL_INPUT_FIELD_ADDED" (inputFieldsDangerous owner new old) := by
  apply inputs_mirrored (fun f => (owner, [f.name])) (by decide)
  case hnone | hcode | hcode' | hitem | hitem' => exact fun _ => rfl
  case hsome =>
    intro u v
    rw [inputFieldBreaking]
    split <;> rfl
  case hlost =>
    exact fun u found => (about_inputFieldBreaking owner u found).items_eq_zero (by decide)

end

/-! ## Fields -/

section
variable (owner : String) {c : String}

/-- Apart from what is said of the fields themselves, the changes are those of their arguments. -/
theorem items_fieldsBreaking (hremoved : "FIELD_REMOVED" ≠ c) (hkind : "FIELD_CHANGED_KIND" ≠ c)
    (old new : List Field) :
    items c (fieldsBreaking owner old new) = (matched Field.name old new).bind fun p =>
      items c (argsBreaking owner p.1.name p.1.arguments p.2.arguments) := by
  rw [fieldsBreaking, items_flatMap, bind_matched]
  apply Multiset.bind_congr
  intro f _
  rw [findField]
  cases new.find? fun g => g.name = f.name with
  | none =>
    apply items_eq_zero
    simpa [fieldBreaking, Breaking.code] using hremoved
  | some g =>
    rw [fieldBreaking, items_append]
    simp only [Option.elim]
    apply add_eq_left.mpr
    apply items_eq_zero
    split
    · simp
    · simpa [Breaking.code] using hkind

theorem items_fieldsDangerous (old new : List Field) :
    items c (fieldsDangerous owner old new) = (matched Field.name old new).bind fun p =>
      items c (argsDangerous owner p.1.name p.1.arguments p.2.arguments) := by
  rw [fieldsDangerous, items_flatMap, bind_matched]
  apply Multiset.bind_congr
  intro f _
  rw [findField]
  cases new.find? fun g => g.name = f.name with
  | none => rfl
  | some g => rfl

theorem fieldArgs_mirrored {old new : List Field} (hold : (old.map Field.name).Nodup)
    (hnew : (new.map Field.name).Nodup) :
    items "ARG_REMOVED" (fieldsBreaking owner old new)
      = items "REQUIRED_ARG_ADDED" (fieldsBreaking owner new old)
        + items "OPTIONAL_ARG_ADDED" (fieldsDangerous owner new old) := by
  rw [items_fieldsBreaking owner (by decide) (by decide),
    items_fieldsBreaking owner (by decide) (by decide), items_fieldsDangerous, ← Multiset.bind_add]
  apply bind_matched_comm hold hnew
  intro f _ g _ hname
  rw [hname]
  exact args_mirrored owner f.name f.arguments g.arguments

end

/-! ## Bodies -/

section
variable (owner : String)

/-- Interfaces are listed by name alone, fields are not. -/
theorem implementers_mirrored {c d : String} (h : Counterpart c d) (is js : List String)
    (fs gs : List Field) :
    items c (fieldsBreaking owner fs gs ++ interfacesBreaking owner is js)
      = items d (fieldsDangerous owner gs fs ++ interfacesDangerous owner js is) := by
  have hbreaking : items c (fieldsBreaking owner fs gs) = 0 :=
    (about_fieldsBreaking owner fs gs).items_eq_zero (by cases h <;> decide)
  have hdangerous : items d (fieldsDangerous owner gs fs) = 0 :=
    (about_fieldsDangerous owner gs fs).items_eq_zero (by cases h <;> decide)
  rw [items_append, items_append, hbreaking, hdangerous, zero_add, zero_add]
  apply items_removed h .interface
  all_goals exact fun _ => rfl

theorem names_mirrored {c d : String} (h : Counterpart c d) (old new : TypeBody) :
    items c (bodyBreaking owner old new) = items d (bodyDangerous owner new old) := by
  by_cases hform : old.form = new.form
  · cases sameForm_of_form_eq hform with
    | scalar => rfl
    | object | interface => exact implementers_mirrored owner h _ _ _ _
    | union =>
      apply items_removed h .member
      all_goals exact fun _ => rfl
    | enum =>
      apply items_removed h .value
      all_goals exact fun _ => rfl
    | input =>
      -- Input fields are not listed by name alone.
      have hbreaking : c ∉ breakingCodes .input := by cases h <;> decide
      have hdangerous : d ∉ dangerousCodes .input := by cases h <;> decide
      rw [items_bodyBreaking_eq_zero owner (fun _ => hbreaking) (by cases h <;> decide),
        items_bodyDangerous_eq_zero owner (fun _ => hdangerous)]
  · rw [items_bodyBreaking_eq_zero owner (absurd · hform) (by cases h <;> decide),
      items_bodyDangerous_eq_zero owner (absurd · (Ne.symm hform))]

theorem implementerArgs_mirrored {fs gs : List Field} (hfs : (fs.map Field.name).Nodup)
    (hgs : (gs.map Field.name).Nodup) (is js : List String) :
    items "ARG_REMOVED" (fieldsBreaking owner fs gs ++ interfacesBreaking owner is js)
      = items "REQUIRED_ARG_ADDED" (fieldsBreaking owner gs fs ++ interfacesBreaking owner js is)
        + items "OPTIONAL_ARG_ADDED"
            (fieldsDangerous owner gs fs ++ interfacesDangerous owner js is) := by
  rw [items_append, items_append, items_append, items_interfacesBreaking owner (by decide),
    items_interfacesBreaking owner (by decide), items_interfacesDangerous owner (by decide),
    add_zero, add_zero, add_zero, fieldArgs_mirrored owner hfs hgs]

theorem no_additions {c d : String} {old new : TypeBody}
    (hform : old.form = new.form → c ∉ breakingCodes old.form ∧ d ∉ dangerousCodes old.form)
    (hkind : "TYPE_CHANGED_KIND" ≠ c) :
    items c (bodyBreaking owner old new) + items d (bodyDangerous owner old new) = 0 := by
  rw [items_bodyBreaking_eq_zero owner (fun h => (hform h).1) hkind,
    items_bodyDangerous_eq_zero owner (fun h => (hform h).2), add_zero]

theorem bodyArgs_mirrored {t u : TypeDef} (ht : (t.fields.map Field.name).Nodup)
    (hu : (u.fields.map Field.name).Nodup) :
    items "ARG_REMOVED" (bodyBreaking owner t.body u.body)
      = items "REQUIRED_ARG_ADDED" (bodyBreaking owner u.body t.body)
        + items "OPTIONAL_ARG_ADDED" (bodyDangerous owner u.body t.body) := by
  obtain ⟨_, _, _, _, old⟩ := t
  obtain ⟨_, _, _, _, new⟩ := u
  by_cases hform : old.form = new.form
  · cases sameForm_of_form_eq hform with
    | object | interface => exact implementerArgs_mirrored owner ht hu _ _
    | scalar | union | enum | input =>
      rw [items_bodyBreaking_eq_zero owner (fun _ => by simp [breakingCodes, TypeBody.form])
          (by decide),
        no_additions owner (fun _ => by simp [breakingCodes, dangerousCodes, TypeBody.form])
          (by decide)]
  · rw [items_bodyBreaking_eq_zero owner (absurd · hform) (by decide),
      no_additions owner (absurd · (Ne.symm hform)) (by decide)]

/-- Removed fields count where the old type is an input type: other types have fields, too, of which
nothing is said when they are added. -/
theorem bodyInputs_mirrored {isInput : String → Bool} {old : TypeBody}
    (hinput : isInput owner = true ↔ old.form = .input) (new : TypeBody) :
    (items "FIELD_REMOVED" (bodyBreaking owner old new)).filter (fun i => isInput i.1)
      = items "REQUIRED_INPUT_FIELD_ADDED" (bodyBreaking owner new old)
        + items "OPTIONAL_INPUT_FIELD_ADDED" (bodyDangerous owner new old) := by
  by_cases hform : old.form = new.form
  · have howner {i : Item} (hi : i ∈ items "FIELD_REMOVED" (bodyBreaking owner old new)) :
        isInput i.1 = true ↔ old.form = .input := by
      rw [(about_bodyBreaking owner hform).owner_eq hi, hinput]
    cases sameForm_of_form_eq hform with
    | input =>
      rw [Multiset.filter_eq_self.mpr fun i hi => (howner hi).mpr rfl]
      exact inputFields_mirrored owner _ _
    | scalar | union | enum | object | interface =>
      rw [Multiset.filter_eq_nil.mpr fun i hi h => Form.noConfusion ((howner hi).mp h),
        no_additions owner
          (fun _ => by simp [breakingCodes, fieldCodes, dangerousCodes, TypeBody.form]) (by decide)]
  · rw [items_bodyBreaking_eq_zero owner (absurd · hform) (by decide), Multiset.filter_zero,
      no_additions owner (absurd · (Ne.symm hform)) (by decide)]

end

/-! ## Schemas -/

/-- Apart from removed types, the breaking changes are those of matched types. -/
theorem items_breaking {c : String} (hc : "TYPE_REMOVED" ≠ c) (old new : Schema) :
    items c (breaking old new) = (matched Prod.fst (typeDefs old) (typeDefs new)).bind fun p =>
      items c (bodyBreaking p.1.1 p.1.2.body p.2.2.body) := by
  rw [breaking, items_flatMap, bind_matched]
  apply Multiset.bind_congr
  intro t _
  rw [Keyed.lookup?_eq_find?]
  cases (typeDefs new).find? fun u => u.1 = t.1 with
  | none =>
    apply items_eq_zero
    simpa [typeBreaking, Breaking.code] using hc
  | some u => rfl

theorem items_dangerous {c : String} (old new : Schema) :
    items c (dangerous old new) = (matched Prod.fst (typeDefs old) (typeDefs new)).bind fun p =>
      items c (bodyDangerous p.1.1 p.1.2.body p.2.2.body) := by
  rw [dangerous, items_flatMap, bind_matched]
  apply Multiset.bind_congr
  intro t _
  rw [Keyed.lookup?_eq_find?]
  cases (typeDefs new).find? fun u => u.1 = t.1 with
  | none => rfl
  | some u => rfl

/-- The name is that of an input type. -/
def isInputType (s : Schema) (name : String) : Bool :=
  ((typeDefs s).lookup? name).any fun t => t.form = .input

/-- No object type or interface repeats the name of a field. -/
def WithoutRepeatedFields (s : Schema) : Prop :=
  ∀ t ∈ types s, (t.fields.map Field.name).Nodup

instance (s : Schema) : Decidable (WithoutRepeatedFields s) :=
  inferInstanceAs (Decidable (∀ t ∈ types s, (t.fields.map Field.name).Nodup))

section
variable {old new : Schema}

/-- What holds of the bodies of matched types holds of the schemas. -/
theorem schemas_mirrored {f g : (String × TypeDef) × (String × TypeDef) → Multiset Item}
    (h : ∀ t ∈ typeDefs old, ∀ u ∈ typeDefs new, u.1 = t.1 → f (t, u) = g (u, t)) :
    (matched Prod.fst (typeDefs old) (typeDefs new)).bind f
      = (matched Prod.fst (typeDefs new) (typeDefs old)).bind g :=
  bind_matched_comm (keys_typeDefs_nodup old) (keys_typeDefs_nodup new) h

theorem removedNames_mirror {c d : String} (h : Counterpart c d) (old new : Schema) :
    items c (breaking old new) = items d (dangerous new old) := by
  rw [items_breaking (by cases h <;> decide), items_dangerous]
  apply schemas_mirrored
  intro t _ u _ hname
  rw [hname]
  exact names_mirrored t.1 h t.2.body u.2.body

theorem removedInputs_mirror (old new : Schema) :
    (items "FIELD_REMOVED" (breaking old new)).filter (fun i => isInputType old i.1)
      = items "REQUIRED_INPUT_FIELD_ADDED" (breaking new old)
        + items "OPTIONAL_INPUT_FIELD_ADDED" (dangerous new old) := by
  rw [items_breaking (by decide), items_breaking (by decide), items_dangerous, ← Multiset.bind_add,
    Multiset.filter_bind]
  apply schemas_mirrored
  intro t ht u _ hname
  rw [hname]
  apply bodyInputs_mirrored
  rw [isInputType, mem_typeDefs.mp ht]
  exact decide_eq_true_iff

theorem removedArgs_mirror (hold : WithoutRepeatedFields old) (hnew : WithoutRepeatedFields new) :
    items "ARG_REMOVED" (breaking old new)
      = items "REQUIRED_ARG_ADDED" (breaking new old)
        + items "OPTIONAL_ARG_ADDED" (dangerous new old) := by
  rw [items_breaking (by decide), items_breaking (by decide), items_dangerous, ← Multiset.bind_add]
  apply schemas_mirrored
  intro t ht u hu hname
  rw [hname]
  exact bodyArgs_mirrored t.1 (hold _ (mem_types_of_mem_typeDefs ht))
    (hnew _ (mem_types_of_mem_typeDefs hu))

end

/-- **Additions and removals mirror each other**: what is removed from one schema to another is added
from the other to the one, for values, members and interfaces by name, and for input fields and
arguments as required or optional ones. Any names may be repeated, except for arguments those of the
fields that have them. -/
theorem removals_mirror_additions (old new : Schema) :
    items "VALUE_REMOVED_FROM_ENUM" (breaking old new)
        = items "VALUE_ADDED_TO_ENUM" (dangerous new old) ∧
      items "TYPE_REMOVED_FROM_UNION" (breaking old new)
        = items "TYPE_ADDED_TO_UNION" (dangerous new old) ∧
      items "INTERFACE_REMOVED_FROM_OBJECT" (breaking old new)
        = items "INTERFACE_ADDED_TO_OBJECT" (dangerous new old) ∧
      (items "FIELD_REMOVED" (breaking old new)).filter (fun i => isInputType old i.1)
        = items "REQUIRED_INPUT_FIELD_ADDED" (breaking new old)
          + items "OPTIONAL_INPUT_FIELD_ADDED" (dangerous new old) ∧
      (WithoutRepeatedFields old → WithoutRepeatedFields new →
        items "ARG_REMOVED" (breaking old new)
          = items "REQUIRED_ARG_ADDED" (breaking new old)
            + items "OPTIONAL_ARG_ADDED" (dangerous new old)) :=
  ⟨removedNames_mirror .value old new, removedNames_mirror .member old new,
    removedNames_mirror .interface old new, removedInputs_mirror old new, removedArgs_mirror⟩

/-- A schema of a type, an input type and an enum. -/
def schemaOf (fields : List (String × List InputValue)) (inputs : List InputValue)
    (values : List String) : Schema :=
  [.type ⟨⟨1, 1⟩, none, "Query", [], .object []
      (fields.map fun f => ⟨⟨1, 14⟩, none, f.1, f.2, .named "Item", []⟩)⟩,
   .type ⟨⟨2, 1⟩, none, "Filter", [], .input inputs⟩,
   .type ⟨⟨3, 1⟩, none, "Color", [], .enum (values.map fun v => ⟨⟨3, 14⟩, none, v, []⟩)⟩]

def optionalInput (name : String) : InputValue := ⟨⟨1, 20⟩, none, name, .named "Int", none, []⟩

def requiredInput (name : String) : InputValue :=
  ⟨⟨1, 20⟩, none, name, .nonNull (.named "Int"), none, []⟩

/-- A repeated value and a repeated argument are removed, and come back, as often as they are there. -/
theorem removals_mirror_additions_repeated :
    let old := schemaOf [("find", [requiredInput "id", optionalInput "skip", optionalInput "id"])]
      [requiredInput "from", optionalInput "to"] ["RED", "GREEN", "RED"]
    let new := schemaOf [("find", []), ("all", [])] [] ["GREEN"]
    items "VALUE_REMOVED_FROM_ENUM" (breaking old new) = {("Color", ["RED"]), ("Color", ["RED"])} ∧
      items "VALUE_ADDED_TO_ENUM" (dangerous new old) = {("Color", ["RED"]), ("Color", ["RED"])} ∧
      WithoutRepeatedFields old ∧ WithoutRepeatedFields new ∧
      items "REQUIRED_ARG_ADDED" (breaking new old)
          + items "OPTIONAL_ARG_ADDED" (dangerous new old)
        = {("Query", ["find", "id"]), ("Query", ["find", "skip"]), ("Query", ["find", "id"])} ∧
      items "ARG_REMOVED" (breaking old new)
        = {("Query", ["find", "id"]), ("Query", ["find", "skip"]), ("Query", ["find", "id"])} := by
  intro old new
  have hold : WithoutRepeatedFields old := by decide
  have hnew : WithoutRepeatedFields new := by decide
  have hremoved : items "VALUE_REMOVED_FROM_ENUM" (breaking old new)
      = {("Color", ["RED"]), ("Color", ["RED"])} := by decide
  have hadded : items "REQUIRED_ARG_ADDED" (breaking new old)
        + items "OPTIONAL_ARG_ADDED" (dangerous new old)
      = {("Query", ["find", "id"]), ("Query", ["find", "skip"]), ("Query", ["find", "id"])} := by
    decide
  obtain ⟨hvalues, -, -, -, harguments⟩ := removals_mirror_additions old new
  exact ⟨hremoved, hvalues.symm.trans hremoved, hold, hnew, hadded,
    (harguments hold hnew).trans hadded⟩

/-- Two fields of one name: both lose their argument, and only the first gets one back. -/
example :
    let old := schemaOf [("find", [optionalInput "id"]), ("find", [optionalInput "id"])] [] []
    let new := schemaOf [("find", [])] [] []
    items "ARG_REMOVED" (breaking old new) = {("Query", ["find", "id"]), ("Query", ["find", "id"])} ∧
      items "REQUIRED_ARG_ADDED" (breaking new old) + items "OPTIONAL_ARG_ADDED" (dangerous new old)
        = {("Query", ["find", "id"])} := by
  decide

end SchemaBridge.Changes
