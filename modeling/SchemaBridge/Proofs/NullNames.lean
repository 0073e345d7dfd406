import Mathlib.Data.List.Forall2
import SchemaBridge.Proofs.CapturedNames
/-!
# A type for `null`

Without a type for `null`, every `null` that needs a type is a loss: a declaration, a property, an
item of a list or an alternative of a union. With one, these are no losses, and nothing else
changes. A `null` beside another alternative makes a type nullable in either case, and alternatives
come down to a single type in either case.

Two conversions that differ in the type for `null` are compared step by step. The names in use are
the same at each step, since a type for an anonymous object is made whether or not its fields are
lost, and so each generated name is the same.

Results:
* `Mapping.Within.bind`: what one mapping adds to another, one step after another.
* `leaf_within`, `synthesize_within`: where the two differ, and where names are generated.
* `fieldType_within`, `fields_within`, `declarations_within`: the same part by part.
* `null_name_only_adds`: the schema with a type for `null` has all of the one without.
-/
namespace SchemaBridge

open Model (Node Kind Property Annotations Declaration Document)
open Sdl (TypeDef Definition Schema Field)

/-- The node that is lost is `null`. -/
def Loss.isOfNull (loss : Loss) : Bool := loss.node.any Node.isNull

namespace Sdl

/-- The second type is the first but for more fields and more members. -/
structure TypeDef.Within (f g : TypeDef) : Prop where
  name : f.name = g.name
  form : f.form = g.form
  description : f.description = g.description
  fields : f.fields.Sublist g.fields
  members : f.members.Sublist g.members

theorem TypeDef.Within.refl (f : TypeDef) : f.Within f := ⟨rfl, rfl, rfl, .refl _, .refl _⟩

/-- Both are definitions of types, the first within the second. -/
def Definition.Within : Definition → Definition → Prop
  | .type f, .type g => f.Within g
  | _, _ => False

theorem Definition.Within.name_eq {x y : Definition} (h : x.Within y) : x.name? = y.name? := by
  cases x with
  | type f =>
    cases y with
    | type g => exact congrArg some h.name
    | _ => exact h.elim
  | _ => exact h.elim

end Sdl

/-! ## Policies that go on after a loss -/

namespace Reporting
variable {α : Type} {m : Reporting (Converted α)} {a : Converted α} {es : List Event} {p : Policy}

theorem Runs.warnings_eq (h : m.Runs a es) (hp : p ≠ .error) :
    (m.conclude p).warnings = if p = .warn then losses es else [] := by
  cases p with
  | ignore =>
    rw [h.conclude_ignore]
    exact losses_eq_nil_iff.mpr fun e he => (List.mem_filter.mp he).2
  | warn =>
    rw [h.conclude_warn]
    rfl
  | error => exact absurd rfl hp

end Reporting

namespace Export

/-! ## Registries -/

/-- Both registries hold the same names in the same order, with definitions for the same ones. -/
def Registry.Within : Registry → Registry → Prop :=
  List.Forall₂ fun e e' => e.1 = e'.1 ∧ Option.Rel TypeDef.Within e.2 e'.2

theorem Registry.Within.refl (r : Registry) : Registry.Within r r := by
  refine List.forall₂_same.mpr fun ⟨name, f⟩ _ => ⟨rfl, ?_⟩
  cases f with
  | none => exact .none
  | some f => exact .some (.refl f)

theorem Registry.Within.keys_eq {r r' : Registry} (h : Registry.Within r r') :
    r.keys = r'.keys := by
  induction h with
  | nil => rfl
  | cons hentry _ ih => exact congrArg₂ List.cons hentry.1 ih

theorem Registry.Within.put {r r' : Registry} (h : Registry.Within r r') (name : String)
    {f g : Option TypeDef} (hf : Option.Rel TypeDef.Within f g) :
    Registry.Within (r.put name f) (r'.put name g) := by
  induction h with
  | nil => exact .cons ⟨rfl, hf⟩ .nil
  | cons hentry hrest ih =>
    rw [Keyed.put, Keyed.put, hentry.1]
    split
    · exact .cons ⟨rfl, hf⟩ hrest
    · exact .cons hentry ih

theorem Registry.Within.definitions {r r' : Registry} (h : Registry.Within r r') :
    List.Forall₂ TypeDef.Within (Registry.definitions r) (Registry.definitions r') :=
  List.rel_filterMap (fun _ _ hentry => hentry.2) h

/-! ## Mappings -/

/-- What the first holds, the second holds too, up to a relation. -/
def Kept {α : Type} (R : α → α → Prop) (x y : Option α) : Prop := ∀ a ∈ x, ∃ b ∈ y, R a b

section
variable {α β : Type}

theorem Kept.map {x y : Option α} (h : Kept Eq x y) (g : α → β) : Kept Eq (x.map g) (y.map g) := by
  intro b hb
  obtain ⟨a, ha, rfl⟩ := Option.map_eq_some_iff.mp hb
  obtain ⟨_, ha', rfl⟩ := h a ha
  exact ⟨g a, Option.mem_map_of_mem g ha', rfl⟩

theorem Kept.toList_sublist {x y : Option α} (h : Kept Eq x y) : x.toList.Sublist y.toList := by
  cases x with
  | none => exact List.nil_sublist _
  | some a =>
    obtain ⟨_, rfl, rfl⟩ := h a rfl
    exact .refl _

/-- From registries one within the other, both mappings come to related values and to such
registries again, and the second loses what the first loses other than `null`. -/
def Mapping.Within (m m' : Mapping α) (V : α → α → Prop) : Prop :=
  ∀ r r', Registry.Within r r' → m.Ensures r fun a r₁ es => m'.Ensures r' fun a' r₁' es' =>
    V a a' ∧ Registry.Within r₁ r₁' ∧ losses es' = (losses es).filter fun loss => !loss.isOfNull

variable {m m' : Mapping α} {V : α → α → Prop}

/-- Steps that leave the registry as it is. -/
theorem Mapping.Within.of_runs {a a' : α} {es es' : List Event} (hm : ∀ r, m.Runs r a r es)
    (hm' : ∀ r, m'.Runs r a' r es') (hV : V a a')
    (hes : losses es' = (losses es).filter fun loss => !loss.isOfNull) : m.Within m' V :=
  fun r r' hr => ⟨a, r, es, hm r, a', r', es', hm' r', hV, hr, hes⟩

/-- Events other than losses need not be the same. -/
theorem Mapping.Within.note {e e' : Event} (he : e.loss? = none) (he' : e'.loss? = none) :
    (liftM (Reporting.note e) : Mapping Unit).Within (liftM (Reporting.note e')) fun _ _ => True :=
  .of_runs (.lift (.note he)) (.lift (.note he')) trivial (by simp [losses, he, he'])

theorem Mapping.Within.pure {a a' : α} (h : V a a') :
    (Pure.pure a : Mapping α).Within (Pure.pure a') V :=
  .of_runs (.pure a) (.pure a') h rfl

theorem Mapping.Within.bind {f f' : α → Mapping β} {W : β → β → Prop} (hm : m.Within m' V)
    (hf : ∀ a a', V a a' → (f a).Within (f' a') W) : (m >>= f).Within (m' >>= f') W := by
  intro r r' hr
  obtain ⟨a, r₁, es, hruns, a', r₁', es', hruns', hV, hr₁, hes⟩ := hm r r' hr
  obtain ⟨b, r₂, fs, hnext, b', r₂', fs', hnext', hW, hr₂, hfs⟩ := hf a a' hV r₁ r₁' hr₁
  refine ⟨b, r₂, es ++ fs, hruns.bind hnext, b', r₂', es' ++ fs', hruns'.bind hnext', hW, hr₂, ?_⟩
  rw [losses_append, losses_append, hes, hfs, List.filter_append]

theorem Mapping.Within.map {W : β → β → Prop} (hm : m.Within m' V) {g g' : α → β}
    (h : ∀ a a', V a a' → W (g a) (g' a')) :
    (m >>= fun a => Pure.pure (g a)).Within (m' >>= fun a => Pure.pure (g' a)) W :=
  hm.bind fun a a' hV => .pure (h a a' hV)

end

/-! ## Losses -/

section
variable {α : Type} {n : Node} {path : Option Path} {V : Option α → Option α → Prop}

theorem lose_runs (n : Node) (path : Option Path) (r : Registry) :
    (lose n path : Mapping (Option α)).Runs r none r [.lost (lossOf n path)] :=
  (Mapping.Runs.lift (.lose (lossOf n path)) r).bind_pure fun _ => none

/-- A loss of anything but `null` remains one. -/
theorem lose_within (hn : n.isNull = false) (h : V none none) :
    (lose n path : Mapping (Option α)).Within (lose n path) V := by
  have hloss : (lossOf n path).isOfNull = false := hn
  refine .of_runs (lose_runs n path) (lose_runs n path) h ?_
  simp [losses, Event.loss?, hloss]

/-- A loss of `null` does not. -/
theorem lose_null_within {x : Option α} (hn : n.isNull = true) (h : V none x) :
    (lose n path : Mapping (Option α)).Within (pure x) V := by
  have hloss : (lossOf n path).isOfNull = true := hn
  refine .of_runs (lose_runs n path) (.pure x) h ?_
  simp [losses, Event.loss?, hloss]

end

/-! ## Fields -/

/-- The settings with a type for `null`. -/
def Settings.nullAs (s : Settings) (name : String) : Settings := { s with nullTypeName := some name }

section
variable {s : Settings} (hs : s.nullTypeName = none) (null : String)

include hs in
theorem leaf_within (n : Node) : (leaf s n).Within (leaf (s.nullAs null) n) (Kept Eq) := by
  rw [leaf_eq, leaf_eq]
  obtain ⟨k, a, l⟩ := n
  cases k with
  | null =>
    have hname : s.leafName? ⟨.null, a, l⟩ = none := hs
    rw [hname]
    exact lose_null_within rfl nofun
  | boolean | integer | number | string | ref => exact .pure fun name hname => ⟨name, hname, rfl⟩
  | array | tuple | object | or => exact lose_within rfl nofun

/-- **A type for an anonymous object has the same name in either case**, as the names in use are the
same. -/
theorem synthesize_within {base hint : String} {a : Annotations}
    {fields fields' : String → Mapping (List Field)}
    (hfields : ∀ name, (fields name).Within (fields' name) List.Sublist) :
    (synthesize s base hint a fields).Within (synthesize (s.nullAs null) base hint a fields') Eq := by
  intro r r' hr
  have hname : (s.nullAs null).generator base hint r'.keys = s.generator base hint r.keys := by
    rw [hr.keys_eq]
    rfl
  -- The name is open in both registries while the fields are built, which keeps them in step.
  have hopen := hr.put (s.generator base hint r.keys) .none
  refine synthesize_ensures rfl ((hfields _ _ _ hopen).mono fun fs r₁ es h => ?_)
  refine synthesize_ensures hname (h.mono ?_)
  rintro fs' r₁' es' ⟨hsub, hr₁, hes⟩
  exact ⟨rfl, hr₁.put _ (.some ⟨rfl, rfl, rfl, hsub, .slnil⟩), hes⟩

theorem keepField_within {owner name : String} {p : Property Node} {t t' : Option FieldType}
    (h : Kept Eq t t') : (keepField s owner name p t).Within
      (keepField (s.nullAs null) owner name p t') List.Sublist := by
  have hdropped : ∀ (s : Settings) (r : Registry), (keepField s owner name p none).Runs r [] r
      [.droppedField owner name] := fun s r => (Mapping.Runs.lift (.note rfl) r).bind_pure fun _ => []
  cases t with
  | none =>
    cases t' with
    | none => exact .of_runs (hdropped s) (hdropped _) .slnil rfl
    | some t' => exact .of_runs (hdropped s) (.pure _) (List.nil_sublist _) rfl
  | some t =>
    obtain ⟨_, rfl, rfl⟩ := h t rfl
    exact .pure (.refl _)

/-- The fields for properties are kept if the types of these are. -/
theorem fields_within_of (owner : String) {ps : List (String × Property Node)}
    (hps : ∀ p ∈ ps, ∀ base hint, (fieldType s base hint p.2.node).Within
      (fieldType (s.nullAs null) base hint p.2.node) (Kept Eq)) :
    (fields s owner ps).Within (fields (s.nullAs null) owner ps) List.Sublist := by
  induction ps with
  | nil => exact .pure .slnil
  | cons p ps ih =>
    obtain ⟨name, n, required⟩ := p
    rw [fields, fields]
    refine (hps _ List.mem_cons_self owner name).bind fun t t' ht => ?_
    refine (keepField_within null ht).bind fun first first' hfirst => ?_
    exact (ih fun p hp => hps p (List.mem_cons_of_mem _ hp)).map fun _ _ => hfirst.append

include hs in
theorem fieldType_within (n : Node) : ∀ base hint : String, (fieldType s base hint n).Within
    (fieldType (s.nullAs null) base hint n) (Kept Eq) := by
  induction n using fieldInduction with
  | leaf n hn =>
    intro base hint
    rw [fieldType_leaf hn, fieldType_leaf hn]
    exact (leaf_within hs null n).map fun _ _ h => h.map _
  | array e a l ih =>
    intro base hint
    exact (ih base hint).map fun _ _ h => h.map _
  | tuple es a l n hn ih =>
    intro base hint
    rw [fieldType_tuple_sole a l hn, fieldType_tuple_sole a l hn]
    exact (ih base hint).map fun _ _ h => h.map _
  | or es a l n hn ih =>
    intro base hint
    rw [fieldType_or_sole a l hn, fieldType_or_sole a l hn]
    exact (ih base hint).map fun _ _ h => h.map _
  -- What is lost is the tuple or the group, which is not `null` even if there is nothing else in it.
  | tupleLost es a l hlen =>
    intro base hint
    rw [fieldType_tuple_lost a l hlen, fieldType_tuple_lost a l hlen]
    exact lose_within rfl nofun
  | orLost es a l hlen =>
    intro base hint
    rw [fieldType_or_lost a l hlen, fieldType_or_lost a l hlen]
    exact lose_within rfl nofun
  | object ps x a l ih =>
    intro base hint
    rw [fieldType, fieldType]
    refine (synthesize_within null fun name => fields_within_of null name ih).map ?_
    rintro name _ rfl t ht
    exact ⟨t, ht, rfl⟩

include hs in
theorem fields_within (owner : String) (ps : List (String × Property Node)) :
    (fields s owner ps).Within (fields (s.nullAs null) owner ps) List.Sublist :=
  fields_within_of null owner fun p _ => fieldType_within hs null p.2.node

/-! ## Declarations -/

include hs in
theorem member_within (base hint : String) (n : Node) :
    (member s base hint n).Within (member (s.nullAs null) base hint n) (Kept Eq) := by
  have hleaf := leaf_within hs null n
  obtain ⟨k, a, l⟩ := n
  cases k with
  | object ps x =>
    refine (synthesize_within null fun name => fields_within hs null name ps).map ?_
    rintro name _ rfl other hother
    exact ⟨other, hother, rfl⟩
  | _ => exact hleaf

include hs in
theorem members_within (base : String) (i : Nat) (ns : List Node) :
    (members s base i ns).Within (members (s.nullAs null) base i ns) List.Sublist := by
  induction ns generalizing i with
  | nil => exact .pure .slnil
  | cons n ns ih =>
    rw [members, members]
    refine (member_within hs null base _ n).bind fun first first' hfirst => ?_
    exact (ih (i + 1)).map fun _ _ => hfirst.toList_sublist.append

include hs in
/-- A union that has a member keeps it, and one without may have one then. -/
theorem union_within (name : String) (a : Annotations) (es : List Node) :
    (union s name a es).Within (union (s.nullAs null) name a es) (Kept TypeDef.Within) := by
  rw [union_eq, union_eq]
  refine (members_within hs null name 0 (flattenAll es)).map fun ms ms' hsub f hf => ?_
  split at hf
  · cases hf
  · next hne =>
    obtain rfl := Option.some.inj hf
    have hne' : ms' ≠ [] := by
      rintro rfl
      exact hne (List.sublist_nil.mp hsub)
    rw [if_neg hne']
    exact ⟨_, rfl, rfl, rfl, rfl, .slnil, hsub⟩

include hs in
theorem declaration_within (i : Nat) (t : Declaration) :
    (declaration s i t).Within (declaration (s.nullAs null) i t) (Kept TypeDef.Within) := by
  obtain ⟨name, ⟨k, a, l⟩⟩ := t
  cases k with
  | boolean | integer | number | string => exact union_within hs null name a [_]
  | null =>
    have hlost : declaration s i ⟨name, .null, a, l⟩ = lose ⟨.null, a, l⟩ (some [.index i]) := by
      simp [declaration, hs]
    rw [hlost]
    exact lose_null_within rfl nofun
  | or es => exact union_within hs null name a es
  | object ps x =>
    refine (fields_within hs null name ps).map fun fs fs' hsub f hf => ?_
    obtain rfl := Option.some.inj hf
    exact ⟨_, rfl, rfl, rfl, rfl, hsub, .slnil⟩
  | array | tuple | ref => exact lose_within rfl nofun

/-- The fates of declarations, one by one: the names are the same, and definitions are kept. -/
def FatesWithin : List (String × Option TypeDef) → List (String × Option TypeDef) → Prop :=
  List.Forall₂ fun e e' => e.1 = e'.1 ∧ Kept TypeDef.Within e.2 e'.2

include hs in
theorem declarations_within (i : Nat) (ts : List Declaration) :
    (declarations s i ts).Within (declarations (s.nullAs null) i ts) FatesWithin := by
  induction ts generalizing i with
  | nil => exact .pure .nil
  | cons t ts ih =>
    have hevent : ∀ f : Option TypeDef,
        (if f.isSome then Event.converted t.name else .notConverted t.name).loss? = none := by
      intro f
      split <;> rfl
    rw [declarations, declarations]
    refine (declaration_within hs null i t).bind fun f f' hf => ?_
    refine (Mapping.Within.note (hevent f) (hevent f')).bind fun _ _ _ => ?_
    exact (ih (i + 1)).map fun _ _ hrest => .cons ⟨rfl, hf⟩ hrest

end

/-! ## Documents -/

section
variable {fates fates' : List (String × Option TypeDef)}

theorem FatesWithin.converted_sublist (h : FatesWithin fates fates') (r r' : Registry) :
    (collect fates r).convertedTypes.Sublist (collect fates' r').convertedTypes := by
  induction h with
  | nil => exact .slnil
  | @cons e e' _ _ he _ ih =>
    obtain ⟨name, f⟩ := e
    obtain ⟨_, f'⟩ := e'
    obtain ⟨rfl, hkept⟩ := he
    cases f with
    | none =>
      cases f' with
      | none => exact ih
      | some f' => exact ih.cons name
    | some f =>
      obtain ⟨f', rfl, -⟩ := hkept f rfl
      exact ih.cons_cons name

theorem FatesWithin.definitions (h : FatesWithin fates fates') :
    List.SublistForall₂ TypeDef.Within (fates.filterMap Prod.snd) (fates'.filterMap Prod.snd) := by
  induction h with
  | nil => exact .nil
  | @cons e e' _ _ he _ ih =>
    obtain ⟨name, f⟩ := e
    obtain ⟨_, f'⟩ := e'
    obtain ⟨rfl, hkept⟩ := he
    cases f with
    | none =>
      cases f' with
      | none => exact ih
      | some f' => exact ih.cons_right
    | some f =>
      obtain ⟨f', rfl, hwithin⟩ := hkept f rfl
      exact .cons hwithin ih

/-- The definitions after those of declarations are the ones in the registry. -/
theorem synthesized_collect (fates : List (String × Option TypeDef)) (r : Registry) :
    synthesized (collect fates r) = (Registry.definitions r).map .type := by
  have hlen : (collect fates r).convertedTypes.length
      = ((fates.filterMap Prod.snd).map Definition.type).length := by
    induction fates with
    | nil => rfl
    | cons e fates ih =>
      obtain ⟨name, _ | f⟩ := e
      · exact ih
      · exact congrArg (· + 1) ih
  rw [synthesized, hlen, collect, List.map_append, List.drop_left]

end

/-! ## Counterparts -/

theorem within_types {fs gs : List TypeDef} (h : List.Forall₂ TypeDef.Within fs gs) :
    List.Forall₂ Definition.Within (fs.map .type) (gs.map .type) :=
  List.forall₂_map_left_iff.mpr (List.forall₂_map_right_iff.mpr h)

theorem names_eq_of_within {xs ys : Schema} (h : List.Forall₂ Definition.Within xs ys) :
    xs.map Definition.name? = ys.map Definition.name? := by
  induction h with
  | nil => rfl
  | cons hwithin _ ih => exact congrArg₂ List.cons hwithin.name_eq ih

/-- What is in the first schema has a counterpart in the second. -/
theorem exists_within {xs ys : Schema} (h : List.SublistForall₂ Definition.Within xs ys)
    {x : Definition} (hx : x ∈ xs) : ∃ y ∈ ys, x.Within y := by
  induction h with
  | nil => cases hx
  | cons hwithin _ ih =>
    rcases List.mem_cons.mp hx with rfl | hx
    · exact ⟨_, List.mem_cons_self, hwithin⟩
    · obtain ⟨y, hy, hxy⟩ := ih hx
      exact ⟨y, List.mem_cons_of_mem _ hy, hxy⟩
  | cons_right _ ih =>
    obtain ⟨y, hy, hxy⟩ := ih hx
    exact ⟨y, List.mem_cons_of_mem _ hy, hxy⟩

/-- If names differ, the counterpart is the definition of that name. -/
theorem within_of_name_eq {xs ys : Schema} (h : List.SublistForall₂ Definition.Within xs ys)
    (hnodup : (ys.map Definition.name?).Nodup) {x y : Definition} (hx : x ∈ xs) (hy : y ∈ ys)
    (hname : x.name? = y.name?) : x.Within y := by
  obtain ⟨z, hz, hxz⟩ := exists_within h hx
  obtain rfl := List.inj_on_of_nodup_map hnodup hz hy (hxz.name_eq.symm.trans hname)
  exact hxz

/-- The second schema has all that the first has: the converted types and the definitions in order,
types of the same names for anonymous objects, and in the definition of a name all fields and
members that the first has there. -/
structure OnlyAdds (c c' : Converted Schema) : Prop where
  converted : c.convertedTypes.Sublist c'.convertedTypes
  definitions : List.SublistForall₂ Definition.Within c.data c'.data
  synthesized : (synthesized c).map Definition.name? = (synthesized c').map Definition.name?
  counterparts : ∀ x ∈ c.data, ∀ y ∈ c'.data, x.name? = y.name? → x.Within y

theorem FatesWithin.onlyAdds {fates fates' : List (String × Option TypeDef)} {r r' : Registry}
    (h : FatesWithin fates fates') (hr : Registry.Within r r')
    (hnodup : ((collect fates' r').data.map Definition.name?).Nodup) :
    OnlyAdds (collect fates r) (collect fates' r') := by
  have hdata : List.SublistForall₂ Definition.Within (collect fates r).data
      (collect fates' r').data := by
    obtain ⟨fs, hall, hsub⟩ := List.sublistForall₂_iff.mp h.definitions
    have hdefinitions := within_types (List.rel_append hall hr.definitions)
    exact List.sublistForall₂_iff.mpr ⟨_, hdefinitions, (hsub.append (.refl _)).map _⟩
  refine ⟨h.converted_sublist r r', hdata, ?_, fun x hx y hy => within_of_name_eq hdata hnodup hx hy⟩
  rw [synthesized_collect, synthesized_collect]
  exact names_eq_of_within (within_types hr.definitions)

/-! ## Documents with and without a type for `null` -/

/-- The same options with a type for `null`. -/
def Options.nullAs (o : Options) (name : String) : Options := { o with nullTypeName := some name }

/-- **A type for `null` only adds**, whatever its name, under the policies that go on after a loss
and for every generator that picks free names, as the one used by default does. The warnings that
are left are those of losses other than `null`. -/
theorem null_name_only_adds {o : Options} {d : Document} (null : String)
    (hv : d.version = Document.currentVersion) (hn : d.names.Nodup)
    (hg : o.settings.generator.AlwaysFree) (hnull : o.nullTypeName = none)
    (hp : o.unsupported ≠ .error) :
    ∃ c c' : Converted Schema, (schema o d).outcome = .ok c ∧
      (schema (o.nullAs null) d).outcome = .ok c' ∧ OnlyAdds c c' ∧
      (schema (o.nullAs null) d).warnings
        = (schema o d).warnings.filter fun loss => !loss.isOfNull := by
  obtain ⟨fates, r, es, hruns, fates', r', es', hruns', hfates, hr, hes⟩ :=
    declarations_within (s := o.settings) hnull null 0 d.types _ _ (.refl (initialRegistry d))
  have hrun := run_runs hruns
  have hrun' : (run (o.nullAs null).settings d).Runs (collect fates' r') es' := run_runs hruns'
  have hp' : (o.nullAs null).unsupported ≠ .error := hp
  have hc' : (schema (o.nullAs null) d).outcome = .ok (collect fates' r') := by
    rw [schema_of_current _ hv]
    exact hrun'.outcome_of_ne_error hp'
  -- Names differ in the second schema, so that a name leads to one counterpart only.
  have hnodup : ((collect fates' r').data.map Definition.name?).Nodup := by
    have hg' : (o.nullAs null).settings.generator.AlwaysFree := hg
    obtain ⟨_, _, _, hcollect, ⟨a, hexplains, hnames, -⟩, -⟩ :=
      collect_of_ensures (declarations_explained hg' hn) hc'
    rw [hcollect]
    exact hexplains.names_nodup hnames
  refine ⟨collect fates r, collect fates' r', ?_, hc', hfates.onlyAdds hr hnodup, ?_⟩
  · rw [schema_of_current _ hv]
    exact hrun.outcome_of_ne_error hp
  · rw [schema_of_current _ hv, schema_of_current _ hv, hrun.warnings_eq hp, hrun'.warnings_eq hp',
      hes]
    change (if o.unsupported = .warn then _ else _) = _
    split
    · rfl
    · rfl

/-- Every place where a type for `null` matters, and two where `null` makes a type nullable. -/
def scatteredNulls : Document :=
  let null := Node.ofKind .null
  let nullable := Node.ofKind (.or [null, .ofKind (.object [("x", ⟨null, true⟩)] false)])
  .ofTypes [⟨"Nothing", null⟩,
    ⟨"Maybe", .ofKind (.or [null, .ofKind (.object [("n", ⟨null, false⟩)] false)])⟩,
    ⟨"Only", .ofKind (.or [null])⟩,
    ⟨"A", .ofKind (.object [("a", ⟨nullable, true⟩), ("b", ⟨.ofKind (.array null), true⟩),
      ("c", ⟨.ofKind (.tuple [null]), true⟩), ("d", ⟨.ofKind (.tuple [null, nullable]), true⟩)]
      false)⟩]

theorem null_name_only_adds_scatteredNulls :
    scatteredNulls.version = Document.currentVersion ∧ scatteredNulls.names.Nodup ∧
    ({} : Options).settings.generator.AlwaysFree ∧ ({} : Options).nullTypeName = none ∧
    ({} : Options).unsupported ≠ .error ∧ (schema {} scatteredNulls).warnings.length = 8 ∧
    ∃ c c' : Converted Schema, (schema {} scatteredNulls).outcome = .ok c ∧
      (schema (({} : Options).nullAs "Void") scatteredNulls).outcome = .ok c' ∧ OnlyAdds c c' ∧
      c.convertedTypes = ["Maybe", "A"] ∧ c'.convertedTypes = ["Nothing", "Maybe", "Only", "A"] ∧
      ((schema {} scatteredNulls).warnings.filter fun loss => !loss.isOfNull).map Loss.message
        = ["Type 'tuple' not supported"] := by
  have hn : scatteredNulls.names.Nodup := by decide +kernel
  have hg : ({} : Options).settings.generator.AlwaysFree := NameGenerator.numbered_alwaysFree
  have hlen : (schema {} scatteredNulls).warnings.length = 8 := by decide +kernel
  have hconverted : ((schema {} scatteredNulls).outcome.toOption.map
      Converted.convertedTypes) = some ["Maybe", "A"] := by decide +kernel
  have hconverted' : ((schema (({} : Options).nullAs "Void") scatteredNulls).outcome.toOption.map
      Converted.convertedTypes) = some ["Nothing", "Maybe", "Only", "A"] := by decide +kernel
  have hleft : (schema (({} : Options).nullAs "Void") scatteredNulls).warnings.map Loss.message
      = ["Type 'tuple' not supported"] := by decide +kernel
  obtain ⟨c, c', hc, hc', hadds, hwarnings⟩ :=
    null_name_only_adds (o := {}) (d := scatteredNulls) "Void" rfl hn hg rfl nofun
  rw [hc] at hconverted
  rw [hc'] at hconverted'
  rw [hwarnings] at hleft
  exact ⟨rfl, hn, hg, rfl, nofun, hlen, c, c', hc, hc', hadds, Option.some.inj hconverted,
    Option.some.inj hconverted', hleft⟩

end Export

end SchemaBridge
