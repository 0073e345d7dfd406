import Mathlib.Algebra.GroupWithZero.Nat
import Mathlib.Data.List.Forall2
import SchemaBridge.Proofs.Ensuring
import SchemaBridge.Proofs.FieldNodes
import SchemaBridge.Proofs.FreshNames
/-!
# What a conversion makes and what it loses

Which anonymous objects need a type of their own is said here without reference to how they are
mapped (`sites`), and every step of a mapping with a generator that picks free names is accounted
for: the types made for these objects, one for each and each before those inside it, and the losses,
as properties of an object made without a field, or as losses of the step's own.

Results:
* `Work.append`: what one step does after another.
* `Work.synthesize`: a type is made for an object, before those inside it.
* `synthesize_accounted`, `fieldType_accounted`, `fields_accounted`: fields are accounted for.
-/
namespace SchemaBridge.Export

open Model (Node Kind Property Properties Annotations Declaration Document)
open Sdl (TypeDef Field)

/-! ## Anonymous objects -/

/-- An anonymous object that needs a type of its own, and the hint for its name. -/
structure Site where
  hint : String
  properties : List (String × Property Node)
  annotations : Annotations

mutual

/-- The anonymous objects in the type of a field or list item, each before those inside it. There
are none in alternatives that do not come down to a single type. -/
def sites (hint : String) : Node → List Site
  | ⟨.array e, _, _⟩ => sites hint e
  | ⟨.tuple es, _, _⟩ => if (nonNull es).length = 1 then alternativeSites hint es else []
  | ⟨.or es, _, _⟩ => if (nonNull es).length = 1 then alternativeSites hint es else []
  | ⟨.object ps _, a, _⟩ => ⟨hint, ps, a⟩ :: propertySites ps
  | _ => []
termination_by structural n => n

def alternativeSites (hint : String) : List Node → List Site
  | [] => []
  | n :: ns => sites hint n ++ alternativeSites hint ns
termination_by structural ns => ns

/-- The anonymous objects in the types of properties, whose names are the hints. -/
def propertySites : List (String × Property Node) → List Site
  | [] => []
  | (name, ⟨n, _⟩) :: ps => sites name n ++ propertySites ps
termination_by structural ps => ps

end

/-- The anonymous objects in a member of a union. Only an object has any: it needs a type of its own
itself, and other nodes have no place for one. -/
def memberSites (hint : String) : Node → List Site
  | ⟨.object ps _, a, _⟩ => ⟨hint, ps, a⟩ :: propertySites ps
  | _ => []

/-- The anonymous objects in the alternatives of a union, the first of which has a number. -/
def unionSites : Nat → List Node → List Site
  | _, [] => []
  | i, n :: ns => memberSites ("T" ++ toString i) n ++ unionSites (i + 1) ns

/-- The anonymous objects in a declaration. -/
def declarationSites (t : Declaration) : List Site :=
  match t.node.kind with
  | .object ps _ => propertySites ps
  | .or es => unionSites 0 (flattenAll es)
  | _ => []

/-- The anonymous objects in a document. -/
def documentSites (d : Document) : List Site := d.types.flatMap declarationSites

theorem alternativeSites_of_nil {hint : String} {ns : List Node} (h : nonNull ns = []) :
    alternativeSites hint ns = [] := by
  induction ns using alternativesInduction with
  | nil => rfl
  | single n ns hn ih =>
    rw [nonNull_cons_single hn] at h
    cases h
  | null a l ns ih => exact ih h
  | group es a l ns ihes ihns =>
    rw [nonNull_cons_or] at h
    obtain ⟨hes, hns⟩ := List.append_eq_nil_iff.mp h
    rw [alternativeSites, ihns hns, sites, if_neg (by simp [hes])]
    rfl

/-- Alternatives that come down to a single type have the anonymous objects of that type. -/
theorem alternativeSites_of_sole {hint : String} {ns : List Node} {n : Node}
    (h : nonNull ns = [n]) : alternativeSites hint ns = sites hint n := by
  induction ns using alternativesInduction with
  | nil => cases h
  | single m ns hm ih =>
    rw [nonNull_cons_single hm] at h
    obtain ⟨rfl, hnil⟩ := List.cons.inj h
    rw [alternativeSites, alternativeSites_of_nil hnil, List.append_nil]
  | null a l ns ih => exact ih h
  | group es a l ns ihes ihns =>
    rw [nonNull_cons_or] at h
    rw [alternativeSites, sites]
    rcases List.append_eq_singleton_iff.mp h with ⟨hes, hns⟩ | ⟨hes, hns⟩
    · rw [ihns hns, if_neg (by simp [hes])]
      rfl
    · rw [ihes hes, alternativeSites_of_nil hns, if_pos (by simp [hes]), List.append_nil]

/-! ## Definitions and what they are for -/

/-- Some of the properties of an object have a field, in order. -/
def Keeps (s : Settings) (fs : List Field) (ps : List (String × Property Node)) : Prop :=
  List.SublistForall₂ (fun f p => ∃ t, f = makeField s p.1 p.2 t) fs ps

/-- The definition of an object type of that name, for an object so annotated. -/
def Depicts (s : Settings) (name : String) (a : Annotations)
    (ps : List (String × Property Node)) (f : TypeDef) : Prop :=
  ∃ fs, Keeps s fs ps ∧ f = objectDef s name a fs

/-- A type made for an anonymous object, and the type it belongs to. -/
structure Synthesis where
  owner : String
  site : Site
  definition : TypeDef

namespace Synthesis

def name (w : Synthesis) : String := w.definition.name

/-- The entry of the registry for a type that is made. -/
def entry (w : Synthesis) : String × Option TypeDef := (w.name, some w.definition)

/-- The definition is for the object, under a name that the generator picked for it. -/
structure Valid (s : Settings) (w : Synthesis) : Prop where
  named : ∃ used, w.name = s.generator w.owner w.site.hint used
  depicts : Depicts s w.name w.site.annotations w.site.properties w.definition

/-- The number of properties without a field. -/
def missing (w : Synthesis) : Nat := w.site.properties.length - w.definition.fields.length

end Synthesis

/-! ## Steps of a mapping -/

/-- From one registry to the next, through events: types are made for the sites, for one of the
owners or for each other, and each loss is a property of theirs without a field, or one of `own`. -/
structure Work (s : Settings) (owners : List String) (todo : List Site) (r r' : Registry)
    (es : List Event) (made : List Synthesis) (own : Nat) : Prop where
  registry : r' = r ++ made.map Synthesis.entry
  nodup : r'.keys.Nodup
  sites : made.map Synthesis.site = todo
  valid : ∀ w ∈ made, w.Valid s
  owned : ∀ w ∈ made, w.owner ∈ owners ++ made.map Synthesis.name
  reserved : reserved es = made.map Synthesis.name
  losses : (losses es).length = (made.map Synthesis.missing).sum + own

section
variable {s : Settings} {owners : List String} {todo todo' : List Site} {r r' r'' : Registry}
  {es es' : List Event} {made made' : List Synthesis} {own own' : Nat}

/-- Events that reserve nothing make no types. -/
theorem Work.idle (hr : r.keys.Nodup) (hreserved : SchemaBridge.reserved es = [])
    (hlosses : (SchemaBridge.losses es).length = own) : Work s owners [] r r es [] own where
  registry := (List.append_nil r).symm
  nodup := hr
  sites := rfl
  valid := List.forall_mem_nil _
  owned := List.forall_mem_nil _
  reserved := hreserved
  losses := by rw [hlosses, List.map_nil, List.sum_nil, Nat.zero_add]

theorem Work.append (h : Work s owners todo r r' es made own)
    (h' : Work s owners todo' r' r'' es' made' own') :
    Work s owners (todo ++ todo') r r'' (es ++ es') (made ++ made') (own + own') where
  registry := by rw [h'.registry, h.registry, List.map_append, List.append_assoc]
  nodup := h'.nodup
  sites := by rw [List.map_append, h.sites, h'.sites]
  valid w hw := (List.mem_append.mp hw).elim (h.valid w) (h'.valid w)
  owned w hw := by
    rw [List.map_append]
    rcases List.mem_append.mp hw with hw | hw
    · exact (List.append_subset.mpr ⟨List.subset_append_left _ _,
        List.subset_append_of_subset_right _ (List.subset_append_left _ _)⟩) (h.owned w hw)
    · exact (List.append_subset.mpr ⟨List.subset_append_left _ _,
        List.subset_append_of_subset_right _ (List.subset_append_right _ _)⟩) (h'.owned w hw)
  reserved := by rw [reserved_append, h.reserved, h'.reserved, List.map_append]
  losses := by
    rw [losses_append, List.length_append, h.losses, h'.losses, List.map_append, List.sum_append]
    omega

/-- A type is made for an object, and those that its fields need after it. A loss of the step that
builds the fields is a property without a field. -/
theorem Work.synthesize {owner hint name : String} {ps : List (String × Property Node)}
    {a : Annotations} {fs : List Field} (hname : s.generator owner hint r.keys = name)
    (hfree : name ∉ r.keys) (howner : owner ∈ owners)
    (h : Work s (name :: owners) todo (r.put name none) r' es made own) (hfs : Keeps s fs ps)
    (hlen : fs.length + own = ps.length) :
    Work s owners (⟨hint, ps, a⟩ :: todo) r (r'.put name (some (objectDef s name a fs)))
      (.synthesizing name :: es) (⟨owner, ⟨hint, ps, a⟩, objectDef s name a fs⟩ :: made) 0 where
  registry := by
    rw [h.registry, Keyed.put_of_not_mem hfree, List.append_assoc, List.singleton_append,
      Keyed.put_append_cons hfree]
    rfl
  nodup := by
    have hnodup := h.nodup
    rw [h.registry, Keyed.put_of_not_mem hfree] at hnodup ⊢
    rw [List.append_assoc, List.singleton_append, Keyed.put_append_cons hfree]
    simpa [Keyed.keys] using hnodup
  sites := by rw [List.map_cons, h.sites]
  valid w hw := by
    rcases List.mem_cons.mp hw with rfl | hw
    · exact ⟨⟨r.keys, hname.symm⟩, fs, hfs, rfl⟩
    · exact h.valid w hw
  owned w hw := by
    rcases List.mem_cons.mp hw with rfl | hw
    · exact List.mem_append_left _ howner
    · -- The new type is among the owners of the types inside it, and among the types made here.
      have := h.owned w hw
      simp only [List.cons_append, List.mem_cons, List.mem_append, List.map_cons] at this ⊢
      exact or_left_comm.mp this
  reserved := congrArg (name :: ·) h.reserved
  losses := by
    have hmissing : (⟨owner, ⟨hint, ps, a⟩, objectDef s name a fs⟩ : Synthesis).missing
        = ps.length - fs.length := rfl
    rw [List.map_cons, List.sum_cons, hmissing]
    have := h.losses
    show (SchemaBridge.losses es).length = _
    omega

end

/-! ## Mappings that are accounted for -/

/-- From any registry of distinct names, the mapping makes types for the sites, and its value has a
property with regard to the types made and its own losses. -/
def Accounted {α : Type} (s : Settings) (owners : List String) (todo : List Site) (m : Mapping α)
    (Q : α → List Synthesis → Nat → Prop) : Prop :=
  ∀ r : Registry, r.keys.Nodup → m.Ensures r fun a r' es =>
    ∃ made own, Work s owners todo r r' es made own ∧ Q a made own

section
variable {α β : Type} {s : Settings} {owners : List String} {todo todo' : List Site}
  {m : Mapping α} {Q : α → List Synthesis → Nat → Prop}

theorem Accounted.mono {R : α → List Synthesis → Nat → Prop} (hm : Accounted s owners todo m Q)
    (himp : ∀ a made own, Q a made own → R a made own) : Accounted s owners todo m R :=
  fun r hr => (hm r hr).mono fun _ _ _ ⟨made, own, hwork, hQ⟩ =>
    ⟨made, own, hwork, himp _ made own hQ⟩

theorem Accounted.pure {a : α} (h : Q a [] 0) : Accounted s owners [] (Pure.pure a) Q :=
  fun _ hr => .pure ⟨[], 0, .idle hr rfl rfl, h⟩

theorem Accounted.bind {f : α → Mapping β} {R : β → List Synthesis → Nat → Prop}
    (hm : Accounted s owners todo m Q)
    (hf : ∀ a made own, Q a made own → Accounted s owners todo' (f a) fun b made' own' =>
      R b (made ++ made') (own + own')) :
    Accounted s owners (todo ++ todo') (m >>= f) R := by
  intro r hr
  refine (hm r hr).bind fun a r' es ⟨made, own, hwork, hQ⟩ => ?_
  refine (hf a made own hQ r' hwork.nodup).mono fun b r'' es' ⟨made', own', hwork', hR⟩ => ?_
  exact ⟨made ++ made', own + own', hwork.append hwork', hR⟩

/-- A pure step at the end makes no types and loses nothing. -/
theorem Accounted.map {R : β → List Synthesis → Nat → Prop} (hm : Accounted s owners todo m Q)
    (g : α → β) (h : ∀ a made own, Q a made own → R (g a) made own) :
    Accounted s owners todo (m >>= fun a => Pure.pure (g a)) R := by
  rw [← List.append_nil todo]
  refine hm.bind fun a made own hQ => .pure ?_
  rw [List.append_nil]
  exact h a made own hQ

theorem Accounted.note {e : Event} {Q : Unit → List Synthesis → Nat → Prop}
    (hloss : e.loss? = none) (hreserved : reserved [e] = []) (h : Q () [] 0) :
    Accounted s owners [] (liftM (Reporting.note e) : Mapping Unit) Q := by
  intro r hr
  refine .note hloss ⟨[], 0, .idle hr hreserved ?_, h⟩
  simp [losses, hloss]

theorem lose_accounted {n : Node} {path : Option Path}
    {Q : Option α → List Synthesis → Nat → Prop} (h : Q none [] 1) :
    Accounted s owners [] (lose n path) Q :=
  have hlose : Accounted s owners [] (liftM (Reporting.lose (lossOf n path)) : Mapping Unit)
      fun _ made own => made = [] ∧ own = 1 :=
    fun _ hr => .lose ⟨[], 1, .idle hr rfl rfl, rfl, rfl⟩
  hlose.map (fun _ => none) fun _ _ _ ⟨hmade, hown⟩ => by rwa [hmade, hown]

end

/-! ### Fields -/

section
variable {s : Settings} {owners : List String}

theorem leaf_accounted (n : Node) :
    Accounted s owners [] (leaf s n) fun name made own =>
      name = s.leafName? n ∧ made = [] ∧ name.toList.length + own = 1 := by
  rw [leaf_eq]
  split
  · next name hname => exact .pure ⟨hname.symm, rfl, rfl⟩
  · next hname => exact lose_accounted ⟨hname.symm, rfl, rfl⟩

/-- **A type is made for an anonymous object**, under a name that is free, and the properties that
it keeps are as many as the losses leave. -/
theorem synthesize_accounted (hg : s.generator.AlwaysFree) {owner hint : String}
    (howner : owner ∈ owners) {a : Annotations} {ps : List (String × Property Node)}
    {fields : String → Mapping (List Field)} {todo : List Site}
    (hfields : ∀ name, Accounted s (name :: owners) todo (fields name) fun fs _ own =>
      Keeps s fs ps ∧ fs.length + own = ps.length) :
    Accounted s owners (⟨hint, ps, a⟩ :: todo) (synthesize s owner hint a fields)
      fun name made own => own = 0 ∧ ∃ w ∈ made, w.name = name ∧ w.site = ⟨hint, ps, a⟩ := by
  intro r hr
  have hfree : s.generator owner hint r.keys ∉ r.keys := hg owner hint r.keys
  have hopen : (r.put (s.generator owner hint r.keys) none).keys.Nodup := Keyed.keys_put_nodup hr
  refine synthesize_ensures rfl ((hfields _ _ hopen).mono ?_)
  rintro fs r' es ⟨made, own, hwork, hkeeps, hlen⟩
  exact ⟨_, 0, hwork.synthesize rfl hfree howner hkeeps hlen, rfl, _, List.mem_cons_self, rfl, rfl⟩

theorem keepField_accounted {owner name : String} {p : Property Node} {t : Option FieldType} :
    Accounted s owners [] (keepField s owner name p t) fun fs made own =>
      made = [] ∧ own = 0 ∧ fs = (t.map (makeField s name p)).toList := by
  cases t with
  | some t => exact .pure ⟨rfl, rfl, rfl⟩
  | none =>
    have hnote : Accounted s owners []
        (liftM (Reporting.note (.droppedField owner name)) : Mapping Unit)
        fun _ made own => made = [] ∧ own = 0 := .note rfl rfl ⟨rfl, rfl⟩
    exact hnote.map (fun _ => []) fun _ _ _ ⟨hmade, hown⟩ => ⟨hmade, hown, rfl⟩

/-- The fields for properties are accounted for if the types of these are. -/
theorem fields_accounted_of (owner : String) (howner : owner ∈ owners)
    {ps : List (String × Property Node)}
    (hps : ∀ p ∈ ps, ∀ base hint owners, base ∈ owners →
      Accounted s owners (sites hint p.2.node) (fieldType s base hint p.2.node)
        fun t _ own => t.toList.length + own = 1) :
    Accounted s owners (propertySites ps) (fields s owner ps) fun fs _ own =>
      Keeps s fs ps ∧ fs.length + own = ps.length := by
  induction ps with
  | nil => exact .pure ⟨.nil, rfl⟩
  | cons p ps ih =>
    obtain ⟨name, n, required⟩ := p
    rw [fields, propertySites]
    refine (hps _ List.mem_cons_self owner name owners howner).bind fun t made own ht => ?_
    rw [← List.nil_append (propertySites ps)]
    refine keepField_accounted.bind ?_
    rintro first _ _ ⟨rfl, rfl, rfl⟩
    refine (ih fun p hp => hps p (List.mem_cons_of_mem _ hp)).map _ ?_
    rintro others made' own' ⟨hkeeps, hlen⟩
    cases t with
    | none => exact ⟨hkeeps.cons_right, by simp at ht ⊢; omega⟩
    | some t => exact ⟨.cons ⟨t, rfl⟩ hkeeps, by simp at ht ⊢; omega⟩

theorem fieldType_accounted (hg : s.generator.AlwaysFree) (n : Node) :
    ∀ (base hint : String) (owners : List String), base ∈ owners →
      Accounted s owners (sites hint n) (fieldType s base hint n)
        fun t _ own => t.toList.length + own = 1 := by
  have hmap : ∀ {α β : Type} (t : Option α) (g : α → β),
      (t.map g).toList.length = t.toList.length :=
    fun t g => by rw [Option.toList_map, List.length_map]
  induction n using fieldInduction with
  | leaf n hn =>
    intro base hint owners _
    rw [fieldType_leaf hn]
    have hsites : sites hint n = [] := by
      obtain ⟨k, a, l⟩ := n
      cases k with
      | array | tuple | object | or => exact hn.elim
      | _ => rfl
    rw [hsites]
    exact (leaf_accounted n).map _ fun name _ _ ⟨_, _, hlen⟩ => by rwa [hmap]
  | array e a l ih =>
    intro base hint owners h
    exact (ih base hint owners h).map _ fun t _ _ hlen => by rwa [hmap]
  | tuple es a l n hn ih =>
    intro base hint owners h
    rw [sites, if_pos (by rw [hn]; rfl), alternativeSites_of_sole hn, fieldType_tuple_sole a l hn]
    exact (ih base hint owners h).map _ fun t _ _ hlen => by rwa [hmap]
  | or es a l n hn ih =>
    intro base hint owners h
    rw [sites, if_pos (by rw [hn]; rfl), alternativeSites_of_sole hn, fieldType_or_sole a l hn]
    exact (ih base hint owners h).map _ fun t _ _ hlen => by rwa [hmap]
  | tupleLost es a l hlen =>
    intro base hint owners _
    rw [sites, if_neg hlen, fieldType_tuple_lost a l hlen]
    exact lose_accounted rfl
  | orLost es a l hlen =>
    intro base hint owners _
    rw [sites, if_neg hlen, fieldType_or_lost a l hlen]
    exact lose_accounted rfl
  | object ps x a l ih =>
    intro base hint owners h
    rw [fieldType, sites]
    have hfields : ∀ name, Accounted s (name :: owners) (propertySites ps) (fields s name ps) _ :=
      fun name => fields_accounted_of name List.mem_cons_self ih
    exact (synthesize_accounted hg h hfields).map _ fun name _ own ⟨hown, _⟩ => by rw [hown]; rfl

theorem fields_accounted (hg : s.generator.AlwaysFree) {owner : String} (howner : owner ∈ owners)
    (ps : List (String × Property Node)) :
    Accounted s owners (propertySites ps) (fields s owner ps) fun fs _ own =>
      Keeps s fs ps ∧ fs.length + own = ps.length :=
  fields_accounted_of owner howner fun p _ => fieldType_accounted hg p.2.node

end

end SchemaBridge.Export
