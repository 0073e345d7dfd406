import SchemaBridge.Proofs.Accounts
/-!
# What every loss costs

Under the policy that warns, a conversion makes a warning for every loss, and a loss costs one thing
only: the field of a property, the member of a union, or the definition of a declaration. So the
warnings can be counted on the result, with the fields of all object types, also those made for
anonymous objects, and the members of the declared unions.

Results:
* `sum_shortfall`: what declarations lack, by what is lacking.
* `objects_emitted`: the object types of an account are those of the schema.
* `objects_keep`, `unions_join`: fields and members are in source order.
* `complete_of_no_shortfall`: an account that lacks nothing keeps everything.
* `every_loss_costs_one`: the number of warnings.
-/
namespace SchemaBridge.Export

open Model (Node Kind Property Declaration Document)
open Sdl (TypeDef Field Definition)

/-! ## Objects and unions of an account -/

/-- The properties of a declared object, and its definition. -/
def declaredObject? (e : Declaration × Option TypeDef) :
    Option (List (String × Property Node) × TypeDef) :=
  match e.1.node.kind with
  | .object ps _ => e.2.map (ps, ·)
  | _ => none

/-- The flattened alternatives of a declared union, and its members, of which it has none if it is
dropped. -/
def declaredUnion? (e : Declaration × Option TypeDef) : Option (List Node × List String) :=
  match e.1.node.kind with
  | .or es => some (flattenAll es, e.2.elim [] TypeDef.members)
  | _ => none

/-- A definition of an object type. -/
def isObjectType : Definition → Bool
  | .type f => f.form = .object
  | _ => false

namespace Account

/-- The object types, declared or made, each with the properties it is for. -/
def objects (a : Account) : List (List (String × Property Node) × TypeDef) :=
  a.declared.filterMap declaredObject? ++ a.made.map fun w => (w.site.properties, w.definition)

/-- The declared unions: their alternatives and their members. -/
def unions (a : Account) : List (List Node × List String) := a.declared.filterMap declaredUnion?

/-- The number of properties without a field. There are never more fields than properties
(`objects_keep`), nor members than alternatives (`unions_join`). -/
def missingFields (a : Account) : Nat :=
  (a.objects.map fun e => e.1.length - e.2.fields.length).sum

/-- The number of alternatives without a member. -/
def missingMembers (a : Account) : Nat := (a.unions.map fun e => e.1.length - e.2.length).sum

/-- There is a field for every property, a member for every alternative, and a definition for every
declaration but unions of nothing. -/
structure Complete (a : Account) (s : Settings) : Prop where
  fields : ∀ e ∈ a.objects, List.Forall₂ (fun f p => ∃ t, f = makeField s p.1 p.2 t) e.2.fields e.1
  members : ∀ e ∈ a.unions, List.Forall₂ (Stands s a.made) e.2 e.1
  declarations : ∀ e ∈ a.declared, e.2 = none → ∃ es, e.1.node.kind = .or es ∧ flattenAll es = []

end Account

section
variable {s : Settings} {made : List Synthesis} {t : Declaration} {f : Option TypeDef}

/-- A declared object has a definition, whatever becomes of its properties. -/
theorem Fate.depicts_of_object (h : Fate s made t f) {ps : List (String × Property Node)} {x : Bool}
    (hkind : t.node.kind = .object ps x) : ∃ g, f = some g ∧
      Depicts s t.name t.node.annotations ps g := by
  cases h with
  | object hkind' hf =>
    obtain ⟨rfl, -⟩ := Kind.object.inj (hkind.symm.trans hkind')
    exact ⟨_, rfl, hf⟩
  | leaf hleaf =>
    rw [IsLeaf, hkind] at hleaf
    exact hleaf.elim
  | union hkind' => cases hkind.symm.trans hkind'
  | dropped hkind' => cases hkind.symm.trans hkind'
  | unsupported h =>
    rw [isUnsupported, hkind] at h
    cases h

/-- The members of a declared union are for its alternatives, in order. -/
theorem Fate.joins_of_or (h : Fate s made t f) {es : List Node} (hkind : t.node.kind = .or es) :
    Joins s made (f.elim [] TypeDef.members) (flattenAll es) := by
  cases h with
  | object hkind' => cases hkind.symm.trans hkind'
  | leaf hleaf =>
    rw [IsLeaf, hkind] at hleaf
    exact hleaf.elim
  | union hkind' hms =>
    obtain rfl := Kind.or.inj (hkind.symm.trans hkind')
    exact hms
  | dropped | unsupported => exact .nil

/-- Only a union or what has no counterpart is not converted. -/
theorem Fate.of_none (h : Fate s made t none) :
    (∃ es, t.node.kind = .or es) ∨ isUnsupported s t = true := by
  cases h with
  | dropped hkind => exact .inl ⟨_, hkind⟩
  | unsupported h => exact .inr h

/-- The definition of a declaration is an object type if it declares an object. -/
theorem Fate.filter_object (h : Fate s made t f) :
    f.filter (fun f => f.form = .object) = (declaredObject? (t, f)).map Prod.snd := by
  cases h with
  | object hkind hf =>
    obtain ⟨fs, -, rfl⟩ := hf
    rw [declaredObject?, hkind]
    rfl
  | leaf hleaf =>
    obtain ⟨name, ⟨k, a, l⟩⟩ := t
    cases k with
    | object => exact hleaf.elim
    | _ => rfl
  | union hkind | dropped hkind =>
    rw [declaredObject?, hkind]
    rfl
  | unsupported =>
    unfold declaredObject?
    split <;> rfl

/-- What one declaration lacks is fields, members, or the definition. -/
theorem Fate.shortfall_eq (h : Fate s made t f) :
    shortfall s t f = ((declaredObject? (t, f)).elim 0 fun e => e.1.length - e.2.fields.length) +
      ((declaredUnion? (t, f)).elim 0 fun e => e.1.length - e.2.length) +
      if isUnsupported s t then 1 else 0 := by
  obtain ⟨name, ⟨k, a, l⟩⟩ := t
  -- The shortfall of an object counts its properties, so that it needs to have a definition.
  cases k with
  | object ps x =>
    obtain ⟨g, rfl, -⟩ := h.depicts_of_object rfl
    rfl
  | or es => cases f <;> simp [shortfall, declaredObject?, declaredUnion?, isUnsupported]
  | _ => exact (Nat.zero_add _).symm

theorem sum_shortfall {declared : List (Declaration × Option TypeDef)}
    (h : ∀ e ∈ declared, Fate s made e.1 e.2) :
    (declared.map fun e => shortfall s e.1 e.2).sum =
      ((declared.filterMap declaredObject?).map fun e => e.1.length - e.2.fields.length).sum +
      ((declared.filterMap declaredUnion?).map fun e => e.1.length - e.2.length).sum +
      (declared.map Prod.fst).countP (isUnsupported s) := by
  induction declared with
  | nil => rfl
  | cons e declared ih =>
    have hhead := (h e List.mem_cons_self).shortfall_eq
    have htail := ih fun e' he' => h e' (List.mem_cons_of_mem _ he')
    rw [List.map_cons, List.sum_cons, hhead, htail]
    simp only [List.filterMap_cons, List.map_cons, List.countP_cons]
    cases declaredObject? e <;> cases declaredUnion? e <;> simp <;> omega

end

/-! ## Counting on the result -/

section
variable {s : Settings} {d : Document} {c : Converted Sdl.Schema} {a : Account}

theorem Account.Explains.shortfall_eq (h : a.Explains s d c) :
    a.shortfall s = a.missingFields + a.missingMembers + d.types.countP (isUnsupported s) := by
  have hmade : a.made.map Synthesis.missing = (a.made.map fun w =>
      (w.site.properties, w.definition)).map fun e => e.1.length - e.2.fields.length := by
    rw [List.map_map]
    rfl
  rw [Account.shortfall, sum_shortfall h.fates, h.declarations, hmade, Account.missingFields,
    Account.objects, List.map_append, List.sum_append, Account.missingMembers, Account.unions]
  omega

/-- The object types are the ones that stand in the schema. -/
theorem Account.Explains.objects_emitted (h : a.Explains s d c) :
    c.data.filter isObjectType = a.objects.map fun e => .type e.2 := by
  have hdeclared : (a.declared.filterMap Prod.snd).filter (fun f => f.form = .object)
      = (a.declared.filterMap declaredObject?).map Prod.snd := by
    rw [List.filter_filterMap, List.map_filterMap]
    exact List.filterMap_congr fun e he => (h.fates e he).filter_object
  have hmade : (a.made.map Synthesis.definition).filter (fun f => f.form = .object)
      = a.made.map Synthesis.definition := by
    refine List.filter_eq_self.mpr fun f hf => ?_
    obtain ⟨w, hw, rfl⟩ := List.mem_map.mp hf
    obtain ⟨fs, -, hdefinition⟩ := (h.valid w hw).depicts
    rw [hdefinition]
    rfl
  have hfilter : c.data.filter isObjectType
      = (a.definitions.filter fun f => f.form = .object).map .type := by
    rw [h.data, List.filter_map]
    rfl
  rw [hfilter, Account.definitions, List.filter_append, hdeclared, hmade, Account.objects,
    List.map_append, List.map_append, List.map_map, List.map_map, List.map_map]
  rfl

theorem Depicts.keeps {name : String} {x : Model.Annotations} {ps : List (String × Property Node)}
    {f : TypeDef} (h : Depicts s name x ps f) : Keeps s f.fields ps := by
  obtain ⟨fs, hkeeps, rfl⟩ := h
  exact hkeeps

/-- The fields of object types are for properties, in order. -/
theorem Account.Explains.objects_keep (h : a.Explains s d c) :
    ∀ e ∈ a.objects, Keeps s e.2.fields e.1 := by
  intro e he
  rcases List.mem_append.mp he with he | he
  · obtain ⟨⟨t, f⟩, hmem, hobject⟩ := List.mem_filterMap.mp he
    unfold declaredObject? at hobject
    split at hobject
    · next ps x hkind =>
      obtain ⟨g, rfl, hdepicts⟩ := (h.fates _ hmem).depicts_of_object hkind
      obtain rfl := Option.some.inj hobject
      exact hdepicts.keeps
    · cases hobject
  · obtain ⟨w, hw, rfl⟩ := List.mem_map.mp he
    exact (h.valid w hw).depicts.keeps

/-- The members of declared unions are for alternatives, in order. -/
theorem Account.Explains.unions_join (h : a.Explains s d c) :
    ∀ e ∈ a.unions, Joins s a.made e.2 e.1 := by
  intro e he
  obtain ⟨⟨t, f⟩, hmem, hunion⟩ := List.mem_filterMap.mp he
  unfold declaredUnion? at hunion
  split at hunion
  · next es hkind =>
    obtain rfl := Option.some.inj hunion
    exact (h.fates _ hmem).joins_of_or hkind
  · cases hunion

/-- Some of a list in order, and no fewer than there are, is all of it. -/
theorem forall₂_of_no_fewer {α β : Type} {R : α → β → Prop} {xs : List α} {ys : List β}
    (h : List.SublistForall₂ R xs ys) (hlen : ys.length - xs.length = 0) :
    List.Forall₂ R xs ys := by
  obtain ⟨zs, hall, hsub⟩ := List.sublistForall₂_iff.mp h
  have hle : ys.length ≤ zs.length := by
    have := hall.length_eq
    omega
  rwa [hsub.eq_of_length_le hle] at hall

/-- An account that lacks nothing keeps everything. -/
theorem Account.Explains.complete_of_no_shortfall (h : a.Explains s d c)
    (hnone : a.shortfall s = 0) : a.Complete s := by
  rw [h.shortfall_eq] at hnone
  have hfields : a.missingFields = 0 := by omega
  have hmembers : a.missingMembers = 0 := by omega
  have hunsupported : d.types.countP (isUnsupported s) = 0 := by omega
  rw [missingFields, List.sum_eq_zero_iff_forall_eq_nat, List.forall_mem_map] at hfields
  rw [missingMembers, List.sum_eq_zero_iff_forall_eq_nat, List.forall_mem_map] at hmembers
  rw [← h.declarations, List.countP_eq_zero, List.forall_mem_map] at hunsupported
  refine ⟨?_, ?_, ?_⟩
  · exact fun e he => forall₂_of_no_fewer (h.objects_keep e he) (hfields e he)
  · exact fun e he => forall₂_of_no_fewer (h.unions_join e he) (hmembers e he)
  · rintro ⟨t, f⟩ he rfl
    rcases (h.fates _ he).of_none with ⟨es, hkind⟩ | hnot
    · have hunion : declaredUnion? (t, none) = some (flattenAll es, []) := by
        unfold declaredUnion?
        rw [show (t, none).1.node.kind = .or es from hkind]
        rfl
      have hlen := hmembers (flattenAll es, []) (List.mem_filterMap.mpr ⟨_, he, hunion⟩)
      exact ⟨es, hkind, List.eq_nil_of_length_eq_zero hlen⟩
    · exact absurd hnot (hunsupported _ he)

end

/-- **Every loss is reported exactly once**: under the policy that warns there are as many warnings
as properties without a field, alternatives without a member, and declarations that are neither
objects nor unions of anything. Without a warning nothing is missing. -/
theorem every_loss_costs_one {o : Options} {d : Document} (hv : d.version = Document.currentVersion)
    (hn : d.names.Nodup) (hg : o.settings.generator.AlwaysFree) (hp : o.unsupported = .warn) :
    ∃ (c : Converted Sdl.Schema) (a : Account),
      (schema o d).outcome = .ok c ∧ a.Explains o.settings d c ∧
      c.data.filter isObjectType = (a.objects.map fun e => .type e.2) ∧
      (schema o d).warnings.length =
        a.missingFields + a.missingMembers + d.types.countP (isUnsupported o.settings) ∧
      (∀ e ∈ a.objects, Keeps o.settings e.2.fields e.1) ∧
      (∀ e ∈ a.unions, Joins o.settings a.made e.2 e.1) ∧
      ((schema o d).warnings = [] → a.Complete o.settings) := by
  obtain ⟨fates, r, es, hruns, a, hexplains, -, -, hlosses⟩ := declarations_explained hg hn
  have hschema : schema o d = ⟨.ok (collect fates r), es⟩ := by
    rw [schema_of_current o hv, hp]
    exact (run_runs hruns).conclude_warn
  rw [hschema]
  refine ⟨collect fates r, a, rfl, hexplains, hexplains.objects_emitted, ?_,
    hexplains.objects_keep, hexplains.unions_join, fun hnil => ?_⟩
  · exact hlosses.trans hexplains.shortfall_eq
  · refine hexplains.complete_of_no_shortfall ?_
    rw [← hlosses]
    exact congrArg List.length hnil

/-- Losses in every place: inside a nested object, deep inside lists, among the alternatives of a
union, in the object that is one of them, and of declarations themselves. -/
def lossyDocument : Document :=
  let inner := Node.ofKind (.object [("c", ⟨.ofKind (.tuple []), true⟩),
    ("d", ⟨.ofKind .boolean, true⟩)] false)
  let either := Node.ofKind (.or [.ofKind .boolean, .ofKind .integer])
  let lists := Node.ofKind (.array (.ofKind (.array either)))
  .ofTypes [
    ⟨"A", .ofKind (.object [("b", ⟨inner, true⟩), ("e", ⟨lists, true⟩),
      ("f", ⟨.ofKind .number, false⟩)] false)⟩,
    ⟨"U", .ofKind (.or [.ofKind .null, lists,
      .ofKind (.object [("x", ⟨.ofKind .null, true⟩)] false)])⟩,
    ⟨"V", .ofKind (.or [.ofKind (.or [])])⟩,
    ⟨"W", .ofKind (.or [.ofKind .null])⟩,
    ⟨"L", .ofKind (.array (.ofKind .boolean))⟩,
    ⟨"N", .ofKind .null⟩,
    ⟨"R", .ofKind (.ref "A")⟩]

/-- Nothing is lost here, and yet the declaration of no alternatives is not converted. -/
def losslessDocument : Document :=
  let inner := Node.ofKind (.object [("c", ⟨.ofKind .boolean, true⟩)] false)
  let items := Node.ofKind (.or [.ofKind .null, .ofKind .number])
  .ofTypes [
    ⟨"A", .ofKind (.object [("b", ⟨inner, true⟩), ("d", ⟨.ofKind (.array items), false⟩)] false)⟩,
    ⟨"U", .ofKind (.or [.ofKind (.ref "A"), .ofKind (.or [.ofKind (.object [] false)])])⟩,
    ⟨"V", .ofKind (.or [.ofKind (.or [])])⟩]

theorem every_loss_costs_one_lossyDocument :
    (lossyDocument.version = Document.currentVersion ∧ lossyDocument.names.Nodup ∧
      ({} : Options).settings.generator.AlwaysFree ∧ ({} : Options).unsupported = .warn ∧
      lossyDocument.types.countP (isUnsupported ({} : Options).settings) = 3 ∧
      ∃ (c : Converted Sdl.Schema) (a : Account), (schema {} lossyDocument).outcome = .ok c ∧
        a.Explains ({} : Options).settings lossyDocument c ∧
        a.missingFields + a.missingMembers = 6) ∧
    ∃ (c : Converted Sdl.Schema) (a : Account), (schema {} losslessDocument).outcome = .ok c ∧
      a.Explains ({} : Options).settings losslessDocument c ∧ a.Complete ({} : Options).settings ∧
      a.declared.any (fun e => e.2.isNone) = true := by
  have hg : ({} : Options).settings.generator.AlwaysFree := NameGenerator.numbered_alwaysFree
  refine ⟨?_, ?_⟩
  · have hn : lossyDocument.names.Nodup := by decide +kernel
    have hcount : lossyDocument.types.countP (isUnsupported ({} : Options).settings) = 3 := by
      decide +kernel
    have hwarnings : (schema {} lossyDocument).warnings.length = 9 := by decide +kernel
    obtain ⟨c, a, hc, hexplains, -, hsum, -⟩ :=
      every_loss_costs_one (o := {}) (d := lossyDocument) rfl hn hg rfl
    refine ⟨rfl, hn, hg, rfl, hcount, c, a, hc, hexplains, ?_⟩
    rw [hwarnings, hcount] at hsum
    omega
  · have hn : losslessDocument.names.Nodup := by decide +kernel
    have hnone : (schema {} losslessDocument).warnings = [] := by
      have hlen : (schema {} losslessDocument).warnings.length = 0 := by decide +kernel
      exact List.eq_nil_of_length_eq_zero hlen
    have hdropped : ((schema {} losslessDocument).outcome.toOption.map
        Converted.notConvertedTypes) = some ["V"] := by decide +kernel
    obtain ⟨c, a, hc, hexplains, -, -, -, -, hcomplete⟩ :=
      every_loss_costs_one (o := {}) (d := losslessDocument) rfl hn hg rfl
    refine ⟨c, a, hc, hexplains, hcomplete hnone, ?_⟩
    rw [hc] at hdropped
    have hnames : c.notConvertedTypes = ["V"] := Option.some.inj hdropped
    have hmem : "V" ∈ c.notConvertedTypes := hnames ▸ List.mem_singleton_self _
    rw [hexplains.notConverted] at hmem
    obtain ⟨e, he, -⟩ := List.mem_map.mp hmem
    exact List.any_eq_true.mpr ⟨e, List.mem_filter.mp he⟩

end SchemaBridge.Export
