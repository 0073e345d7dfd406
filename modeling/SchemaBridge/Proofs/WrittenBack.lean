import Mathlib.Data.List.Basic
import Mathlib.Tactic.Choose
import SchemaBridge.Proofs.Lossless
/-!
# Schemas written back

Object types, enums and unions with a member are read without a loss. When the document is written
back, every type of a field has a counterpart again, and so has every declaration but one kind: a
union of a single member is read as that member, which for a scalar is declared as before, while for
any other type it is a reference, and a declared reference has no definition.

Results:
* `exists_fieldType_typeNode`: every type reference is mapped once it was read.
* `declarations_runs_of`: declarations of which some are lost, each at its index.
* `schema_written_back`: only the aliases are not written back, for one warning each.
* `alias_not_written_back`: such a union is indeed lost.
-/
namespace SchemaBridge

open Model (Node Kind Property Annotations Declaration Document Location)
open Sdl (TypeRef TypeDef TypeBody Definition Schema Source Field)

/-! ## Definitions that are declared -/

namespace Sdl

/-- An object type, an enum, or a union with a member. -/
def TypeBody.declares : TypeBody → Bool
  | object .. | enum _ => true
  | union members => !members.isEmpty
  | scalar | interface .. | input _ => false

/-- A union whose only member is no scalar, and so another name for this member. -/
def TypeBody.isAlias : TypeBody → Bool
  | union [member] => decide (member ∉ Export.scalarNames)
  | _ => false

def Definition.declares : Definition → Bool
  | type t => t.body.declares
  | _ => false

def Definition.isAlias : Definition → Bool
  | type t => t.body.isAlias
  | _ => false

end Sdl

/-! ## Types of fields -/

namespace Export

open Import (typeNode kindOfName)

section
variable (s : Settings) (base hint : String)

/-- A node that was read for a type reference has a type again, whatever is excluded in it. -/
theorem exists_fieldType_typeNode (owner : String) (t : TypeRef) (a : Annotations)
    (l : Option Location) :
    ∃ m, fieldType s base hint ⟨(typeNode owner t).kind, a, l⟩ = pure (some m) := by
  induction t generalizing a l with
  | named name => exact ⟨_, fieldType_kindOfName s base hint name a l⟩
  | nonNull inner ih => exact ih a l
  | list item ih =>
    obtain ⟨m, hm⟩ := ih (typeNode owner item).annotations (typeNode owner item).loc
    rw [Node.eta] at hm
    rw [Import.typeNode_list]
    cases hr : item.isRequired with
    | true =>
      rw [if_pos rfl, Import.typeNode_strip]
      exact ⟨_, fieldType_array s base hint hm a l⟩
    | false =>
      have hor : fieldType s base hint (.ofKind (.or [.ofKind .null, typeNode owner item]))
          = pure (some ⟨m.type, true⟩) :=
        fieldType_orNull s base hint (isSingle_typeNode owner item) hm rfl .empty none
      rw [if_neg Bool.false_ne_true]
      exact ⟨_, fieldType_array s base hint hor a l⟩

end

section
variable {s : Settings}

/-- The properties that were read for fields have fields again. -/
theorem exists_fields_properties (s : Settings) (source : Source) (owner : String) (fs : List Field) :
    ∃ gs, fields s owner (Import.properties source owner fs) = pure gs := by
  have htypes : ∀ p : String × Property Node, ∃ m : FieldType,
      p ∈ Import.properties source owner fs → fieldType s owner p.1 p.2.node = pure (some m) := by
    intro p
    by_cases hp : p ∈ Import.properties source owner fs
    · obtain ⟨f, -, rfl⟩ := List.mem_map.mp (Keyed.mem_of_mem_ofEntries hp)
      obtain ⟨m, hm⟩ := exists_fieldType_typeNode s owner f.name owner f.type.strip _ _
      exact ⟨m, fun _ => hm⟩
    · exact ⟨⟨.named "", false⟩, fun hmem => absurd hmem hp⟩
  choose t ht using htypes
  have hfields := fields_of_types (p := id) (t := t) ht
  rw [List.map_id] at hfields
  exact ⟨_, hfields⟩

/-! ## Declarations -/

/-- Declarations that have a definition or are lost at their index. -/
theorem declarations_runs_of {α : Type} {t : α → Declaration} {f : α → Option TypeDef} {as : List α}
    (h : ∀ a ∈ as, ∀ i, declaration s i (t a)
      = (f a).elim (lose (t a).node (some [.index i])) fun d => pure (some d))
    (i : Nat) (r : Registry) :
    ∃ es, (declarations s i (as.map t)).Runs r (as.map fun a => ((t a).name, f a)) r es ∧
      losses es = ((as.zipIdx i).filter fun p => (f p.1).isNone).map
        fun p => lossOf (t p.1).node (some [.index p.2]) := by
  have hdeclaration : ∀ a ∈ as, ∀ i r, (declaration s i (t a)).Runs r (f a) r
      ((f a).elim [.lost (lossOf (t a).node (some [.index i]))] fun _ => []) := by
    intro a ha i r
    rw [h a ha i]
    cases f a with
    | some d => exact .pure _ r
    | none => exact (Mapping.Runs.lift (.lose _) r).bind_pure fun _ => none
  refine ⟨_, declarations_runs_through hdeclaration i r, ?_⟩
  induction as.zipIdx i with
  | nil => rfl
  | cons p ps ih =>
    rw [List.flatMap_cons, losses_append, ih]
    cases hp : f p.1 <;> simp [hp, losses, conclusion, Event.loss?]

end

end Export

/-! ## Definitions read and written back -/

theorem Import.kindOfName_of_not_mem {name : String} (h : name ∉ Export.scalarNames) :
    Import.kindOfName name = .ref name := by
  simp only [Export.scalarNames, List.mem_cons, List.not_mem_nil, or_false, not_or] at h
  obtain ⟨hboolean, hint, hfloat, hstring⟩ := h
  rw [Import.kindOfName, if_neg hboolean, if_neg hint, if_neg hfloat, if_neg hstring]

/-- A definition is read as a declaration, which has a definition again or is lost as a reference. -/
structure ReadAndWritten (source : Source) (s : Export.Settings) (d : Definition) (t : Declaration)
    (back : Option TypeDef) : Prop where
  name : d.name? = some t.name
  read : ∀ i, Import.definition source i d = .declared t
  written : ∀ i, Export.declaration s i t
    = back.elim (Export.lose t.node (some [.index i])) fun b => pure (some b)
  kind_of_lost : back = none → t.node.kindName = "ref"

section
variable (source : Source) (s : Export.Settings)

/-- The declaration of a type definition as a kind of core type. -/
def declarationOf (d : TypeDef) (kind : Kind) : Declaration :=
  ⟨d.name, Import.annotated source kind d.description d.name d.position⟩

/-- A definition is read as the declaration that is written back. -/
theorem exists_readAndWritten {d : TypeDef} (kind : Kind)
    (hread : ∀ i, Import.definition source i (.type d) = Import.declare source d kind)
    (hwritten : ∃ b, ∀ i, Export.declaration s i (declarationOf source d kind) = pure (some b)) :
    ∃ t b, ReadAndWritten source s (.type d) t (some b) := by
  obtain ⟨b, hb⟩ := hwritten
  exact ⟨declarationOf source d kind, b, rfl, hread, hb, fun h => by cases h⟩

theorem readAndWritten_object {d : TypeDef} {interfaces : List String} {fs : List Field}
    (hbody : d.body = .object interfaces fs) :
    ∃ t b, ReadAndWritten source s (.type d) t (some b) := by
  obtain ⟨gs, hgs⟩ := Export.exists_fields_properties s source d.name fs
  let kind : Kind := .object (Import.properties source d.name fs) false
  have hwritten : ∀ i, Export.declaration s i (declarationOf source d kind) = pure
      (some (Export.objectDef s d.name (declarationOf source d kind).node.annotations gs)) := by
    intro i
    show (Export.fields s d.name (Import.properties source d.name fs) >>= _) = _
    rw [hgs, pure_bind]
    rfl
  refine exists_readAndWritten source s kind (fun i => ?_) ⟨_, hwritten⟩
  simp only [Import.definition, hbody, kind]

theorem readAndWritten_enum {d : TypeDef} {values : List Sdl.EnumValue}
    (hbody : d.body = .enum values) : ∃ t b, ReadAndWritten source s (.type d) t (some b) := by
  refine exists_readAndWritten source s (.string (some (values.map Sdl.EnumValue.name)))
    (fun i => ?_) ⟨_, fun i => rfl⟩
  simp only [Import.definition, hbody]

theorem readAndWritten_scalarUnion {d : TypeDef} {member : String} (hbody : d.body = .union [member])
    (hscalar : member ∈ Export.scalarNames) :
    ∃ t b, ReadAndWritten source s (.type d) t (some b) := by
  refine exists_readAndWritten source s (Import.kindOfName member) (fun i => ?_)
    ⟨_, fun i => Export.declaration_scalar hscalar i d.name _ _⟩
  simp only [Import.definition, hbody, Import.unionKind?]

theorem readAndWritten_union {d : TypeDef} {members : List String} (hbody : d.body = .union members)
    (htwo : 2 ≤ members.length) : ∃ t b, ReadAndWritten source s (.type d) t (some b) := by
  have hnames : (members.map fun m => Node.ofKind (Import.kindOfName m)).map Node.kind
      = members.map Import.kindOfName := by
    simp [Node.ofKind, Function.comp_def]
  have hne : members ≠ [] := by
    rintro rfl
    simp at htwo
  refine exists_readAndWritten source s (.or (members.map fun m => .ofKind (Import.kindOfName m)))
    (fun i => ?_) ⟨_, fun i => Export.union_of_names hnames hne d.name _⟩
  simp only [Import.definition, hbody, Import.unionKind?_of_two htwo]

theorem readAndWritten_alias {d : TypeDef} {member : String} (hbody : d.body = .union [member])
    (href : member ∉ Export.scalarNames) : ∃ t, ReadAndWritten source s (.type d) t none := by
  refine ⟨declarationOf source d (.ref member), rfl, ?_, fun i => rfl, fun _ => rfl⟩
  intro i
  simp only [Import.definition, hbody, Import.unionKind?, Import.kindOfName_of_not_mem href]
  rfl

/-- A definition that is declared has a definition again, unless it is an alias. -/
theorem readAndWritten_of_declares {d : Definition} (hd : d.declares = true) :
    ∃ t back, ReadAndWritten source s d t back ∧ back.isNone = d.isAlias := by
  obtain ⟨d, rfl⟩ : ∃ t, d = .type t := by
    cases d with
    | type t => exact ⟨t, rfl⟩
    | schema | extension | directive => cases hd
  have hdeclares : d.body.declares = true := hd
  have halias : (Definition.type d).isAlias = d.body.isAlias := rfl
  rw [halias]
  cases hbody : d.body with
  | scalar | interface | input =>
    rw [hbody] at hdeclares
    cases hdeclares
  | object interfaces fs =>
    obtain ⟨t, b, h⟩ := readAndWritten_object source s hbody
    exact ⟨t, some b, h, rfl⟩
  | enum values =>
    obtain ⟨t, b, h⟩ := readAndWritten_enum source s hbody
    exact ⟨t, some b, h, rfl⟩
  | union members =>
    match members with
    | [] =>
      rw [hbody] at hdeclares
      cases hdeclares
    | [member] =>
      by_cases hscalar : member ∈ Export.scalarNames
      · obtain ⟨t, b, h⟩ := readAndWritten_scalarUnion source s hbody hscalar
        exact ⟨t, some b, h, (decide_eq_false (not_not_intro hscalar)).symm⟩
      · obtain ⟨t, h⟩ := readAndWritten_alias source s hbody hscalar
        exact ⟨t, none, h, (decide_eq_true hscalar).symm⟩
    | first :: second :: others =>
      obtain ⟨t, b, h⟩ := readAndWritten_union source s hbody (by simp)
      exact ⟨t, some b, h, rfl⟩

end

/-! ## Schemas -/

/-- What collecting declarations lists, if it is known which of them are lost. -/
theorem Export.collect_of_known {s : Schema} {t : Definition → Declaration}
    {back : Definition → Option TypeDef} {lost : Definition → Bool} (r : Export.Registry)
    (hname : ∀ d ∈ s, d.name? = some (t d).name) (hlost : ∀ d ∈ s, (back d).isNone = lost d) :
    ∃ schema, Export.collect (s.map fun d => ((t d).name, back d)) r
      = ⟨schema, (s.filter fun d => !lost d).filterMap Definition.name?,
        (s.filter lost).filterMap Definition.name?⟩ := by
  have hconverted : s.filter (fun d => (back d).isSome) = s.filter fun d => !lost d := by
    refine List.filter_congr fun d hd => ?_
    rw [← hlost d hd, Option.not_isNone]
  have hmissing : s.filter (fun d => (back d).isNone) = s.filter lost := List.filter_congr hlost
  have hnames : ∀ p : Definition → Bool,
      (s.filter p).filterMap Definition.name? = (s.filter p).map fun d => (t d).name := fun p =>
    List.filterMap_eq_map_iff_forall_eq_some.mpr fun d hd => hname d (List.mem_filter.mp hd).1
  rw [hnames, hnames, ← hconverted, ← hmissing]
  simp only [Export.collect, List.filter_map, List.map_map, Function.comp_def]
  exact ⟨_, rfl⟩

/-- **Schemas are written back, but for aliases.** If a text holds nothing but object types, enums
and unions with a member, then every definition is declared in the document it is read as. Written
back under any options that ask for warnings, every declaration is converted except the aliases,
which are listed as not converted, in order and each with a single warning, at its index; there is no
other warning. -/
theorem schema_written_back {text : String} {s : Schema} (hread : Sdl.readSchema text = .ok s)
    (hs : ∀ d ∈ s, d.declares = true) (io : Import.Options) (o : Export.Options) :
    ∃ (document : Document) (schema : Schema),
      (Import.document io text).outcome = .ok ⟨document, s.filterMap Definition.name?, []⟩ ∧
      document.names = s.filterMap Definition.name? ∧
      (Export.schema { o with unsupported := .warn } document).outcome
        = .ok ⟨schema, (s.filter fun d => !d.isAlias).filterMap Definition.name?,
          (s.filter Definition.isAlias).filterMap Definition.name?⟩ ∧
      (Export.schema { o with unsupported := .warn } document).warnings.map
          (fun loss => (loss.message, loss.path))
        = (s.zipIdx.filter fun p => p.1.isAlias).map
          fun p => ("Type 'ref' not supported", some [.index p.2]) := by
  let source : Source := .ofText text
  have : Nonempty Declaration := ⟨⟨"", .ofKind .null⟩⟩
  have hparts := fun d hd => readAndWritten_of_declares source o.settings (hs d hd)
  choose! t back hboth hlost using hparts
  have hname : ∀ d ∈ s, d.name? = some (t d).name := fun d hd => (hboth d hd).name
  have hnames : s.filterMap Definition.name? = s.map fun d => (t d).name :=
    List.filterMap_eq_map_iff_forall_eq_some.mpr hname
  have hin := Import.ofSchema_of_declared (o := io) (d := id) fun d hd => (hboth d hd).read
  rw [List.map_id] at hin
  let document : Document := .ofTypes (s.map t)
  obtain ⟨es, hruns, hlosses⟩ := Export.declarations_runs_of
    (fun d hd => (hboth d hd).written) 0 (Export.initialRegistry document)
  have hrun : (Export.run o.settings document).Runs _ es :=
    Reporting.Runs.bind_pure hruns fun p => Export.collect p.1 p.2
  obtain ⟨schema, hcollect⟩ :=
    Export.collect_of_known (Export.initialRegistry document) hname hlost
  have hout : Export.schema { o with unsupported := .warn } document = _ :=
    (Export.schema_of_current _ rfl).trans hrun.conclude_warn
  refine ⟨document, schema, ?_, ?_, ?_, ?_⟩
  · rw [Import.document_of_readSchema hread, hnames]
    exact congrArg Conversion.outcome hin
  · rw [hnames]
    exact List.map_map
  · rw [hout]
    exact congrArg Except.ok hcollect
  · have hfilter : (s.zipIdx.filter fun p => (back p.1).isNone)
        = s.zipIdx.filter fun p => p.1.isAlias :=
      List.filter_congr fun p hp => hlost p.1 (List.fst_mem_of_mem_zipIdx hp)
    rw [hout]
    show (losses es).map _ = _
    rw [hlosses, List.map_map, hfilter]
    refine List.map_congr_left fun p hp => ?_
    obtain ⟨hp, halias⟩ := List.mem_filter.mp hp
    have hd := List.fst_mem_of_mem_zipIdx hp
    have hback : back p.1 = none := Option.isNone_iff_eq_none.mp ((hlost p.1 hd).trans halias)
    have hkind := (hboth p.1 hd).kind_of_lost hback
    show (("Type '" ++ (t p.1).node.kindName ++ "' not supported" : String), _) = _
    rw [hkind]
    rfl

/-- An object type, an enum, and unions of a scalar, of a single type and of two types. -/
def declaredForms : String :=
  "type Line\x7bends:[Dot!]!\x7d enum Color\x7bRED\x7d "
    ++ "union Label=Int union Alias=Line union Shape=Line|Dot"

theorem schema_written_back_declaredForms :
    ∃ (s : Schema) (document : Document) (schema : Schema),
      Sdl.readSchema declaredForms = .ok s ∧ (∀ d ∈ s, d.declares = true) ∧
      (Import.document {} declaredForms).outcome
        = .ok ⟨document, ["Line", "Color", "Label", "Alias", "Shape"], []⟩ ∧
      (Export.schema {} document).outcome
        = .ok ⟨schema, ["Line", "Color", "Label", "Shape"], ["Alias"]⟩ ∧
      (Export.schema {} document).warnings.map (fun loss => (loss.message, loss.path))
        = [("Type 'ref' not supported", some [.index 3])] := by
  have hfacts : (Sdl.readSchema declaredForms).toOption.map (fun s =>
      (s.all Definition.declares, s.filterMap Definition.name?,
        (s.filter fun d => !d.isAlias).filterMap Definition.name?,
        (s.filter Definition.isAlias).filterMap Definition.name?,
        (s.zipIdx.filter fun p => p.1.isAlias).map Prod.snd))
      = some (true, ["Line", "Color", "Label", "Alias", "Shape"],
        ["Line", "Color", "Label", "Shape"], ["Alias"], [3]) := by
    decide +kernel
  obtain ⟨s, hread, hs⟩ := exists_ok_of_map hfacts
  simp only [Prod.mk.injEq, List.all_eq_true] at hs
  obtain ⟨hdeclares, hnames, hconverted, hmissing, hindices⟩ := hs
  obtain ⟨document, schema, hin, -, hout, hwarnings⟩ := schema_written_back hread hdeclares {} {}
  rw [hnames] at hin
  rw [hconverted, hmissing] at hout
  refine ⟨s, document, schema, hread, hdeclares, hin, hout, hwarnings.trans ?_⟩
  calc _ = ((s.zipIdx.filter fun p => p.1.isAlias).map Prod.snd).map
        fun i => ("Type 'ref' not supported", some [Segment.index i]) := List.map_map.symm
    _ = _ := by rw [hindices]; rfl

/-- An alias is not written back: it is listed as not converted, and there is a warning. -/
theorem alias_not_written_back :
    ∃ (s : Schema) (document : Document) (schema : Schema),
      Sdl.readSchema "union U = A" = .ok s ∧ (∀ d ∈ s, d.declares = true) ∧
      (Import.document {} "union U = A").outcome = .ok ⟨document, ["U"], []⟩ ∧
      (Export.schema {} document).outcome = .ok ⟨schema, [], ["U"]⟩ ∧
      (Export.schema {} document).warnings.length = 1 := by
  have hread : (Sdl.readSchema "union U = A").toOption.map (List.all · Definition.declares)
      = some true := by
    decide +kernel
  have hdocument : (Import.document {} "union U = A").outcome.toOption.map (fun r =>
      (r.convertedTypes, r.notConvertedTypes, (Export.schema {} r.data).warnings.length))
      = some (["U"], [], 1) := by
    decide +kernel
  have hschema : (Import.document {} "union U = A").outcome.toOption.map (fun r =>
      (Export.schema {} r.data).outcome.toOption.map fun r => (r.convertedTypes, r.notConvertedTypes))
      = some (some ([], ["U"])) := by
    decide +kernel
  obtain ⟨s, hs, hdeclares⟩ := exists_ok_of_map hread
  obtain ⟨⟨document, read, lost⟩, hin, hfacts⟩ := exists_ok_of_map hdocument
  obtain ⟨r, hin', hboth⟩ := exists_ok_of_map hschema
  obtain rfl := Except.ok.inj (hin.symm.trans hin')
  obtain ⟨⟨schema, converted, missing⟩, hout, hnames⟩ := exists_ok_of_map hboth
  simp only [Prod.mk.injEq] at hfacts hnames
  obtain ⟨rfl, rfl, hwarnings⟩ := hfacts
  obtain ⟨rfl, rfl⟩ := hnames
  exact ⟨s, document, schema, hs, List.all_eq_true.mp hdeclares, hin, hout, hwarnings⟩

end SchemaBridge
