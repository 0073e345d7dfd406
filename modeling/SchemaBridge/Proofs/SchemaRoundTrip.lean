import Mathlib.Tactic.Choose
import SchemaBridge.Proofs.Lossless
import SchemaBridge.Proofs.PlainDescription
/-!
# Schemas survive the way through core types

A schema of object types and unions that core types can express is read as a document and mapped
back to the same definitions, up to the positions they had in their source.

Results:
* `importExport_field`: a field comes back, exclusions of `null` at every depth included.
* `importExport_definition`: so does an object type or a union.
* `schema_survives_core_types`: so does a schema, whatever the options of the mapping back.
-/
namespace SchemaBridge

open Model (Node Kind Property Annotations Declaration Document Location)
open Sdl (TypeRef TypeBody TypeDef Definition Schema Source Field)

/-! ## Positions -/

namespace Sdl

open Export (nowhere scalarNames)

def InputValue.clearPositions (v : InputValue) : InputValue := { v with position := nowhere }

def Field.clearPositions (f : Field) : Field :=
  { f with position := nowhere, arguments := f.arguments.map InputValue.clearPositions }

def EnumValue.clearPositions (v : EnumValue) : EnumValue := { v with position := nowhere }

def TypeBody.clearPositions : TypeBody → TypeBody
  | scalar => scalar
  | object interfaces fields => object interfaces (fields.map Field.clearPositions)
  | interface interfaces fields => interface interfaces (fields.map Field.clearPositions)
  | union members => union members
  | enum values => enum (values.map EnumValue.clearPositions)
  | input fields => input (fields.map InputValue.clearPositions)

def TypeDef.clearPositions (d : TypeDef) : TypeDef :=
  { d with position := nowhere, body := d.body.clearPositions }

/-! ## Definitions that core types express -/

/-- A field that is a name and a type and nothing else. -/
structure Field.Plain (f : Field) : Prop where
  description : f.description = none
  arguments : f.arguments = []
  directives : f.directives = []
  type : f.type.WellFormed

/-- Fields under different names, or members that are not a single reference. -/
inductive TypeBody.Plain : TypeBody → Prop
  | object {fs : List Field} (hfields : ∀ f ∈ fs, f.Plain) (hnames : (fs.map Field.name).Nodup) :
    Plain (.object [] fs)
  | union {ms : List String} (h : 2 ≤ ms.length) : Plain (.union ms)
  | scalarUnion {m : String} (h : m ∈ scalarNames) : Plain (.union [m])

structure TypeDef.Plain (d : TypeDef) : Prop where
  description : d.description = none
  directives : d.directives = []
  body : d.body.Plain

end Sdl

/-! ## Fields -/

open Import (kindOfName typeNode property properties annotated)
open Export (FieldType fieldType makeField)

section
variable {s : Export.Settings} {source : Source}

/-- Nothing is described where nothing was described. -/
theorem describe_annotated (kind : Kind) (title : String) (p : Text.Position) :
    s.describe (annotated source kind none title p).annotations = none :=
  Description.write?_plain (Description.plain_title (some title)) s.includeComment

theorem fieldType_property (base hint owner : String) {f : Field} (hf : f.type.WellFormed) :
    fieldType s base hint (property source owner f).node = pure (some ⟨f.type.strip, false⟩) :=
  Export.fieldType_typeNode s base hint owner hf _ _

/-- A field comes back from the property it was read as. -/
theorem importExport_field (owner : String) {f : Field} (hf : f.Plain) :
    makeField s f.name (property source owner f) ⟨f.type.strip, false⟩ = f.clearPositions := by
  obtain ⟨position, description, name, arguments, type, directives⟩ := f
  obtain ⟨rfl, rfl, rfl, htype⟩ := hf
  have hreq := TypeRef.requireIf_strip htype
  unfold makeField Field.clearPositions property
  rw [describe_annotated]
  simp only [Bool.not_false, Bool.and_true, hreq, List.map_nil]

theorem fields_properties (owner : String) {fs : List Field} (hfields : ∀ f ∈ fs, f.Plain)
    (hnames : (fs.map Field.name).Nodup) :
    Export.fields s owner (properties source owner fs) = pure (fs.map Field.clearPositions) := by
  have htypes : ∀ f ∈ fs, fieldType s owner f.name (property source owner f).node
      = pure (some ⟨f.type.strip, false⟩) :=
    fun f hf => fieldType_property owner f.name owner (hfields f hf).type
  have hback : ∀ f ∈ fs, makeField s f.name (property source owner f) ⟨f.type.strip, false⟩
      = f.clearPositions :=
    fun f hf => importExport_field owner (hfields f hf)
  rw [Import.properties_of_nodup owner hnames, Export.fields_of_types htypes, List.map_congr_left hback]

/-! ## Definitions -/

/-- An object type or a union is declared, and the declaration is mapped back to it. -/
theorem importExport_definition {d : TypeDef} (hd : d.Plain) (source : Source) :
    ∃ t : Declaration, t.name = d.name ∧
      (∀ i, Import.definition source i (.type d) = .declared t) ∧
      ∀ s i, Export.declaration s i t = pure (some d.clearPositions) := by
  obtain ⟨position, description, name, directives, body⟩ := d
  obtain ⟨rfl, rfl, hbody⟩ := hd
  cases hbody with
  | @object fs hfields hnames =>
    refine ⟨_, rfl, fun i => rfl, ?_⟩
    intro s i
    have hfs : Export.fields s name (properties source name fs) = pure (fs.map Field.clearPositions) :=
      fields_properties name hfields hnames
    show (Export.fields s name (properties source name fs) >>= _) = _
    rw [hfs, pure_bind, Export.objectDef, describe_annotated]
    rfl
  | @union ms h =>
    have hkind := Import.unionKind?_of_two h
    have hnames : (ms.map fun m => Node.ofKind (kindOfName m)).map Node.kind = ms.map kindOfName := by
      simp [Node.ofKind, Function.comp_def]
    have hne : ms ≠ [] := by
      rintro rfl
      simp at h
    refine ⟨⟨name, annotated source (.or (ms.map fun m => .ofKind (kindOfName m))) none name position⟩,
      rfl, ?_, ?_⟩
    · intro i
      simp only [Import.definition, hkind, Import.declare]
    · intro s i
      have hunion := Export.union_of_names (s := s) hnames hne name
      show Export.union s name _ (ms.map fun m => .ofKind (kindOfName m)) = _
      rw [hunion, Export.unionDef, describe_annotated]
      rfl
  | @scalarUnion m h =>
    refine ⟨⟨name, annotated source (kindOfName m) none name position⟩, rfl, fun i => rfl, ?_⟩
    intro s i
    have hunion := Export.declaration_scalar (s := s) h i name
      (annotated source (kindOfName m) none name position).annotations
    rw [Export.unionDef, describe_annotated] at hunion
    exact hunion _

/-! ## Schemas -/

end

/-- **A schema survives the way through core types.** Object types and unions that core types can
express are read without a loss and mapped back to the definitions they were, under every options and
without a synthesized type. At the heart of it, every type reference comes back. -/
theorem schema_survives_core_types {ts : List TypeDef} (hts : ∀ t ∈ ts, t.Plain)
    (io : Import.Options) (source : Source) (o : Export.Options) :
    (∃ d : Document,
      (Import.ofSchema io source (ts.map .type)).outcome = .ok ⟨d, ts.map TypeDef.name, []⟩ ∧
      (Import.ofSchema io source (ts.map .type)).warnings = [] ∧
      (Export.schema o d).outcome
        = .ok ⟨ts.map fun t => .type t.clearPositions, ts.map TypeDef.name, []⟩ ∧
      (Export.schema o d).warnings = [] ∧
      ∀ name, .synthesizing name ∉ (Export.schema o d).events) ∧
    ∀ t : TypeRef, t.WellFormed → ∀ s base hint owner, ∃ m : FieldType,
      fieldType s base hint (typeNode owner t) = pure (some m) ∧
      m.type.requireIf (t.isRequired && !m.nullable) = t := by
  refine ⟨?_, ?_⟩
  · have : Nonempty Declaration := ⟨⟨"", .ofKind .null⟩⟩
    have hparts := fun t ht => importExport_definition (hts t ht) source
    choose! declared hname hdecl hback using hparts
    have hin := Import.ofSchema_of_declared (o := io) hdecl
    have hout := Export.schema_of_declared (o := o) fun t ht i => hback t ht o.settings i
    have hnames : (ts.map fun t => (declared t).name) = ts.map TypeDef.name :=
      List.map_congr_left hname
    refine ⟨.ofTypes (ts.map declared), ?_, ?_, ?_, ?_, ?_⟩
    · rw [hin, hnames]
    · rw [hin]
      exact losses_converted _ ts
    · rw [hout, hnames]
    · rw [hout]
      exact losses_converted _ ts
    · intro name hmem
      rw [hout] at hmem
      obtain ⟨t, -, ht⟩ := List.mem_map.mp hmem
      cases ht
  · intro t ht s base hint owner
    refine ⟨⟨t.strip, false⟩, ?_, ?_⟩
    · have := Export.fieldType_typeNode s base hint owner ht (typeNode owner t.strip).annotations
        (typeNode owner t.strip).loc
      rwa [Node.eta, Import.typeNode_strip] at this
    · rw [Bool.not_false, Bool.and_true]
      exact TypeRef.requireIf_strip ht

/-- Lists in lists with and without `null`, a union of a scalar, and a union of two types. -/
def nestedLists : List TypeDef :=
  [⟨⟨1, 1⟩, none, "Grid", [], .object []
      [⟨⟨2, 3⟩, none, "rows", [], .nonNull (.list (.nonNull (.list (.named "Int")))), []⟩,
       ⟨⟨3, 3⟩, none, "parts", [], .list (.list (.nonNull (.named "Grid"))), []⟩]⟩,
   ⟨⟨5, 1⟩, none, "Label", [], .union ["String"]⟩,
   ⟨⟨6, 1⟩, none, "Item", [], .union ["Grid", "Label"]⟩]

theorem nestedLists_plain : ∀ t ∈ nestedLists, t.Plain := by
  intro t ht
  simp only [nestedLists, List.mem_cons, List.not_mem_nil, or_false] at ht
  rcases ht with rfl | rfl | rfl
  · refine ⟨rfl, rfl, .object ?_ (by decide)⟩
    intro f hf
    simp only [List.mem_cons, List.not_mem_nil, or_false] at hf
    rcases hf with rfl | rfl
    · exact ⟨rfl, rfl, rfl, rfl, rfl, trivial⟩
    · exact ⟨rfl, rfl, rfl, rfl, trivial⟩
  · exact ⟨rfl, rfl, .scalarUnion (by decide)⟩
  · exact ⟨rfl, rfl, .union (by decide)⟩

theorem schema_survives_core_types_nestedLists :
    (∀ t ∈ nestedLists, t.Plain) ∧ ∃ d : Document,
      (Import.ofSchema {} (.ofText "") (nestedLists.map .type)).outcome
        = .ok ⟨d, ["Grid", "Label", "Item"], []⟩ ∧
      (Export.schema { includeComment := some true } d).outcome
        = .ok ⟨nestedLists.map fun t => .type t.clearPositions, ["Grid", "Label", "Item"], []⟩ := by
  obtain ⟨⟨d, hin, -, hout, -⟩, -⟩ :=
    schema_survives_core_types nestedLists_plain {} (.ofText "") { includeComment := some true }
  exact ⟨nestedLists_plain, d, hin, hout⟩

end SchemaBridge
