import Mathlib.Tactic.Choose
import SchemaBridge.Proofs.Lossless
import SchemaBridge.Proofs.PlainDescription
/-!
# Documents survive the way through GraphQL

A document whose core types GraphQL can express without a type of its own making is mapped to
definitions that are read back as the same document. Titles and locations are not written, and are
given anew when the definitions are read.

Results:
* `Translatable.exists_typeRef`: the type of a property has a type reference that is read as it.
* `exportImport_declaration`: a declaration is mapped to a definition that is declared as it.
* `document_survives_graphql`: a document comes back up to titles and locations.
-/
namespace SchemaBridge

open Model (Node Kind Property Properties Annotations Declaration Document Location)
open Sdl (TypeRef TypeDef Definition Schema Source Field)
open Import (kindOfName typeNode annotated)
open Export (scalarNames FieldType fieldType makeField)

/-! ## Titles and locations -/

namespace Model

def Annotations.untitled (a : Annotations) : Annotations := { a with title := none }

mutual

/-- The kind without titles and locations at any depth. -/
def Kind.bare : Kind → Kind
  | .array e => .array e.bare
  | .tuple es => .tuple (bareAll es)
  | .object ps x => .object (bareProperties ps) x
  | .or es => .or (bareAll es)
  | k => k
termination_by structural k => k

/-- The node without titles and locations at any depth. -/
def Node.bare : Node → Node
  | ⟨k, a, _⟩ => ⟨k.bare, a.untitled, none⟩
termination_by structural n => n

def bareAll : List Node → List Node
  | [] => []
  | n :: ns => n.bare :: bareAll ns
termination_by structural ns => ns

def bareProperties : List (String × Property Node) → List (String × Property Node)
  | [] => []
  | (name, ⟨n, required⟩) :: ps => (name, ⟨n.bare, required⟩) :: bareProperties ps
termination_by structural ps => ps

end

theorem bareAll_eq_map (ns : List Node) : bareAll ns = ns.map Node.bare := by
  induction ns with
  | nil => rfl
  | cons n ns ih => rw [bareAll, ih, List.map_cons]

def Property.bare (p : Property Node) : Property Node := { p with node := p.node.bare }

theorem bareProperties_eq_map (ps : List (String × Property Node)) :
    bareProperties ps = ps.map fun p => (p.1, p.2.bare) := by
  induction ps with
  | nil => rfl
  | cons p ps ih =>
    rw [bareProperties, ih, List.map_cons]
    rfl

theorem Node.bare_eq (n : Node) : n.bare = ⟨n.kind.bare, n.annotations.untitled, none⟩ := by
  cases n
  rfl

def Declaration.bare (t : Declaration) : Declaration := { t with node := t.node.bare }

/-- The document without titles and locations at any depth. -/
def Document.bare (d : Document) : Document := { d with types := d.types.map Declaration.bare }

/-- At most a title. -/
def Annotations.OnlyTitle (a : Annotations) : Prop := a.untitled = .empty

/-! ## Core types that GraphQL expresses -/

/-- A scalar without a list of values. -/
inductive Kind.Scalar : Kind → Prop
  | boolean : Scalar .boolean
  | integer : Scalar .integer
  | number : Scalar .number
  | string : Scalar .anyString

/-- A scalar, or a reference that is not taken for one. -/
inductive Kind.Leaf : Kind → Prop
  | scalar {k : Kind} (h : k.Scalar) : Leaf k
  | ref {target : String} (h : target ∉ scalarNames) : Leaf (.ref target)

/-- A leaf, or lists of leaves in any depth whose items may be `null` or not. -/
inductive Kind.Translatable : Kind → Prop
  | leaf {k : Kind} (h : k.Leaf) : Translatable k
  | list {k : Kind} {a : Annotations} {l : Option Location} (h : k.Translatable)
    (ha : a.OnlyTitle) : Translatable (.array ⟨k, a, l⟩)
  | nullableList {k : Kind} {a a₀ a₁ : Annotations} {l l₀ l₁ : Option Location}
    (h : k.Translatable) (ha : a.OnlyTitle) (ha₀ : a₀.OnlyTitle) (ha₁ : a₁.OnlyTitle) :
    Translatable (.array ⟨.or [⟨.null, a₀, l₀⟩, ⟨k, a, l⟩], a₁, l₁⟩)

/-- A property of a translatable type that is plainly described. -/
structure Property.Translatable (p : Property Node) : Prop where
  kind : p.node.kind.Translatable
  annotations : Description.Plain p.node.annotations

/-- A scalar, an alternative of at least two leaves, or an object of translatable properties. -/
inductive Kind.Declarable : Kind → Prop
  | scalar {k : Kind} (h : k.Scalar) : Declarable k
  | or {es : List Node} (hlen : 2 ≤ es.length)
    (hes : ∀ e ∈ es, e.kind.Leaf ∧ e.annotations.OnlyTitle) : Declarable (.or es)
  | object {ps : Properties} (hkeys : ps.keys.Nodup) (hps : ∀ p ∈ ps, p.2.Translatable) :
    Declarable (.object ps false)

/-- A document of the known version whose declarations are declarable and plainly described. -/
structure Document.Translatable (d : Document) : Prop where
  version : d.version = currentVersion
  kinds : ∀ t ∈ d.types, t.node.kind.Declarable
  annotations : ∀ t ∈ d.types, Description.Plain t.node.annotations

/-! ## Names of leaves -/

theorem Kind.Scalar.exists_name {k : Kind} (h : k.Scalar) :
    ∃ m ∈ scalarNames, k = kindOfName m := by
  cases h with
  | boolean => exact ⟨"Boolean", by decide, rfl⟩
  | integer => exact ⟨"Int", by decide, rfl⟩
  | number => exact ⟨"Float", by decide, rfl⟩
  | string => exact ⟨"String", by decide, rfl⟩

theorem Kind.Leaf.exists_name {k : Kind} (h : k.Leaf) : ∃ m, k = kindOfName m := by
  cases h with
  | scalar h =>
    obtain ⟨m, -, rfl⟩ := h.exists_name
    exact ⟨m, rfl⟩
  | @ref target h =>
    simp only [scalarNames, List.mem_cons, List.not_mem_nil, or_false, not_or] at h
    exact ⟨target, by simp [kindOfName, h]⟩

end Model

/-! ## Properties -/

open Import (property properties)
open Model (bareAll_eq_map bareProperties_eq_map)

theorem onlyTitle_typeNode (owner : String) :
    ∀ t : TypeRef, (typeNode owner t).annotations.OnlyTitle
  | .named _ => rfl
  | .list item => by
    rw [Import.typeNode_list]
    rfl
  | .nonNull inner => onlyTitle_typeNode owner inner

/-- Nodes whose kinds agree and that carry at most a title agree up to titles and locations. -/
theorem bare_eq_of_kind {n m : Node} (hk : n.kind.bare = m.kind.bare) (hn : n.annotations.OnlyTitle)
    (hm : m.annotations.OnlyTitle) : n.bare = m.bare := by
  rw [Node.bare_eq, Node.bare_eq, hk, (hn : _ = _), (hm : _ = _)]

theorem Model.Kind.Translatable.isSingle {k : Kind} (h : k.Translatable) (a : Annotations)
    (l : Option Location) : Export.IsSingle ⟨k, a, l⟩ := by
  cases h with
  | leaf h =>
    obtain ⟨m, rfl⟩ := h.exists_name
    exact Export.isSingle_kindOfName m a l
  | list | nullableList => exact Export.isSingle_array _ a l

/-- A translatable kind is mapped to a type reference that is read as that kind. -/
theorem Model.Kind.Translatable.exists_typeRef {k : Kind} (h : k.Translatable) :
    ∃ t : TypeRef, t.isRequired = false ∧ (∀ owner, (typeNode owner t).kind.bare = k.bare) ∧
      ∀ s base hint a l, fieldType s base hint ⟨k, a, l⟩ = pure (some ⟨t, false⟩) := by
  induction h with
  | leaf h =>
    obtain ⟨m, rfl⟩ := h.exists_name
    have hmap := fun s base hint => Export.fieldType_kindOfName s base hint m
    exact ⟨.named m, rfl, fun _ => rfl, hmap⟩
  | @list k a l _ ha ih =>
    obtain ⟨t, ht, hread, hmap⟩ := ih
    refine ⟨.list (.nonNull t), rfl, ?_, ?_⟩
    · intro owner
      have hitem := bare_eq_of_kind (m := ⟨k, a, l⟩) (hread owner) (onlyTitle_typeNode owner t) ha
      exact congrArg Kind.array hitem
    · intro s base hint a' l'
      have hitem := Export.fieldType_array s base hint (hmap s base hint a l) a' l'
      have hreq : t.requireIf (!false) = .nonNull t := by
        simp [TypeRef.requireIf, TypeRef.require, ht]
      rw [hitem, FieldType.toList, hreq]
  | @nullableList k a a₀ a₁ l l₀ l₁ h ha ha₀ ha₁ ih =>
    obtain ⟨t, ht, hread, hmap⟩ := ih
    refine ⟨.list t, rfl, ?_, ?_⟩
    · intro owner
      have hitem := bare_eq_of_kind (m := ⟨k, a, l⟩) (hread owner) (onlyTitle_typeNode owner t) ha
      have hnull := bare_eq_of_kind (n := .ofKind .null) (m := ⟨.null, a₀, l₀⟩) rfl rfl ha₀
      rw [Import.typeNode_list, if_neg (by simp [ht])]
      show Kind.array ⟨.or [(Node.ofKind .null).bare, (typeNode owner t).bare],
        Annotations.empty.untitled, none⟩ = .array ⟨.or [_, _], a₁.untitled, none⟩
      rw [hnull, hitem, (ha₁ : _ = _)]
      rfl
    -- `null` is flattened out of the alternative again, and leaves its mark on the item only.
    · intro s base hint a' l'
      have hor := Export.fieldType_orNull s base hint (h.isSingle a l) (hmap s base hint a l)
        (rfl : (⟨.null, a₀, l₀⟩ : Node).kind = .null) a₁ l₁
      rw [Export.fieldType_array s base hint hor]
      rfl

section
variable {s : Export.Settings} {source : Source} {a : Annotations}

/-- What was described without sections is read back as it was, with a title of its own. -/
theorem bare_annotated (ha : Description.Plain a) {kind k : Kind} (hk : kind.bare = k.bare)
    (title : String) (p : Text.Position) (l : Option Location) :
    (annotated source kind (s.describe a) title p).bare = (⟨k, a, l⟩ : Node).bare := by
  have hwrite : s.describe a = a.description := Description.write?_plain ha s.includeComment
  have hread := Description.read_plain ha
  rw [Node.bare_eq, Node.bare_eq, annotated, hwrite, hread, hk]
  rfl

/-- A property has a type, and comes back from the field of this type. -/
theorem exportImport_property {p : Property Node} (hp : p.Translatable) :
    ∃ t : FieldType, (∀ s base hint, fieldType s base hint p.node = pure (some t)) ∧
      ∀ (s : Export.Settings) (source : Source) (owner name : String),
        (property source owner (makeField s name p t)).bare = p.bare := by
  obtain ⟨⟨k, a, l⟩, required⟩ := p
  obtain ⟨hk, ha⟩ := hp
  obtain ⟨t, ht, hread, hmap⟩ := hk.exists_typeRef
  refine ⟨⟨t, false⟩, fun s base hint => hmap s base hint a l, ?_⟩
  intro s source owner name
  have hstrip := TypeRef.strip_requireIf ht (required && !false)
  have hreq := TypeRef.isRequired_requireIf ht (required && !false)
  unfold property makeField Property.bare
  simp only [hstrip, hreq]
  rw [bare_annotated ha (hread owner) _ _ l, Bool.not_false, Bool.and_true]

/-- An object of such properties has fields, and its properties come back from them. -/
theorem exportImport_properties {ps : Properties} (hkeys : ps.keys.Nodup)
    (hps : ∀ p ∈ ps, p.2.Translatable) (s : Export.Settings) (owner : String) :
    ∃ fs : List Field, Export.fields s owner ps = pure fs ∧ ∀ source,
      (properties source owner fs).map (fun p => (p.1, p.2.bare))
        = ps.map fun p => (p.1, p.2.bare) := by
  have : Nonempty FieldType := ⟨⟨default, false⟩⟩
  have hparts := fun p hp => exportImport_property (hps p hp)
  choose! t hmap hback using hparts
  have hfields : Export.fields s owner (ps.map id)
      = pure (ps.map fun p => makeField s p.1 p.2 (t p)) :=
    Export.fields_of_types fun p hp => hmap p hp s owner p.1
  rw [List.map_id] at hfields
  refine ⟨_, hfields, ?_⟩
  intro source
  have hnames : ((ps.map fun p => makeField s p.1 p.2 (t p)).map Field.name).Nodup := by
    rw [List.map_map]
    exact hkeys
  show (properties source owner (ps.map fun p => makeField s p.1 p.2 (t p))).map _ = _
  rw [Import.properties_of_nodup owner hnames, List.map_map, List.map_map]
  apply List.map_congr_left
  intro p hp
  exact congrArg (p.1, ·) (hback p hp s source owner p.1)

/-! ## Declarations -/

theorem bare_declared (s : Export.Settings) (source : Source) (ha : Description.Plain a)
    {kind k : Kind} (hk : kind.bare = k.bare) (name : String) (p : Text.Position) (l : Option Location) :
    (⟨name, annotated source kind (s.describe a) name p⟩ : Declaration).bare
      = (⟨name, ⟨k, a, l⟩⟩ : Declaration).bare :=
  congrArg (Declaration.mk name) (bare_annotated ha hk name p l)

/-- Leaves have names, and have them alone if they carry at most a title. -/
theorem exists_names_of_leaves {es : List Node}
    (hes : ∀ e ∈ es, e.kind.Leaf ∧ e.annotations.OnlyTitle) :
    ∃ ns : List String, es.map Node.kind = ns.map kindOfName ∧
      es.map Node.bare = ns.map fun n => (Node.ofKind (kindOfName n)).bare := by
  have hnamed := fun e he => (hes e he).1.exists_name
  choose! name hname using hnamed
  refine ⟨es.map name, ?_, ?_⟩
  · rw [List.map_map]
    exact List.map_congr_left hname
  · rw [List.map_map]
    apply List.map_congr_left
    intro e he
    exact bare_eq_of_kind (congrArg Kind.bare (hname e he)) (hes e he).2 rfl

/-- A declaration has a definition, and is declared again by it. -/
theorem exportImport_declaration {t : Declaration} (hk : t.node.kind.Declarable)
    (ha : Description.Plain t.node.annotations) (s : Export.Settings) :
    ∃ d : TypeDef, (∀ i, Export.declaration s i t = pure (some d)) ∧ ∀ source,
      ∃ t' : Declaration, (∀ i, Import.definition source i (.type d) = .declared t') ∧
        t'.bare = t.bare := by
  obtain ⟨name, ⟨k, a, l⟩⟩ := t
  cases hk with
  | scalar h =>
    obtain ⟨m, hm, rfl⟩ := h.exists_name
    refine ⟨_, fun i => Export.declaration_scalar hm i name a l, ?_⟩
    intro source
    have hback := bare_declared s source ha (Eq.refl (kindOfName m).bare) name Export.nowhere l
    refine ⟨⟨name, annotated source (kindOfName m) (s.describe a) name Export.nowhere⟩, ?_, hback⟩
    intro i
    simp only [Import.definition, Export.unionDef, Import.declare, Import.unionKind?]
  | @or es hlen hes =>
    obtain ⟨ns, hkinds, hbare⟩ := exists_names_of_leaves hes
    have hlength : 2 ≤ ns.length := by
      have := congrArg List.length hkinds
      simp only [List.length_map] at this
      omega
    have hne : ns ≠ [] := by
      rintro rfl
      simp at hlength
    refine ⟨_, fun i => Export.union_of_names hkinds hne name a, ?_⟩
    intro source
    have hkind := Import.unionKind?_of_two hlength
    have hor : (Kind.or (ns.map fun n => .ofKind (kindOfName n))).bare = (Kind.or es).bare := by
      rw [Kind.bare, Kind.bare, bareAll_eq_map, bareAll_eq_map, hbare, List.map_map]
      rfl
    have hback := bare_declared s source ha hor name Export.nowhere l
    refine ⟨⟨name, _⟩, fun i => ?_, hback⟩
    simp only [Import.definition, Export.unionDef, hkind, Import.declare]
  | @object ps hkeys hps =>
    obtain ⟨fs, hfields, hback⟩ := exportImport_properties hkeys hps s name
    refine ⟨Export.objectDef s name a fs, fun i => ?_, ?_⟩
    · show (Export.fields s name ps >>= _) = _
      rw [hfields, pure_bind]
    · intro source
      have hobject : (Kind.object (properties source name fs) false).bare
          = (Kind.object ps false).bare := by
        rw [Kind.bare, Kind.bare, bareProperties_eq_map, bareProperties_eq_map, hback]
      have hback := bare_declared s source ha hobject name Export.nowhere l
      refine ⟨⟨name, annotated source (.object (properties source name fs) false) (s.describe a) name
        Export.nowhere⟩, ?_, hback⟩
      intro i
      simp only [Import.definition, Export.objectDef, Import.declare]

end

/-! ## Documents -/

/-- **A document survives the way through GraphQL.** Under every options it is mapped without a loss,
all of its declarations are converted, and what is read back from the definitions is the document up
to titles and locations, again without a loss. -/
theorem document_survives_graphql {d : Document} (hd : d.Translatable) (o : Export.Options) :
    ∃ s : Schema,
      (Export.schema o d).outcome = .ok ⟨s, d.names, []⟩ ∧
      (Export.schema o d).warnings = [] ∧
      ∀ (io : Import.Options) (source : Source), ∃ d' : Document,
        (Import.ofSchema io source s).outcome = .ok ⟨d', d.names, []⟩ ∧
        (Import.ofSchema io source s).warnings = [] ∧
        d'.bare = d.bare := by
  obtain ⟨version, ts⟩ := d
  obtain ⟨rfl, hkinds, hannotations⟩ := hd
  have : Nonempty TypeDef := ⟨⟨Export.nowhere, none, "", [], .scalar⟩⟩
  have hparts := fun t ht => exportImport_declaration (hkinds t ht) (hannotations t ht) o.settings
  choose! f hdef hback using hparts
  have hout : Export.schema o ⟨Document.currentVersion, ts⟩
      = ⟨.ok ⟨ts.map fun t => .type (f t), ts.map Declaration.name, []⟩,
        ts.map fun t => .converted t.name⟩ := by
    have := Export.schema_of_declared (o := o) (t := id) hdef
    rwa [List.map_id] at this
  refine ⟨ts.map fun t => .type (f t), ?_, ?_, ?_⟩
  · exact congrArg Conversion.outcome hout
  · rw [Conversion.warnings, congrArg Conversion.events hout]
    exact losses_converted Declaration.name ts
  · intro io source
    have : Nonempty Declaration := ⟨⟨"", .ofKind .null⟩⟩
    have hread := fun t ht => hback t ht source
    choose! t' hdecl hbare using hread
    have hin := Import.ofSchema_of_declared (o := io) hdecl
    have hnames : (ts.map fun t => (t' t).name) = ts.map Declaration.name := by
      apply List.map_congr_left
      intro t ht
      have := congrArg Declaration.name (hbare t ht)
      exact this
    refine ⟨.ofTypes (ts.map t'), ?_, ?_, ?_⟩
    · rw [hin, hnames]
      rfl
    · rw [hin]
      exact losses_converted _ ts
    · have htypes : ts.map (fun t => (t' t).bare) = ts.map Declaration.bare :=
        List.map_congr_left hbare
      simp only [Document.bare, Document.ofTypes, List.map_map, Function.comp_def, htypes]

/-- Arrays in arrays with and without `null`, a scalar, and an alternative of a type and a scalar. -/
def nestedArrays : Document :=
  let rows : Node := ⟨.array ⟨.array (.ofKind .integer), { title := some "row" }, none⟩,
    { title := some "rows", description := some "From top to bottom." }, some (.ofOffsets 12 40)⟩
  let parts : Node := .ofKind (.array (.ofKind (.or [.ofKind .null, .ofKind (.ref "Grid")])))
  .ofTypes [⟨"Grid", .ofKind (.object [("rows", ⟨rows, true⟩), ("parts", ⟨parts, false⟩)] false)⟩,
    ⟨"Label", .ofKind .anyString⟩,
    ⟨"Item", .ofKind (.or [.ofKind (.ref "Grid"), .ofKind .number])⟩]

theorem nestedArrays_translatable : nestedArrays.Translatable := by
  have hempty : Description.Plain .empty := Description.plain_title none
  have href : (Kind.ref "Grid").Leaf := .ref (by decide)
  refine ⟨rfl, ?_, ?_⟩
  · simp only [nestedArrays, Document.ofTypes, List.forall_mem_cons]
    refine ⟨.object (by decide) ?_, .scalar .string, .or (by decide) ?_, List.forall_mem_nil _⟩
    · simp only [List.forall_mem_cons]
      refine ⟨⟨.list (.list (.leaf (.scalar .integer)) rfl) rfl, ?_⟩,
        ⟨.nullableList (.leaf href) rfl rfl rfl, hempty⟩, List.forall_mem_nil _⟩
      exact ⟨rfl, rfl, rfl, by decide, by decide +kernel, by decide +kernel⟩
    · simp only [List.forall_mem_cons]
      exact ⟨⟨href, rfl⟩, ⟨.scalar .number, rfl⟩, List.forall_mem_nil _⟩
  · simp only [nestedArrays, Document.ofTypes, List.forall_mem_cons]
    exact ⟨hempty, hempty, hempty, List.forall_mem_nil _⟩

theorem document_survives_graphql_nestedArrays :
    nestedArrays.Translatable ∧ ∃ s : Schema,
      (Export.schema { unsupported := .error } nestedArrays).outcome
        = .ok ⟨s, ["Grid", "Label", "Item"], []⟩ ∧
      ∃ d' : Document, (Import.ofSchema {} (.ofText "") s).outcome
        = .ok ⟨d', ["Grid", "Label", "Item"], []⟩ ∧ d'.bare = nestedArrays.bare := by
  obtain ⟨s, hout, -, hback⟩ :=
    document_survives_graphql nestedArrays_translatable { unsupported := .error }
  obtain ⟨d', hin, -, hbare⟩ := hback {} (.ofText "")
  exact ⟨nestedArrays_translatable, s, hout, d', hin, hbare⟩

end SchemaBridge
