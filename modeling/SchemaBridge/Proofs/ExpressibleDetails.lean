import Mathlib.Data.List.Forall2
import SchemaBridge.Proofs.Agreement
import SchemaBridge.Proofs.FieldNodes
/-!
# What GraphQL cannot express does not matter

A document is more than GraphQL can express. `expressible` erases the rest: every location, title,
list of values of a string and permission of additional properties, every comment unless comments
are described, and the annotations of all nodes that are neither declared nor the node of a property
nor an object. The order of properties is not erased: it is the order of the fields.

Documents that are equal after that are converted to the same. Losses are seen without the node they
concern and the location it has (`Loss.withoutSubject`), and each mapper of a node agrees up to this
view with itself on what is expressible of the node.

To clear locations erases less. `Relocated` relates nodes that differ in nothing but locations, at any
depth.

Results:
* `write?_described`: a description shows nothing of what is erased of annotations.
* `fieldType_agrees_expressible`, `member_agrees_expressible`, `declaration_agrees_expressible`: each
  mapper, on what is expressible.
* `relocated_clearLocations`, `locations_clearLocations`: what clearing locations does.
* `conversion_ignores_inexpressible`: documents with the same expressible part are converted alike.
-/
namespace SchemaBridge

namespace Model

/-! ## What is expressible -/

/-- What a description can show of annotations: no title, and a comment on demand only. -/
def Annotations.described (comments : Bool) (a : Annotations) : Annotations :=
  { a with title := none, comment := if comments then a.comment else none }

/-- What a place leaves of annotations: all that can be described, or nothing. -/
def Annotations.kept (comments annotated : Bool) (a : Annotations) : Annotations :=
  if annotated then a.described comments else .empty

namespace Node

mutual

/-- What is expressible of a node in a place that is annotated or not. -/
def expressible (comments annotated : Bool) : Node → Node
  | ⟨.string _, a, _⟩ => ⟨.string none, a.kept comments annotated, none⟩
  | ⟨.array e, a, _⟩ => ⟨.array (e.expressible comments false), a.kept comments annotated, none⟩
  | ⟨.tuple es, a, _⟩ => ⟨.tuple (expressibleAll comments es), a.kept comments annotated, none⟩
  | ⟨.object ps _, a, _⟩ =>
    ⟨.object (expressibleProperties comments ps) false, a.described comments, none⟩
  | ⟨.or es, a, _⟩ => ⟨.or (expressibleAll comments es), a.kept comments annotated, none⟩
  | ⟨k, a, _⟩ => ⟨k, a.kept comments annotated, none⟩
termination_by structural n => n

/-- What is expressible of element types or alternatives. -/
def expressibleAll (comments : Bool) : List Node → List Node
  | [] => []
  | n :: ns => n.expressible comments false :: expressibleAll comments ns
termination_by structural ns => ns

def expressibleProperties (comments : Bool) :
    List (String × Property Node) → List (String × Property Node)
  | [] => []
  | (name, ⟨n, required⟩) :: ps =>
    (name, ⟨n.expressible comments true, required⟩) :: expressibleProperties comments ps
termination_by structural ps => ps

end

section
variable {comments : Bool}

@[simp] theorem kindName_expressible (annotated : Bool) (n : Node) :
    (n.expressible comments annotated).kindName = n.kindName := by
  obtain ⟨k, a, l⟩ := n
  cases k <;> rfl

@[simp] theorem isNull_expressible (annotated : Bool) (n : Node) :
    (n.expressible comments annotated).isNull = n.isNull := by
  obtain ⟨k, a, l⟩ := n
  cases k <;> rfl

theorem annotations_expressible (n : Node) :
    (n.expressible comments true).annotations = n.annotations.described comments := by
  obtain ⟨k, a, l⟩ := n
  cases k <;> rfl

theorem expressibleProperties_eq_map (ps : List (String × Property Node)) :
    expressibleProperties comments ps
      = ps.map fun p => (p.1, ⟨p.2.node.expressible comments true, p.2.required⟩) := by
  induction ps with
  | nil => rfl
  | cons p ps ih => rw [expressibleProperties, ih, List.map_cons]

end

end Node

/-- What is expressible of a document. -/
def Document.expressible (comments : Bool) (d : Document) : Document :=
  { d with types := d.types.map fun t => { t with node := t.node.expressible comments true } }

/-! ## Locations -/

mutual

/-- Two nodes differ in nothing but locations, their own or those of nodes inside. -/
inductive Node.Relocated : Node → Node → Prop
  | own {k : Kind} (a : Annotations) (l l' : Option Location) : Node.Relocated ⟨k, a, l⟩ ⟨k, a, l'⟩
  | array {e e' : Node} (a : Annotations) (l l' : Option Location) : e.Relocated e' →
      Node.Relocated ⟨.array e, a, l⟩ ⟨.array e', a, l'⟩
  | tuple {es es' : List Node} (a : Annotations) (l l' : Option Location) :
      Node.RelocatedAll es es' → Node.Relocated ⟨.tuple es, a, l⟩ ⟨.tuple es', a, l'⟩
  | object {ps ps' : List (String × Property Node)} (x : Bool) (a : Annotations)
      (l l' : Option Location) : Node.RelocatedProperties ps ps' →
      Node.Relocated ⟨.object ps x, a, l⟩ ⟨.object ps' x, a, l'⟩
  | or {es es' : List Node} (a : Annotations) (l l' : Option Location) :
      Node.RelocatedAll es es' → Node.Relocated ⟨.or es, a, l⟩ ⟨.or es', a, l'⟩

inductive Node.RelocatedAll : List Node → List Node → Prop
  | nil : Node.RelocatedAll [] []
  | cons {n n' : Node} {ns ns' : List Node} : n.Relocated n' → Node.RelocatedAll ns ns' →
      Node.RelocatedAll (n :: ns) (n' :: ns')

inductive Node.RelocatedProperties :
    List (String × Property Node) → List (String × Property Node) → Prop
  | nil : Node.RelocatedProperties [] []
  | cons {n n' : Node} {ps ps' : List (String × Property Node)} (name : String) (required : Bool) :
      n.Relocated n' → Node.RelocatedProperties ps ps' →
      Node.RelocatedProperties ((name, ⟨n, required⟩) :: ps) ((name, ⟨n', required⟩) :: ps')

end

namespace Node

mutual

/-- The locations of a node and of all nodes inside. -/
def locations : Node → List (Option Location)
  | ⟨.array e, _, l⟩ => l :: e.locations
  | ⟨.tuple es, _, l⟩ => l :: locationsOfAll es
  | ⟨.object ps _, _, l⟩ => l :: locationsOfProperties ps
  | ⟨.or es, _, l⟩ => l :: locationsOfAll es
  | ⟨_, _, l⟩ => [l]
termination_by structural n => n

def locationsOfAll : List Node → List (Option Location)
  | [] => []
  | n :: ns => n.locations ++ locationsOfAll ns
termination_by structural ns => ns

def locationsOfProperties : List (String × Property Node) → List (Option Location)
  | [] => []
  | (_, ⟨n, _⟩) :: ps => n.locations ++ locationsOfProperties ps
termination_by structural ps => ps

end

mutual

/-- Clearing changes nothing but locations. -/
theorem relocated_clearLocations : ∀ n : Node, n.Relocated n.clearLocations
  | ⟨.array e, a, l⟩ => .array a l none (relocated_clearLocations e)
  | ⟨.tuple es, a, l⟩ => .tuple a l none (relocatedAll_clearAll es)
  | ⟨.object ps x, a, l⟩ => .object x a l none (relocatedProperties_clearProperties ps)
  | ⟨.or es, a, l⟩ => .or a l none (relocatedAll_clearAll es)
  | ⟨.boolean, a, l⟩ | ⟨.integer, a, l⟩ | ⟨.number, a, l⟩ | ⟨.string _, a, l⟩
  | ⟨.null, a, l⟩ | ⟨.ref _, a, l⟩ => .own a l none

theorem relocatedAll_clearAll : ∀ ns : List Node, RelocatedAll ns (clearAll ns)
  | [] => .nil
  | n :: ns => .cons (relocated_clearLocations n) (relocatedAll_clearAll ns)

theorem relocatedProperties_clearProperties :
    ∀ ps : List (String × Property Node), RelocatedProperties ps (clearProperties ps)
  | [] => .nil
  | (name, ⟨n, required⟩) :: ps =>
    .cons name required (relocated_clearLocations n) (relocatedProperties_clearProperties ps)

end

mutual

/-- Clearing leaves no location at any depth. -/
theorem locations_clearLocations : ∀ n : Node, ∀ l ∈ n.clearLocations.locations, l = none
  | ⟨.array e, _, _⟩ => List.forall_mem_cons.mpr ⟨rfl, locations_clearLocations e⟩
  | ⟨.tuple es, _, _⟩ => List.forall_mem_cons.mpr ⟨rfl, locations_clearAll es⟩
  | ⟨.object ps _, _, _⟩ => List.forall_mem_cons.mpr ⟨rfl, locations_clearProperties ps⟩
  | ⟨.or es, _, _⟩ => List.forall_mem_cons.mpr ⟨rfl, locations_clearAll es⟩
  | ⟨.boolean, _, _⟩ | ⟨.integer, _, _⟩ | ⟨.number, _, _⟩ | ⟨.string _, _, _⟩
  | ⟨.null, _, _⟩ | ⟨.ref _, _, _⟩ => List.forall_mem_singleton.mpr rfl

theorem locations_clearAll : ∀ ns : List Node, ∀ l ∈ locationsOfAll (clearAll ns), l = none
  | [] => fun _ h => absurd h List.not_mem_nil
  | n :: ns => List.forall_mem_append.mpr ⟨locations_clearLocations n, locations_clearAll ns⟩

theorem locations_clearProperties : ∀ ps : List (String × Property Node),
    ∀ l ∈ locationsOfProperties (clearProperties ps), l = none
  | [] => fun _ h => absurd h List.not_mem_nil
  | (_, ⟨n, _⟩) :: ps =>
    List.forall_mem_append.mpr ⟨locations_clearLocations n, locations_clearProperties ps⟩

end

section
variable {comments : Bool}

mutual

/-- Locations are not expressible. -/
theorem expressible_clearLocations : ∀ (annotated : Bool) (n : Node),
    n.clearLocations.expressible comments annotated = n.expressible comments annotated
  | _, ⟨.array e, _, _⟩ => by
    simp only [clearLocations, expressible, expressible_clearLocations false e]
  | _, ⟨.tuple es, _, _⟩ => by simp only [clearLocations, expressible, expressibleAll_clearAll es]
  | _, ⟨.object ps _, _, _⟩ => by
    simp only [clearLocations, expressible, expressibleProperties_clearProperties ps]
  | _, ⟨.or es, _, _⟩ => by simp only [clearLocations, expressible, expressibleAll_clearAll es]
  | _, ⟨.boolean, _, _⟩ | _, ⟨.integer, _, _⟩ | _, ⟨.number, _, _⟩ | _, ⟨.string _, _, _⟩
  | _, ⟨.null, _, _⟩ | _, ⟨.ref _, _, _⟩ => rfl

theorem expressibleAll_clearAll : ∀ ns : List Node,
    expressibleAll comments (clearAll ns) = expressibleAll comments ns
  | [] => rfl
  | n :: ns => by
    simp only [clearAll, expressibleAll, expressible_clearLocations false n,
      expressibleAll_clearAll ns]

theorem expressibleProperties_clearProperties : ∀ ps : List (String × Property Node),
    expressibleProperties comments (clearProperties ps) = expressibleProperties comments ps
  | [] => rfl
  | (_, ⟨n, _⟩) :: ps => by
    simp only [clearProperties, expressibleProperties, expressible_clearLocations true n,
      expressibleProperties_clearProperties ps]

end

end

end Node

namespace Document

/-- Two documents differ in nothing but locations. -/
structure Relocated (d d' : Document) : Prop where
  version : d.version = d'.version
  types : List.Forall₂ (fun t t' => t.name = t'.name ∧ t.node.Relocated t'.node) d.types d'.types

/-- The locations of all nodes of a document. -/
def locations (d : Document) : List (Option Location) := d.types.flatMap fun t => t.node.locations

theorem relocated_clearLocations (d : Document) : d.Relocated d.clearLocations where
  version := rfl
  types := List.forall₂_map_right_iff.mpr <| List.forall₂_same.mpr fun t _ =>
    ⟨rfl, t.node.relocated_clearLocations⟩

theorem locations_clearLocations (d : Document) : ∀ l ∈ d.clearLocations.locations, l = none := by
  intro l hl
  obtain ⟨t', ht', hl⟩ := List.mem_flatMap.mp hl
  obtain ⟨t, -, rfl⟩ := List.mem_map.mp ht'
  exact t.node.locations_clearLocations l hl

theorem expressible_clearLocations (comments : Bool) (d : Document) :
    d.clearLocations.expressible comments = d.expressible comments := by
  simp [clearLocations, expressible, Function.comp_def, Node.expressible_clearLocations]

end Document

end Model

/-- The loss without the node it concerns and the place of that. -/
def Loss.withoutSubject (loss : Loss) : Loss := { loss with node := none, loc := none }

namespace Export

open Model (Node Kind Property Annotations Declaration Document)
open Model.Node (expressibleAll expressibleProperties expressibleProperties_eq_map)
open Sdl (TypeDef Field)

/-- Mappings do the same, apart from the nodes that losses concern and the places of these. -/
abbrev Mapping.Alike {α : Type} (m m' : Mapping α) : Prop := m.AgreeUpTo Loss.withoutSubject m'

/-! ## Descriptions -/

/-- A description shows nothing of what is erased of annotations. -/
theorem write?_described (comments : Bool) (a : Annotations) :
    Description.write? comments (a.described comments) = Description.write? comments a := by
  have hparts : Description.parts comments (a.described comments) = Description.parts comments a := by
    cases comments <;> rfl
  rw [Description.write?, Description.write, Description.writeChars, hparts]
  rfl

section
variable {s : Settings}

theorem describe_described (a : Annotations) :
    s.describe (a.described s.includeComment) = s.describe a :=
  write?_described s.includeComment a

theorem objectDef_described (name : String) (a : Annotations) (fs : List Field) :
    objectDef s name (a.described s.includeComment) fs = objectDef s name a fs := by
  rw [objectDef, describe_described, objectDef]

theorem unionDef_described (name : String) (a : Annotations) (ms : List String) :
    unionDef s name (a.described s.includeComment) ms = unionDef s name a ms := by
  rw [unionDef, describe_described, unionDef]

/-! ## Alternatives -/

theorem flattenAll_expressibleAll (comments : Bool) (ns : List Node) :
    flattenAll (expressibleAll comments ns) = (flattenAll ns).map (Node.expressible comments false) := by
  induction ns using alternativesInduction with
  | nil => rfl
  | single n ns hn ih =>
    have hn' : IsSingle (n.expressible comments false) := by
      obtain ⟨k, a, l⟩ := n
      cases k with
      | null | or => exact hn.elim
      | _ => trivial
    rw [expressibleAll, flattenAll, hn'.flatten_eq, ih, flattenAll, hn.flatten_eq]
    rfl
  | null a l ns ih => exact congrArg (_ :: ·) ih
  | group es a l ns ihes ihns =>
    rw [expressibleAll, Node.expressible, flattenAll, flatten, ihes, ihns, flattenAll, flatten,
      List.map_append]

theorem nonNull_expressibleAll (comments : Bool) (ns : List Node) :
    nonNull (expressibleAll comments ns) = (nonNull ns).map (Node.expressible comments false) := by
  rw [nonNull, nonNull, flattenAll_expressibleAll, List.filter_map]
  simp only [Function.comp_def, Node.isNull_expressible]

theorem admitsNull_expressibleAll (comments : Bool) (ns : List Node) :
    admitsNull (expressibleAll comments ns) = admitsNull ns := by
  rw [admitsNull, admitsNull, flattenAll_expressibleAll, List.any_map]
  simp only [Function.comp_def, Node.isNull_expressible]

/-! ## Fields -/

theorem lose_expressible {α : Type} {n n' : Node} (path : Option Path)
    (h : n.kindName = n'.kindName) : (lose n path : Mapping (Option α)).Alike (lose n' path) :=
  lose_agreeUpTo (by simp [lossOf, Loss.ofNode, Loss.withoutSubject, h])

theorem leaf_agrees_expressible (annotated : Bool) (n : Node) :
    (leaf s n).Alike (leaf s (n.expressible s.includeComment annotated)) := by
  have hname : s.leafName? (n.expressible s.includeComment annotated) = s.leafName? n := by
    obtain ⟨k, a, l⟩ := n
    cases k <;> rfl
  rw [leaf_eq, leaf_eq, hname]
  cases s.leafName? n with
  | some name => exact .refl _
  | none => exact lose_expressible none (Node.kindName_expressible annotated n).symm

/-- A field that is kept depends on its node by what can be described only. -/
theorem keepField_expressible (owner name : String) (n : Node) (required : Bool) :
    keepField s owner name ⟨n.expressible s.includeComment true, required⟩
      = keepField s owner name ⟨n, required⟩ := by
  funext t
  cases t with
  | some t => simp only [keepField, makeField, Node.annotations_expressible, describe_described]
  | none => rfl

theorem fields_agrees_expressible_of (owner : String) {ps : List (String × Property Node)}
    (hps : ∀ p ∈ ps, ∀ annotated base hint, (fieldType s base hint p.2.node).Alike
      (fieldType s base hint (p.2.node.expressible s.includeComment annotated))) :
    (fields s owner ps).Alike (fields s owner (expressibleProperties s.includeComment ps)) := by
  rw [expressibleProperties_eq_map]
  exact fields_agreeUpTo (keepField_expressible owner) fun p hp => hps p hp true

theorem fieldType_agrees_expressible (n : Node) : ∀ (annotated : Bool) (base hint : String),
    (fieldType s base hint n).Alike
      (fieldType s base hint (n.expressible s.includeComment annotated)) := by
  induction n using fieldInduction with
  | leaf n hn =>
    intro annotated base hint
    have hn' : IsLeaf (n.expressible s.includeComment annotated) := by
      obtain ⟨k, a, l⟩ := n
      cases k with
      | array | tuple | object | or => exact hn.elim
      | _ => trivial
    rw [fieldType_leaf hn, fieldType_leaf hn']
    exact (leaf_agrees_expressible annotated n).bind_left _
  | array e a l ih =>
    intro annotated base hint
    rw [Node.expressible, fieldType, fieldType]
    exact (ih false base hint).bind_left _
  | tuple es a l n hn ih =>
    intro annotated base hint
    have hn' : nonNull (expressibleAll s.includeComment es)
        = [n.expressible s.includeComment false] := by
      rw [nonNull_expressibleAll, hn, List.map_singleton]
    rw [Node.expressible, fieldType_tuple_sole a l hn, fieldType_tuple_sole _ none hn',
      admitsNull_expressibleAll]
    exact (ih false base hint).bind_left _
  | or es a l n hn ih =>
    intro annotated base hint
    have hn' : nonNull (expressibleAll s.includeComment es)
        = [n.expressible s.includeComment false] := by
      rw [nonNull_expressibleAll, hn, List.map_singleton]
    rw [Node.expressible, fieldType_or_sole a l hn, fieldType_or_sole _ none hn',
      admitsNull_expressibleAll]
    exact (ih false base hint).bind_left _
  | tupleLost es a l hlen =>
    intro annotated base hint
    have hlen' : (nonNull (expressibleAll s.includeComment es)).length ≠ 1 := by
      rwa [nonNull_expressibleAll, List.length_map]
    rw [Node.expressible, fieldType_tuple_lost a l hlen, fieldType_tuple_lost _ none hlen']
    exact lose_expressible none rfl
  | orLost es a l hlen =>
    intro annotated base hint
    have hlen' : (nonNull (expressibleAll s.includeComment es)).length ≠ 1 := by
      rwa [nonNull_expressibleAll, List.length_map]
    rw [Node.expressible, fieldType_or_lost a l hlen, fieldType_or_lost _ none hlen']
    exact lose_expressible none rfl
  | object ps x a l ih =>
    intro annotated base hint
    rw [Node.expressible, fieldType, fieldType]
    exact (synthesize_agreeUpTo base hint (describe_described a).symm fun name =>
      fields_agrees_expressible_of name ih).bind_left _

theorem fields_agrees_expressible (owner : String) (ps : List (String × Property Node)) :
    (fields s owner ps).Alike (fields s owner (expressibleProperties s.includeComment ps)) :=
  fields_agrees_expressible_of owner fun p _ => fieldType_agrees_expressible p.2.node

/-! ## Declarations -/

theorem member_agrees_expressible (base hint : String) (n : Node) :
    (member s base hint n).Alike (member s base hint (n.expressible s.includeComment false)) := by
  obtain ⟨k, a, l⟩ := n
  cases k with
  | object ps x =>
    rw [Node.expressible, member, member]
    exact (synthesize_agreeUpTo base hint (describe_described a).symm fun name =>
      fields_agrees_expressible name ps).bind_left _
  | _ => exact leaf_agrees_expressible false _

/-- Unions agree if their members do. -/
theorem union_agrees_expressible_of (name : String) (a : Annotations) {es es' : List Node}
    (h : (members s name 0 (flattenAll es)).Alike (members s name 0 (flattenAll es'))) :
    (union s name a es).Alike (union s name (a.described s.includeComment) es') := by
  simp only [union, unionDef_described]
  exact h.bind_left _

theorem declaration_agrees_expressible (i : Nat) (t : Declaration) :
    (declaration s i t).Alike
      (declaration s i { t with node := t.node.expressible s.includeComment true }) := by
  obtain ⟨name, k, a, l⟩ := t
  cases k with
  | boolean | integer | number | string =>
    -- The members are those for a scalar, whatever its annotations are.
    exact union_agrees_expressible_of name a (.refl _)
  | null =>
    have ha : a.kept s.includeComment true = a.described s.includeComment := rfl
    simp only [Node.expressible, declaration, ha, unionDef_described]
    cases s.nullTypeName with
    | some null => exact .refl _
    | none => exact lose_expressible _ rfl
  | or es =>
    refine union_agrees_expressible_of name a ?_
    rw [flattenAll_expressibleAll]
    exact members_agreeUpTo (member_agrees_expressible name) 0 (flattenAll es)
  | object ps x =>
    simp only [Node.expressible, declaration, objectDef_described]
    exact (fields_agrees_expressible name ps).bind_left _
  | array | tuple | ref => exact lose_expressible _ rfl

end

/-! ## Documents -/

/-- Two documents are converted to the same data and names or both not at all, and with the same
warnings, as far as the messages and paths of losses go. -/
structure ConvertedAlike (o : Options) (d d' : Document) : Prop where
  outcome : (schema o d).outcome.mapError (ConversionError.mapLoss Loss.withoutSubject)
    = (schema o d').outcome.mapError (ConversionError.mapLoss Loss.withoutSubject)
  warnings : (schema o d).warnings.map (fun loss => (loss.message, loss.path))
    = (schema o d').warnings.map (fun loss => (loss.message, loss.path))

theorem convertedAlike_of_expressible {o : Options} {d d' : Document}
    (h : d.expressible (o.includeComment = some true)
      = d'.expressible (o.includeComment = some true)) : ConvertedAlike o d d' := by
  have hrun : ∀ d : Document, (run o.settings d).AgreeUpTo Loss.withoutSubject
      (run o.settings (d.expressible (o.includeComment = some true))) :=
    run_agreeUpTo declaration_agrees_expressible
  have hrun' := (hrun d').symm
  rw [← h] at hrun'
  have hversion : d.version = d'.version := by
    show (d.expressible (o.includeComment = some true)).version = _
    rw [h]
    rfl
  have halike := schema_agreeUpTo hversion ((hrun d).trans hrun')
  exact ⟨halike.outcome, halike.warnings_map_eq fun _ => rfl⟩

/-- **What GraphQL cannot express does not matter.**
* Documents with the same expressible part, converted with the same options, come to the same data,
  descriptions and synthesized names included, with the same names converted and not converted, or
  fail with the same message; and the warnings have the same messages and paths in the same order.
* To clear the locations of a document removes those of all nodes at any depth and changes nothing
  else, and the document is converted as before. -/
theorem conversion_ignores_inexpressible (o : Options) :
    (∀ d d' : Document, d.expressible (o.includeComment = some true)
        = d'.expressible (o.includeComment = some true) → ConvertedAlike o d d') ∧
    ∀ d : Document, d.Relocated d.clearLocations ∧ (∀ l ∈ d.clearLocations.locations, l = none) ∧
      ConvertedAlike o d.clearLocations d :=
  ⟨fun _ _ => convertedAlike_of_expressible, fun d => ⟨d.relocated_clearLocations,
    d.locations_clearLocations, convertedAlike_of_expressible (d.expressible_clearLocations _)⟩⟩

/-- An object and a union that say more than GraphQL can: locations, titles, values of a string,
further properties, a comment, and descriptions of elements and alternatives. -/
def talkativeDocument : Document :=
  let said : Annotations := { title := some "Title", description := some "Said", comment := some "Why" }
  let loc : Option Model.Location := some (.ofOffsets 1 9)
  let words : Node := ⟨.string (some ["a", "b"]), said, loc⟩
  let point : Node := ⟨.object [("x", ⟨⟨.number, said, loc⟩, true⟩)] true, said, loc⟩
  .ofTypes [
    ⟨"Line", ⟨.object [
      ("ends", ⟨⟨.array point, said, loc⟩, true⟩),
      ("words", ⟨⟨.or [⟨.null, said, loc⟩, ⟨.array words, said, loc⟩], said, loc⟩, true⟩),
      ("any", ⟨⟨.or [words, point], said, loc⟩, false⟩)] true, said, loc⟩⟩,
    ⟨"Word", ⟨.or [words, ⟨.array words, said, loc⟩], said, loc⟩⟩,
    ⟨"Pair", ⟨.tuple [words, words], said, loc⟩⟩]

/-- The same without all that. -/
def terseDocument : Document :=
  let said : Annotations := { description := some "Said" }
  let words : Node := .ofKind .anyString
  let point : Node := ⟨.object [("x", ⟨⟨.number, said, none⟩, true⟩)] false, said, none⟩
  .ofTypes [
    ⟨"Line", ⟨.object [
      ("ends", ⟨⟨.array point, said, none⟩, true⟩),
      ("words", ⟨⟨.or [.ofKind .null, .ofKind (.array words)], said, none⟩, true⟩),
      ("any", ⟨⟨.or [words, point], said, none⟩, false⟩)] false, said, none⟩⟩,
    ⟨"Word", ⟨.or [words, .ofKind (.array words)], said, none⟩⟩,
    ⟨"Pair", ⟨.tuple [words, words], said, none⟩⟩]

theorem conversion_ignores_inexpressible_talkative :
    (talkativeDocument.expressible false = terseDocument.expressible false ∧
      (schema {} talkativeDocument).warnings.map (fun loss => (loss.message, loss.path))
        = [("Type 'or' not supported", none), ("Type 'array' not supported", none),
          ("Type 'tuple' not supported", some [.index 2])] ∧
      (schema {} talkativeDocument).outcome.toOption.map (fun c => c.data.map Sdl.Definition.name?)
        = some [some "Line", some "Word", some "Line_ends"]) ∧
    ConvertedAlike {} talkativeDocument terseDocument :=
  have h : talkativeDocument.expressible false = terseDocument.expressible false := rfl
  ⟨⟨h, by decide +kernel, by decide +kernel⟩, (conversion_ignores_inexpressible {}).1 _ _ h⟩

end Export

end SchemaBridge
