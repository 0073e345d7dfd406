import SchemaBridge.Proofs.Agreement
import SchemaBridge.Proofs.FieldNodes
/-!
# Grouping of alternatives does not matter

A group is an `or` among the alternatives of another or among the element types of a tuple. Two
documents regroup each other if they become the same when all groups in them are dissolved. The
annotations and the location of a group go with it; the node that holds the outermost alternatives
stays as it is.

The mappers flatten alternatives before they look at them, and a group dissolved beforehand makes no
difference to that (`ungroupedAll_eq_map_flattenAll`, `flattenAll_ungroupedAll`), so that positions,
hints for names and `null` are the same. What is left of groups is in the losses, which hold the
nodes they concern. Losses are seen without these (`Loss.withoutNode`), and each mapper of a node
agrees up to this view with itself on the node without groups.

Results:
* `ungroupedAll_dissolve`: alternatives regroup those with one of the groups dissolved.
* `fieldType_agrees`, `union_agrees`, `declaration_agrees`: each mapper, without groups.
* `conversion_ignores_grouping`: documents that regroup each other are converted alike.
-/
namespace SchemaBridge

/-! ## Groups -/

namespace Model

namespace Node

mutual

/-- The node with all groups in it dissolved. An alternative in another place is no group. -/
def ungrouped : Node → Node
  | ⟨.array e, a, l⟩ => ⟨.array e.ungrouped, a, l⟩
  | ⟨.tuple es, a, l⟩ => ⟨.tuple (ungroupedAll es), a, l⟩
  | ⟨.object ps x, a, l⟩ => ⟨.object (ungroupedProperties ps) x, a, l⟩
  | ⟨.or es, a, l⟩ => ⟨.or (ungroupedAll es), a, l⟩
  | n => n
termination_by structural n => n

/-- Alternatives with those of every group in its place. -/
def ungroupedAll : List Node → List Node
  | [] => []
  | ⟨.or es, _, _⟩ :: ns => ungroupedAll es ++ ungroupedAll ns
  | n :: ns => n.ungrouped :: ungroupedAll ns
termination_by structural ns => ns

def ungroupedProperties : List (String × Property Node) → List (String × Property Node)
  | [] => []
  | (name, ⟨n, required⟩) :: ps => (name, ⟨n.ungrouped, required⟩) :: ungroupedProperties ps
termination_by structural ps => ps

end

@[simp] theorem annotations_ungrouped (n : Node) : n.ungrouped.annotations = n.annotations := by
  rcases n with ⟨k, a, l⟩
  cases k <;> rfl

@[simp] theorem loc_ungrouped (n : Node) : n.ungrouped.loc = n.loc := by
  rcases n with ⟨k, a, l⟩
  cases k <;> rfl

@[simp] theorem kindName_ungrouped (n : Node) : n.ungrouped.kindName = n.kindName := by
  rcases n with ⟨k, a, l⟩
  cases k <;> rfl

@[simp] theorem isNull_ungrouped (n : Node) : n.ungrouped.isNull = n.isNull := by
  rcases n with ⟨k, a, l⟩
  cases k <;> rfl

theorem ungroupedAll_append (ns ms : List Node) :
    ungroupedAll (ns ++ ms) = ungroupedAll ns ++ ungroupedAll ms := by
  induction ns with
  | nil => rfl
  | cons n ns ih =>
    obtain ⟨k, a, l⟩ := n
    cases k with
    | or es => rw [List.cons_append, ungroupedAll, ih, ungroupedAll, List.append_assoc]
    | _ => exact congrArg _ ih

theorem ungroupedProperties_eq_map (ps : List (String × Property Node)) :
    ungroupedProperties ps = ps.map fun p => (p.1, ⟨p.2.node.ungrouped, p.2.required⟩) := by
  induction ps with
  | nil => rfl
  | cons p ps ih => rw [ungroupedProperties, ih, List.map_cons]

/-- Dissolving one group, whatever it is annotated with, is as good as none. -/
theorem ungroupedAll_dissolve (ns es ms : List Node) (a : Annotations) (l : Option Location) :
    ungroupedAll (ns ++ ⟨.or es, a, l⟩ :: ms) = ungroupedAll (ns ++ (es ++ ms)) := by
  rw [ungroupedAll_append, ungroupedAll, ungroupedAll_append, ungroupedAll_append]

end Node

namespace Document

/-- The document with all groups in it dissolved. -/
def ungrouped (d : Document) : Document :=
  { d with types := d.types.map fun t => { t with node := t.node.ungrouped } }

/-- Two documents differ in nothing but in how alternatives are grouped. -/
def Regroups (d d' : Document) : Prop := d.ungrouped = d'.ungrouped

theorem Regroups.version_eq {d d' : Document} (h : d.Regroups d') : d.version = d'.version := by
  show d.ungrouped.version = d'.ungrouped.version
  rw [h]

end Document

end Model

/-- The loss without the node it concerns. -/
def Loss.withoutNode (loss : Loss) : Loss := { loss with node := none }

theorem ConversionError.message_withoutNode (e : ConversionError) :
    (e.mapLoss Loss.withoutNode).message = e.message := by
  cases e <;> rfl

namespace Export

open Model (Node Kind Property Annotations Declaration Document)
open Model.Node (ungroupedAll ungroupedProperties ungroupedProperties_eq_map)
open Sdl (TypeDef Field)

/-- Mappings do the same, apart from the nodes that losses concern. -/
abbrev Mapping.Agree {α : Type} (m m' : Mapping α) : Prop := m.AgreeUpTo Loss.withoutNode m'

/-! ## Flattening -/

theorem IsLeaf.ungrouped_eq {n : Node} (h : IsLeaf n) : n.ungrouped = n := by
  obtain ⟨k, a, l⟩ := n
  cases k with
  | array | tuple | object | or => exact h.elim
  | _ => rfl

theorem IsSingle.ungrouped {n : Node} (h : IsSingle n) : IsSingle n.ungrouped := by
  obtain ⟨k, a, l⟩ := n
  cases k with
  | null | or => exact h.elim
  | _ => trivial

theorem IsSingle.ungroupedAll_cons {n : Node} (h : IsSingle n) (ns : List Node) :
    ungroupedAll (n :: ns) = n.ungrouped :: ungroupedAll ns := by
  obtain ⟨k, a, l⟩ := n
  cases k with
  | or es => exact h.elim
  | _ => rfl

/-- Alternatives regroup others if these are the same in depth-first order, up to groups inside. -/
theorem ungroupedAll_eq_map_flattenAll (ns : List Node) :
    ungroupedAll ns = (flattenAll ns).map Node.ungrouped := by
  induction ns using alternativesInduction with
  | nil => rfl
  | single n ns hn ih =>
    rw [hn.ungroupedAll_cons, ih, flattenAll, hn.flatten_eq]
    rfl
  | null a l ns ih => exact congrArg (⟨.null, a, l⟩ :: ·) ih
  | group es a l ns ihes ihns =>
    rw [ungroupedAll, ihes, ihns, flattenAll, flatten, List.map_append]

/-- There is nothing left to flatten. -/
theorem flattenAll_ungroupedAll (ns : List Node) :
    flattenAll (ungroupedAll ns) = ungroupedAll ns := by
  induction ns using alternativesInduction with
  | nil => rfl
  | single n ns hn ih =>
    rw [hn.ungroupedAll_cons, flattenAll, hn.ungrouped.flatten_eq, ih]
    rfl
  | null a l ns ih => exact congrArg (⟨.null, a, l⟩ :: ·) ih
  | group es a l ns ihes ihns =>
    rw [flattenAll_eq_flatMap] at ihes ihns ⊢
    rw [ungroupedAll, List.flatMap_append, ihes, ihns]

theorem nonNull_ungroupedAll (ns : List Node) :
    nonNull (ungroupedAll ns) = (nonNull ns).map Node.ungrouped := by
  rw [nonNull, nonNull, flattenAll_ungroupedAll, ungroupedAll_eq_map_flattenAll, List.filter_map]
  simp only [Function.comp_def, Node.isNull_ungrouped]

theorem nonNull_ungroupedAll_of_sole {es : List Node} {n : Node} (h : nonNull es = [n]) :
    nonNull (ungroupedAll es) = [n.ungrouped] := by
  rw [nonNull_ungroupedAll, h, List.map_singleton]

theorem length_nonNull_ungroupedAll (es : List Node) :
    (nonNull (ungroupedAll es)).length = (nonNull es).length := by
  rw [nonNull_ungroupedAll, List.length_map]

theorem admitsNull_ungroupedAll (ns : List Node) : admitsNull (ungroupedAll ns) = admitsNull ns := by
  rw [admitsNull, admitsNull, flattenAll_ungroupedAll, ungroupedAll_eq_map_flattenAll, List.any_map]
  simp only [Function.comp_def, Node.isNull_ungrouped]

/-! ## Fields -/

section
variable {s : Settings}

theorem lose_agrees {α : Type} (n : Node) (path : Option Path) :
    (lose n path : Mapping (Option α)).Agree (lose n.ungrouped path) :=
  lose_agreeUpTo (by simp [lossOf, Loss.ofNode, Loss.withoutNode])

theorem leafName?_ungrouped (n : Node) : s.leafName? n.ungrouped = s.leafName? n := by
  obtain ⟨k, a, l⟩ := n
  cases k <;> rfl

theorem leaf_agrees (n : Node) : (leaf s n).Agree (leaf s n.ungrouped) := by
  rw [leaf_eq, leaf_eq, leafName?_ungrouped]
  cases s.leafName? n with
  | some name => exact .refl _
  | none => exact lose_agrees n none

/-- A field that is kept depends on its node by the annotations only. -/
theorem keepField_ungrouped (owner name : String) (n : Node) (required : Bool) :
    keepField s owner name ⟨n.ungrouped, required⟩ = keepField s owner name ⟨n, required⟩ := by
  funext t
  cases t with
  | some t => simp only [keepField, makeField, Node.annotations_ungrouped]
  | none => rfl

/-- The fields for properties agree if the types of these do. -/
theorem fields_agrees_of (owner : String) {ps : List (String × Property Node)}
    (hps : ∀ p ∈ ps, ∀ base hint,
      (fieldType s base hint p.2.node).Agree (fieldType s base hint p.2.node.ungrouped)) :
    (fields s owner ps).Agree (fields s owner (ungroupedProperties ps)) := by
  rw [ungroupedProperties_eq_map]
  exact fields_agreeUpTo (keepField_ungrouped owner) hps

theorem fieldType_agrees (n : Node) : ∀ base hint : String,
    (fieldType s base hint n).Agree (fieldType s base hint n.ungrouped) := by
  induction n using fieldInduction with
  | leaf n hn =>
    intro base hint
    rw [hn.ungrouped_eq]
    exact .refl _
  | array e a l ih =>
    intro base hint
    rw [Node.ungrouped, fieldType, fieldType]
    exact (ih base hint).bind_left _
  | tuple es a l n hn ih =>
    intro base hint
    rw [Node.ungrouped, fieldType_tuple_sole a l hn,
      fieldType_tuple_sole a l (nonNull_ungroupedAll_of_sole hn), admitsNull_ungroupedAll]
    exact (ih base hint).bind_left _
  | or es a l n hn ih =>
    intro base hint
    rw [Node.ungrouped, fieldType_or_sole a l hn,
      fieldType_or_sole a l (nonNull_ungroupedAll_of_sole hn), admitsNull_ungroupedAll]
    exact (ih base hint).bind_left _
  | tupleLost es a l hlen =>
    intro base hint
    have hlen' : (nonNull (ungroupedAll es)).length ≠ 1 := by rwa [length_nonNull_ungroupedAll]
    rw [Node.ungrouped, fieldType_tuple_lost a l hlen, fieldType_tuple_lost a l hlen']
    exact lose_agrees ⟨.tuple es, a, l⟩ none
  | orLost es a l hlen =>
    intro base hint
    have hlen' : (nonNull (ungroupedAll es)).length ≠ 1 := by rwa [length_nonNull_ungroupedAll]
    rw [Node.ungrouped, fieldType_or_lost a l hlen, fieldType_or_lost a l hlen']
    exact lose_agrees ⟨.or es, a, l⟩ none
  | object ps x a l ih =>
    intro base hint
    rw [Node.ungrouped, fieldType, fieldType]
    exact (synthesize_agreeUpTo base hint rfl fun name => fields_agrees_of name ih).bind_left _

theorem fields_agrees (owner : String) (ps : List (String × Property Node)) :
    (fields s owner ps).Agree (fields s owner (ungroupedProperties ps)) :=
  fields_agrees_of owner fun p _ => fieldType_agrees p.2.node

/-! ## Declarations -/

theorem member_agrees (base hint : String) (n : Node) :
    (member s base hint n).Agree (member s base hint n.ungrouped) := by
  obtain ⟨k, a, l⟩ := n
  cases k with
  | object ps x =>
    rw [Node.ungrouped, member, member]
    exact (synthesize_agreeUpTo base hint rfl fun name => fields_agrees name ps).bind_left _
  | _ => exact leaf_agrees _

theorem union_agrees (name : String) (a : Annotations) (es : List Node) :
    (union s name a es).Agree (union s name a (ungroupedAll es)) := by
  rw [union, union, flattenAll_ungroupedAll, ungroupedAll_eq_map_flattenAll]
  exact (members_agreeUpTo (member_agrees name) 0 (flattenAll es)).bind_left _

theorem declaration_agrees (i : Nat) (t : Declaration) :
    (declaration s i t).Agree (declaration s i { t with node := t.node.ungrouped }) := by
  obtain ⟨name, k, a, l⟩ := t
  cases k with
  | boolean | integer | number | string | null => exact .refl _
  | or es => exact union_agrees name a es
  | object ps x => exact (fields_agrees name ps).bind_left _
  | array | tuple | ref => exact lose_agrees _ _

end

/-- **Grouping of alternatives does not matter**: documents that regroup each other, converted with
the same options, come to the same schema with the same names converted and not converted, or fail
with the same message; and the warnings have the same messages in the same order. -/
theorem conversion_ignores_grouping (o : Options) {d d' : Document} (h : d.Regroups d') :
    (schema o d).outcome.mapError ConversionError.message
      = (schema o d').outcome.mapError ConversionError.message ∧
    (schema o d).warnings.map Loss.message = (schema o d').warnings.map Loss.message := by
  have hrun : ∀ d : Document,
      (run o.settings d).AgreeUpTo Loss.withoutNode (run o.settings d.ungrouped) :=
    run_agreeUpTo declaration_agrees
  have hrun' := (hrun d').symm
  rw [← show d.ungrouped = d'.ungrouped from h] at hrun'
  have halike := schema_agreeUpTo h.version_eq ((hrun d).trans hrun')
  exact ⟨halike.outcome_map_eq ConversionError.message_withoutNode,
    halike.warnings_map_eq fun _ => rfl⟩

/-- A union with groups in it, one of them empty and one within a tuple, and an object with a tuple of
one group and with alternatives that do not come down to one. -/
def nestedGroups : Document :=
  let group (title : String) (es : List Node) : Node := ⟨.or es, { title := some title }, none⟩
  let point := Node.ofKind (.object [("x", ⟨.ofKind .number, true⟩)] false)
  let pair := Node.ofKind (.tuple [group "Text" [.ofKind .boolean, .ofKind .integer]])
  .ofTypes [
    ⟨"Answer", group "Answer" [group "First" [.ofKind (.ref "Line"), group "Second" [point, pair]],
      group "None" [], .ofKind .boolean]⟩,
    ⟨"Line", .ofKind (.object [
      ("ends", ⟨.ofKind (.tuple [group "End" [.ofKind .null, group "Point" [point]]]), true⟩),
      ("name", ⟨.ofKind (.or [group "Name" [.ofKind .null, .ofKind .integer], .ofKind .boolean]),
        true⟩)] false)⟩]

/-- The same alternatives without groups. -/
def plainAlternatives : Document :=
  let point := Node.ofKind (.object [("x", ⟨.ofKind .number, true⟩)] false)
  let pair := Node.ofKind (.tuple [.ofKind .boolean, .ofKind .integer])
  .ofTypes [
    ⟨"Answer", ⟨.or [.ofKind (.ref "Line"), point, pair, .ofKind .boolean],
      { title := some "Answer" }, none⟩⟩,
    ⟨"Line", .ofKind (.object [
      ("ends", ⟨.ofKind (.tuple [.ofKind .null, point]), true⟩),
      ("name", ⟨.ofKind (.or [.ofKind .null, .ofKind .integer, .ofKind .boolean]), true⟩)] false)⟩]

theorem conversion_ignores_grouping_nestedGroups :
    (nestedGroups.Regroups plainAlternatives ∧
      (schema {} nestedGroups).warnings.map Loss.message
        = ["Type 'tuple' not supported", "Type 'or' not supported"] ∧
      (schema {} nestedGroups).outcome.toOption.map (fun c => c.data.map Sdl.Definition.name?)
        = some [some "Answer", some "Line", some "Answer_T1", some "Line_ends"]) ∧
    (schema {} nestedGroups).outcome.mapError ConversionError.message
      = (schema {} plainAlternatives).outcome.mapError ConversionError.message ∧
    (schema {} nestedGroups).warnings.map Loss.message
      = (schema {} plainAlternatives).warnings.map Loss.message :=
  have h : nestedGroups.Regroups plainAlternatives := rfl
  ⟨⟨h, by decide +kernel, by decide +kernel⟩, conversion_ignores_grouping {} h⟩

end Export

end SchemaBridge
