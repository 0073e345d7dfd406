import Mathlib.Data.List.Forall2
import SchemaBridge.Proofs.Ensuring
import SchemaBridge.Proofs.FieldNodes
import SchemaBridge.Proofs.TypeValues
/-!
# Values of core types and of the types of fields

A core type stands for a set of values just as a type reference does: scalars and references for what
their names stand for, arrays for lists, tuples for lists of a fixed length, and alternatives for the
values of any of them. The type of a field says in one bit, next to the type, what alternatives say by
`null` at any depth.

Results:
* `values_or_sole`: alternatives that come down to one have its values, and maybe `null`.
* `FieldType.values_toList`, `FieldType.values_withNull`: the values of types as fields are mapped.
* `fieldType_describes`: the type of a field describes the node of the field.
* `field_types_describe_values`: the values of a node are values of its type, and conversely.
-/
namespace SchemaBridge

open Model (Node Kind Property Annotations Location)
open Sdl (TypeRef)

variable {α : Type}

/-! ## Values of core types -/

/-- The lists with an item of each set, in order. -/
def Datum.tuples (ss : List (Set (Datum α))) : Set (Datum α) :=
  {d | ∃ ds, d = .list ds ∧ List.Forall₂ (· ∈ ·) ds ss}

theorem Datum.tuples_subset_lists {ss : List (Set (Datum α))} {s : Set (Datum α)}
    (h : ∀ t ∈ ss, t ⊆ s) : Datum.tuples ss ⊆ Datum.lists s := by
  rintro _ ⟨ds, rfl, hds⟩
  rw [list_mem_lists]
  induction hds with
  | nil => nofun
  | cons hd _ ih =>
    obtain ⟨ht, hss⟩ := List.forall_mem_cons.mp h
    exact List.forall_mem_cons.mpr ⟨ht hd, ih hss⟩

namespace Model

mutual

/-- The values of a core type. Objects have no values here: they become types of their own, and what
the names of these stand for is not said. -/
def Node.values (m : Meaning α) : Node → Set (Datum α)
  | ⟨.boolean, _, _⟩ => m.ofName "Boolean"
  | ⟨.integer, _, _⟩ => m.ofName "Int"
  | ⟨.number, _, _⟩ => m.ofName "Float"
  | ⟨.string _, _, _⟩ => m.ofName "String"
  | ⟨.ref target, _, _⟩ => m.ofName target
  | ⟨.null, _, _⟩ => {.null}
  | ⟨.array e, _, _⟩ => Datum.lists (e.values m)
  | ⟨.tuple es, _, _⟩ => Datum.tuples (valuesOfAll m es)
  | ⟨.or es, _, _⟩ => {d | ∃ s ∈ valuesOfAll m es, d ∈ s}
  | ⟨.object .., _, _⟩ => ∅
termination_by structural n => n

def valuesOfAll (m : Meaning α) : List Node → List (Set (Datum α))
  | [] => []
  | n :: ns => n.values m :: valuesOfAll m ns
termination_by structural ns => ns

end

theorem valuesOfAll_eq_map (m : Meaning α) (ns : List Node) :
    valuesOfAll m ns = ns.map (Node.values m) := by
  induction ns with
  | nil => rfl
  | cons n ns ih => rw [valuesOfAll, ih, List.map_cons]

/-! ## Nodes inside a node -/

mutual

/-- A node and all nodes inside it. -/
def Node.parts : Node → List Node
  | ⟨.array e, a, l⟩ => ⟨.array e, a, l⟩ :: e.parts
  | ⟨.tuple es, a, l⟩ => ⟨.tuple es, a, l⟩ :: partsOfAll es
  | ⟨.object ps x, a, l⟩ => ⟨.object ps x, a, l⟩ :: partsOfProperties ps
  | ⟨.or es, a, l⟩ => ⟨.or es, a, l⟩ :: partsOfAll es
  | n => [n]
termination_by structural n => n

def partsOfAll : List Node → List Node
  | [] => []
  | n :: ns => n.parts ++ partsOfAll ns
termination_by structural ns => ns

def partsOfProperties : List (String × Property Node) → List Node
  | [] => []
  | (_, ⟨n, _⟩) :: ps => n.parts ++ partsOfProperties ps
termination_by structural ps => ps

end

/-- No node of a kind is in the node, itself included. -/
def Node.Without (kind : String) (n : Node) : Prop := ∀ part ∈ n.parts, part.kindName ≠ kind

instance (kind : String) (n : Node) : Decidable (n.Without kind) :=
  inferInstanceAs (Decidable (∀ part ∈ n.parts, part.kindName ≠ kind))

end Model

namespace Export

open Model (valuesOfAll valuesOfAll_eq_map partsOfAll)

theorem parts_subset_of_mem_flattenAll {es : List Node} {n : Node} (h : n ∈ flattenAll es) :
    n.parts ⊆ partsOfAll es := by
  refine memFlattenAllInduction h ?_ ?_ ?_
  · intro ns
    exact List.subset_append_left _ _
  · intro m ns ih
    exact List.subset_append_of_subset_right _ ih
  · intro es a l ns ih
    exact List.subset_append_of_subset_left _ (List.subset_cons_of_subset _ ih)

section
variable {kind : String} {es : List Node} {n : Node} {a : Annotations} {l : Option Location}

theorem isSingle_of_mem_nonNull (h : n ∈ nonNull es) : IsSingle n := by
  induction es using alternativesInduction with
  | nil => cases h
  | single m ns hm ih =>
    rw [nonNull_cons_single hm] at h
    rcases List.mem_cons.mp h with rfl | h
    · exact hm
    · exact ih h
  | null a l ns ih => exact ih h
  | group es a l ns ihes ihns =>
    rw [nonNull_cons_or] at h
    exact (List.mem_append.mp h).elim ihes ihns

theorem isSingle_of_sole (h : nonNull es = [n]) : IsSingle n :=
  isSingle_of_mem_nonNull (by rw [h]; exact List.mem_singleton_self n)

theorem without_of_array (h : (⟨.array n, a, l⟩ : Node).Without kind) : n.Without kind :=
  fun part hpart => h part (List.mem_cons_of_mem _ hpart)

theorem parts_subset_of_sole (h : nonNull es = [n]) : n.parts ⊆ partsOfAll es :=
  parts_subset_of_mem_flattenAll (mem_flattenAll_of_sole h)

theorem without_of_or_sole (hn : nonNull es = [n]) (h : (⟨.or es, a, l⟩ : Node).Without kind) :
    n.Without kind :=
  fun part hpart => h part (List.mem_cons_of_mem _ (parts_subset_of_sole hn hpart))

theorem without_of_tuple_sole (hn : nonNull es = [n])
    (h : (⟨.tuple es, a, l⟩ : Node).Without kind) : n.Without kind :=
  fun part hpart => h part (List.mem_cons_of_mem _ (parts_subset_of_sole hn hpart))

end

/-! ## Values of alternatives -/

section
variable {m : Meaning α} {es : List Node} {n : Node}

theorem mem_values_or {a : Annotations} {l : Option Location} {d : Datum α} :
    d ∈ (⟨.or es, a, l⟩ : Node).values m ↔ ∃ e ∈ es, d ∈ e.values m := by
  simp [Node.values, valuesOfAll_eq_map]

/-- Flattening keeps the values of alternatives. -/
theorem exists_mem_flattenAll_iff {d : Datum α} :
    (∃ e ∈ flattenAll es, d ∈ e.values m) ↔ ∃ e ∈ es, d ∈ e.values m := by
  induction es using alternativesInduction with
  | nil => rfl
  | single n ns hn ih => simp [flattenAll, hn.flatten_eq, ih]
  | null a l ns ih => simp [flattenAll, flatten, ih]
  | group es a l ns ihes ihns =>
    simp only [flattenAll, flatten, List.mem_append, List.mem_cons, or_and_right, exists_or,
      exists_eq_left, mem_values_or, ihes, ihns]

theorem values_of_isNull (h : n.isNull = true) : n.values m = {.null} := by
  obtain ⟨k, a, l⟩ := n
  cases k with
  | null => rfl
  | _ => cases h

/-- Alternatives have the values of those that are not `null`, and `null` if it is among them. -/
theorem mem_values_or_iff {a : Annotations} {l : Option Location} {d : Datum α} :
    d ∈ (⟨.or es, a, l⟩ : Node).values m ↔
      admitsNull es = true ∧ d = .null ∨ ∃ e ∈ nonNull es, d ∈ e.values m := by
  rw [mem_values_or, ← exists_mem_flattenAll_iff]
  constructor
  · rintro ⟨e, he, hd⟩
    cases hnull : e.isNull with
    | true =>
      rw [values_of_isNull hnull] at hd
      exact .inl ⟨List.any_eq_true.mpr ⟨e, he, hnull⟩, hd⟩
    | false => exact .inr ⟨e, List.mem_filter.mpr ⟨he, by rw [hnull]; rfl⟩, hd⟩
  · rintro (⟨hadmits, rfl⟩ | ⟨e, he, hd⟩)
    · obtain ⟨e, he, hnull⟩ := List.any_eq_true.mp hadmits
      exact ⟨e, he, by rw [values_of_isNull hnull]; rfl⟩
    · exact ⟨e, (List.mem_filter.mp he).1, hd⟩

theorem values_or_sole (hn : nonNull es = [n]) (a : Annotations) (l : Option Location) :
    (⟨.or es, a, l⟩ : Node).values m
      = if admitsNull es then insert .null (n.values m) else n.values m := by
  ext d
  rw [mem_values_or_iff, hn]
  cases admitsNull es <;> simp

/-- The values of a tuple are lists over its elements taken as alternatives. -/
theorem values_tuple_subset (es : List Node) (a : Annotations) (l : Option Location) :
    (⟨.tuple es, a, l⟩ : Node).values m
      ⊆ Datum.lists ((⟨.or es, a, l⟩ : Node).values m) := by
  apply Datum.tuples_subset_lists
  intro s hs d hd
  exact ⟨s, hs, hd⟩

end

/-! ## Values of the types of fields -/

namespace FieldType

/-- The values of the type of a field: those of its type reference, with `null` or without. -/
def values (m : Meaning α) (t : FieldType) : Set (Datum α) :=
  (t.type.requireIf !t.nullable).values m

section
variable {m : Meaning α}

theorem values_named (name : String) :
    (⟨.named name, false⟩ : FieldType).values m = m.ofName name :=
  Set.insert_sdiff_self_of_notMem (m.null_notMem name)

theorem values_toList (t : FieldType) : t.toList.values m = Datum.lists (t.values m) :=
  Set.insert_sdiff_self_of_notMem (Datum.null_notMem_lists _)

/-- `null` beside a type without it. -/
theorem values_withNull {t : FieldType} (hrequired : t.type.isRequired = false)
    (hnullable : t.nullable = false) (withNull : Bool) :
    (⟨t.type, withNull⟩ : FieldType).values m
      = if withNull then insert .null (t.values m) else t.values m := by
  have hvalues : t.values m = t.type.values m \ {.null} := by
    rw [values, hnullable]
    exact TypeRef.values_require m t.type
  rw [hvalues]
  cases withNull with
  | true => exact (Set.insert_sdiff_self_of_mem (TypeRef.null_mem_values_iff.mpr hrequired)).symm
  | false => exact TypeRef.values_require m t.type

end

end FieldType

/-! ## Mappings that give a property to their value -/

section
variable {β γ : Type} {f : Mapping β} {Q : β → Prop}

/-- From every registry and under every policy, a value that the mapping comes to has the property. -/
def Mapping.Gives (f : Mapping β) (Q : β → Prop) : Prop := ∀ r, f.Ensures r fun b _ _ => Q b

theorem Mapping.Gives.pure {b : β} (h : Q b) : Mapping.Gives (Pure.pure b) Q := fun _ => .pure h

theorem Mapping.Gives.bind {g : β → Mapping γ} {R : γ → Prop} (hf : f.Gives Q)
    (hg : ∀ b, Q b → (g b).Gives R) : (f >>= g).Gives R :=
  fun r => (hf r).bind fun b r' _ hb => hg b hb r'

theorem Mapping.Gives.map {R : γ → Prop} (hf : f.Gives Q) (g : β → γ) (h : ∀ b, Q b → R (g b)) :
    Mapping.Gives (f >>= fun b => Pure.pure (g b)) R :=
  hf.bind fun b hb => .pure (h b hb)

theorem lose_gives {n : Node} {path : Option Path} {Q : Option β → Prop} (h : Q none) :
    Mapping.Gives (lose n path) Q :=
  .bind (Q := fun _ => True) (fun _ => .lose trivial) fun _ _ => .pure h

theorem Mapping.Gives.of_result (hf : f.Gives Q) {p : Policy} {r r' : Registry} {b : β}
    (h : ((f.run r) p).result = .ok (b, r')) : Q b := by
  obtain ⟨b', r'', es, hruns, hQ⟩ := hf r
  rw [hruns p] at h
  obtain ⟨rfl, -⟩ := Prod.mk.inj (eq_of_settle_ok h)
  exact hQ

end

/-! ## Types that describe nodes -/

/-- The type of a field describes the node of the field. Of a node other than `null` and alternatives
it says nothing of `null`. -/
structure FieldType.Describes (m : Meaning α) (n : Node) (t : FieldType) : Prop where
  unrequired : t.type.isRequired = false
  single : IsSingle n → t.nullable = false
  sound : n.values m ⊆ t.values m
  complete : n.Without "tuple" → t.values m ⊆ n.values m

section
variable {s : Settings} {m : Meaning α}

theorem values_of_leafName (hs : s.nullTypeName = none) {n : Node} {name : String}
    (h : s.leafName? n = some name) : n.values m = m.ofName name := by
  obtain ⟨k, a, l⟩ := n
  cases k with
  | boolean | integer | number | string | ref =>
    obtain rfl := Option.some.inj h
    rfl
  | null =>
    have hnull : s.nullTypeName = some name := h
    rw [hs] at hnull
    cases hnull
  | array | tuple | object | or => cases h

theorem FieldType.Describes.leaf (hs : s.nullTypeName = none) {n : Node} {name : String}
    (h : s.leafName? n = some name) : Describes m n ⟨.named name, false⟩ where
  unrequired := rfl
  single _ := rfl
  sound := by rw [values_named, values_of_leafName hs h]
  complete _ := by rw [values_named, values_of_leafName hs h]

theorem FieldType.Describes.array {n : Node} {t : FieldType} (h : Describes m n t)
    (a : Annotations) (l : Option Location) : Describes m ⟨.array n, a, l⟩ t.toList where
  unrequired := rfl
  single _ := rfl
  sound := by
    rw [values_toList]
    exact Datum.lists_subset_lists_iff.mpr h.sound
  complete hn := by
    rw [values_toList]
    exact Datum.lists_subset_lists_iff.mpr (h.complete (without_of_array hn))

theorem FieldType.Describes.or {es : List Node} {n : Node} (hn : nonNull es = [n]) {t : FieldType}
    (h : Describes m n t) (a : Annotations) (l : Option Location) :
    Describes m ⟨.or es, a, l⟩ ⟨t.type, admitsNull es⟩ where
  unrequired := h.unrequired
  single := False.elim
  sound := by
    rw [values_or_sole hn, values_withNull h.unrequired (h.single (isSingle_of_sole hn))]
    split
    · exact Set.insert_subset_insert h.sound
    · exact h.sound
  complete hfree := by
    have hcomplete := h.complete (without_of_or_sole hn hfree)
    rw [values_or_sole hn, values_withNull h.unrequired (h.single (isSingle_of_sole hn))]
    split
    · exact Set.insert_subset_insert hcomplete
    · exact hcomplete

/-- A tuple is described as the array of its elements taken as alternatives. -/
theorem FieldType.Describes.tuple {es : List Node} {a : Annotations} {l : Option Location}
    {t : FieldType} (h : Describes m ⟨.or es, a, l⟩ t) : Describes m ⟨.tuple es, a, l⟩ t.toList where
  unrequired := rfl
  single _ := rfl
  sound := by
    rw [values_toList]
    exact (values_tuple_subset es a l).trans (Datum.lists_subset_lists_iff.mpr h.sound)
  complete hfree := absurd rfl (hfree ⟨.tuple es, a, l⟩ List.mem_cons_self)

/-- A property that all types have may be asserted of a type that there may be. -/
theorem describes_map {n n' : Node} {g : FieldType → FieldType} {t : Option FieldType}
    (h : ∀ x ∈ t, x.Describes m n) (hg : ∀ x : FieldType, x.Describes m n → (g x).Describes m n') :
    ∀ x ∈ t.map g, x.Describes m n' := by
  intro x hx
  obtain ⟨y, hy, rfl⟩ := Option.map_eq_some_iff.mp hx
  exact hg y (h y hy)

/-- **The type of a field describes the node of the field**, wherever `null` is among alternatives and
however deep lists are in each other. -/
theorem fieldType_describes (hs : s.nullTypeName = none) (n : Node) (h : n.Without "object")
    (base hint : String) :
    (fieldType s base hint n).Gives fun t => ∀ x ∈ t, x.Describes m n := by
  induction n using fieldInduction with
  | leaf n hn =>
    rw [fieldType_leaf hn, leaf_eq]
    split
    · next name hname =>
      rw [pure_bind]
      refine .pure fun x hx => ?_
      obtain rfl := Option.some.inj hx
      exact .leaf hs hname
    · exact (lose_gives (Q := fun name => name = none) rfl).map _ fun name hname => by simp [hname]
  | array e a l ih =>
    exact (ih (without_of_array h)).map _ fun t ht => describes_map ht fun x hx => hx.array a l
  | tuple es a l n hn ih =>
    rw [fieldType_tuple_sole a l hn]
    exact (ih (without_of_tuple_sole hn h)).map _ fun t ht =>
      describes_map ht fun x hx => (hx.or hn a l).tuple
  | or es a l n hn ih =>
    rw [fieldType_or_sole a l hn]
    exact (ih (without_of_or_sole hn h)).map _ fun t ht => describes_map ht fun x hx => hx.or hn a l
  | tupleLost es a l hlen =>
    rw [fieldType_tuple_lost a l hlen]
    exact lose_gives nofun
  | orLost es a l hlen =>
    rw [fieldType_or_lost a l hlen]
    exact lose_gives nofun
  | object ps x a l ih => exact absurd rfl (h ⟨.object ps x, a, l⟩ List.mem_cons_self)

end

/-- **Field and list types describe the values of the core type.** Without a type for `null`, and
whatever names stand for, the values of a node without objects are values of the type that it is
mapped to, and if there are no tuples in the node, it has no others. -/
theorem field_types_describe_values {s : Settings} (hs : s.nullTypeName = none) {n : Node}
    (hn : n.Without "object") {base hint : String} {p : Policy} {r r' : Registry} {t : FieldType}
    (h : ((fieldType s base hint n).run r p).result = .ok (some t, r')) (m : Meaning α) :
    n.values m ⊆ t.values m ∧ (n.Without "tuple" → t.values m ⊆ n.values m) := by
  have hdescribes : t.Describes m n := (fieldType_describes hs n hn base hint).of_result h t rfl
  exact ⟨hdescribes.sound, hdescribes.complete⟩

/-- A list of lists of integers, in which `null` stands for some of the lists: once beside the other
alternative, and once more below it. -/
def listsOrNull : Node :=
  let integers := Node.ofKind (.array (.ofKind (.or [.ofKind .integer])))
  .ofKind (.array (.ofKind (.or [.ofKind .null,
    .ofKind (.or [integers, .ofKind (.or [.ofKind .null])])])))

theorem field_types_describe_values_listsOrNull :
    let s : Settings := ({} : Options).settings
    let t : FieldType := ⟨.list (.list (.nonNull (.named "Int"))), false⟩
    s.nullTypeName = none ∧ listsOrNull.Without "object" ∧ listsOrNull.Without "tuple" ∧
      ((fieldType s "A" "b" listsOrNull).run [] .error).result = .ok (some t, []) ∧
      listsOrNull.values .ownNames = t.values .ownNames ∧
      Datum.list [.null, .list [.atom "Int", .atom "Int"]] ∈ listsOrNull.values .ownNames := by
  intro s t
  have hobject : listsOrNull.Without "object" := by decide +kernel
  have htuple : listsOrNull.Without "tuple" := by decide +kernel
  have hrun : ((fieldType s "A" "b" listsOrNull).run [] .error).result = .ok (some t, []) := rfl
  obtain ⟨hsound, hcomplete⟩ := field_types_describe_values rfl hobject hrun Meaning.ownNames
  have heq : listsOrNull.values .ownNames = t.values .ownNames :=
    Set.Subset.antisymm hsound (hcomplete htuple)
  refine ⟨rfl, hobject, htuple, hrun, heq, ?_⟩
  rw [heq]
  simp [t, FieldType.values, TypeRef.requireIf, TypeRef.require, TypeRef.isRequired,
    TypeRef.values, Meaning.ownNames]

end Export

end SchemaBridge
