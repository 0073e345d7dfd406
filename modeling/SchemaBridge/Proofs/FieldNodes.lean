import SchemaBridge.Proofs.FieldTypes
/-!
# Nodes in the place of a field

How a node in the place of a field or list item is mapped is said here for each kind of node, with
what becomes of alternatives put in terms of the alternatives themselves and not of the search for
the one that counts. `fieldInduction` goes along, case by case: a claim about alternatives that come
down to one may be proved from the claim about that one.

Results:
* `leaf_eq`: a leaf has a name, or is a loss.
* `nonNull_cons_single`, `nonNull_cons_null`, `nonNull_cons_or`: alternatives one by one.
* `soleType_eq`: the search finds the only alternative that is not `null`.
* `fieldType_leaf`, `fieldType_or_sole`, `fieldType_tuple_sole`, `fieldType_or_lost`,
  `fieldType_tuple_lost`: the type of a field by the kind of its node.
* `memFlattenAllInduction`: induction over the places of a node among flattened alternatives.
* `fieldInduction`: induction over nodes, with a case for each kind of node in the place of a field.
-/
namespace SchemaBridge.Export

open Model (Node Kind Property Annotations Location)

/-! ## Leaves -/

/-- A node without further nodes inside. -/
def IsLeaf (n : Node) : Prop :=
  match n.kind with
  | .array _ | .tuple _ | .object .. | .or _ => False
  | _ => True

/-- The name of the type for a node that is a type by itself. -/
def Settings.leafName? (s : Settings) (n : Node) : Option String :=
  match n.kind with
  | .boolean => some "Boolean"
  | .integer => some "Int"
  | .number => some "Float"
  | .string _ => some "String"
  | .ref target => some target
  | .null => s.nullTypeName
  | _ => none

/-- A node is a type by itself or a loss. -/
theorem leaf_eq (s : Settings) (n : Node) :
    leaf s n = match s.leafName? n with
      | some name => pure (some name)
      | none => lose n none := by
  obtain ⟨k, a, l⟩ := n
  cases k <;> rfl

/-! ## Alternatives one by one -/

theorem nonNull_cons (n : Node) (ns : List Node) :
    nonNull (n :: ns) = (flatten n).filter (fun m => !m.isNull) ++ nonNull ns := by
  rw [nonNull, flattenAll, List.filter_append]
  rfl

theorem nonNull_cons_single {n : Node} (h : IsSingle n) (ns : List Node) :
    nonNull (n :: ns) = n :: nonNull ns := by
  rw [nonNull_cons, h.flatten_eq, List.filter_cons_of_pos (by rw [h.isNull_eq]; rfl)]
  rfl

theorem nonNull_cons_null (a : Annotations) (l : Option Location) (ns : List Node) :
    nonNull (⟨.null, a, l⟩ :: ns) = nonNull ns := rfl

theorem nonNull_cons_or (es : List Node) (a : Annotations) (l : Option Location)
    (ns : List Node) : nonNull (⟨.or es, a, l⟩ :: ns) = nonNull es ++ nonNull ns := by
  rw [nonNull_cons, flatten]
  rfl

/-- Induction over alternatives, down into those that are a group themselves. -/
@[elab_as_elim]
theorem alternativesInduction {motive : List Node → Prop} (nil : motive [])
    (single : ∀ n ns, IsSingle n → motive ns → motive (n :: ns))
    (null : ∀ a l ns, motive ns → motive (⟨.null, a, l⟩ :: ns))
    (group : ∀ es a l ns, motive es → motive ns → motive (⟨.or es, a, l⟩ :: ns)) :
    ∀ ns, motive ns
  | [] => nil
  | ⟨.null, a, l⟩ :: ns => null a l ns (alternativesInduction nil single null group ns)
  | ⟨.or es, a, l⟩ :: ns =>
    group es a l ns (alternativesInduction nil single null group es)
      (alternativesInduction nil single null group ns)
  | ⟨.boolean, _, _⟩ :: ns | ⟨.integer, _, _⟩ :: ns | ⟨.number, _, _⟩ :: ns
  | ⟨.string _, _, _⟩ :: ns | ⟨.array _, _, _⟩ :: ns | ⟨.tuple _, _, _⟩ :: ns
  | ⟨.object .., _, _⟩ :: ns | ⟨.ref _, _, _⟩ :: ns =>
    single _ ns trivial (alternativesInduction nil single null group ns)

theorem mem_flattenAll_of_sole {es : List Node} {n : Node} (h : nonNull es = [n]) :
    n ∈ flattenAll es := by
  have hn : n ∈ nonNull es := by
    rw [h]
    exact List.mem_singleton_self n
  exact (List.mem_filter.mp hn).1

/-! ## Types of fields by the kind of node -/

section
variable {s : Settings} {base hint : String}

theorem fieldType_leaf {n : Node} (h : IsLeaf n) :
    fieldType s base hint n
      = leaf s n >>= fun name => pure (name.map fun name => ⟨.named name, false⟩) := by
  obtain ⟨k, a, l⟩ := n
  cases k with
  | array | tuple | object | or => exact h.elim
  | _ => rfl

/-- The search among alternatives comes to the type of the only one that is not `null`. -/
theorem soleType_eq {ns : List Node} {n : Node} (h : nonNull ns = [n]) :
    soleType s base hint ns
      = fieldType s base hint n >>= fun t => pure (t.map FieldType.type) := by
  induction ns using alternativesInduction with
  | nil => cases h
  | single m ns hm ih =>
    rw [nonNull_cons_single hm] at h
    obtain ⟨rfl, -⟩ := List.cons.inj h
    exact soleType_cons s base hint hm ns
  | null a l ns ih =>
    rw [nonNull_cons_null] at h
    exact ih h
  | group es a l ns ihes ihns =>
    rw [nonNull_cons_or] at h
    rw [soleType]
    split
    · next hes =>
      rw [hes, List.nil_append] at h
      exact ihns h
    · next hes =>
      rcases List.append_eq_singleton_iff.mp h with ⟨hnil, -⟩ | ⟨hone, -⟩
      · exact absurd hnil hes
      · exact ihes hone

section
variable {es : List Node} {n : Node} (a : Annotations) (l : Option Location)

theorem fieldType_or_sole (h : nonNull es = [n]) :
    fieldType s base hint ⟨.or es, a, l⟩
      = fieldType s base hint n >>= fun t => pure (t.map fun t => ⟨t.type, admitsNull es⟩) := by
  rw [fieldType, if_pos (by rw [h]; rfl), soleType_eq h, bind_assoc]
  congr 1
  funext t
  rw [pure_bind, Option.map_map]
  rfl

theorem fieldType_tuple_sole (h : nonNull es = [n]) :
    fieldType s base hint ⟨.tuple es, a, l⟩
      = fieldType s base hint n >>= fun t =>
        pure (t.map fun t => FieldType.toList ⟨t.type, admitsNull es⟩) := by
  rw [fieldType, if_pos (by rw [h]; rfl), soleType_eq h, bind_assoc]
  congr 1
  funext t
  rw [pure_bind, Option.map_map]
  rfl

theorem fieldType_or_lost (h : (nonNull es).length ≠ 1) :
    fieldType s base hint ⟨.or es, a, l⟩ = lose ⟨.or es, a, l⟩ none := by
  rw [fieldType, if_neg h]

theorem fieldType_tuple_lost (h : (nonNull es).length ≠ 1) :
    fieldType s base hint ⟨.tuple es, a, l⟩ = lose ⟨.tuple es, a, l⟩ none := by
  rw [fieldType, if_neg h]

end

end

/-! ## Induction -/

/-- A node comes to be among flattened alternatives at the front, further on, or out of a group. -/
@[elab_as_elim]
theorem memFlattenAllInduction {n : Node} {motive : List Node → Prop} {es : List Node}
    (h : n ∈ flattenAll es) (front : ∀ ns, motive (n :: ns))
    (later : ∀ m ns, motive ns → motive (m :: ns))
    (group : ∀ es a l ns, motive es → motive (⟨.or es, a, l⟩ :: ns)) : motive es := by
  induction es using alternativesInduction with
  | nil => cases h
  | single m ns hm ih =>
    rw [flattenAll, hm.flatten_eq, List.singleton_append] at h
    rcases List.mem_cons.mp h with rfl | h
    · exact front ns
    · exact later m ns (ih h)
  | null a l ns ih =>
    rcases List.mem_cons.mp h with rfl | h
    · exact front ns
    · exact later _ ns (ih h)
  | group es a l ns ihes ihns =>
    rw [flattenAll, flatten] at h
    rcases List.mem_append.mp h with h | h
    · exact group es a l ns (ihes h)
    · exact later _ ns (ihns h)

/-- Flattening comes to smaller nodes. -/
theorem sizeOf_lt_of_mem_flattenAll {es : List Node} {n : Node} (h : n ∈ flattenAll es) :
    sizeOf n < sizeOf es := by
  refine memFlattenAllInduction h ?_ ?_ ?_
  · intro ns
    simp
    omega
  · intro m ns ih
    simp
    omega
  · intro es a l ns ih
    simp
    omega

theorem sizeOf_lt_of_sole {es : List Node} {n : Node} (h : nonNull es = [n]) :
    sizeOf n < sizeOf es :=
  sizeOf_lt_of_mem_flattenAll (mem_flattenAll_of_sole h)

/-- Induction over nodes in the place of a field. Alternatives are mapped if they come down to one. -/
@[elab_as_elim]
theorem fieldInduction {motive : Node → Prop} (leaf : ∀ n, IsLeaf n → motive n)
    (array : ∀ e a l, motive e → motive ⟨.array e, a, l⟩)
    (tuple : ∀ es a l n, nonNull es = [n] → motive n → motive ⟨.tuple es, a, l⟩)
    (tupleLost : ∀ es a l, (nonNull es).length ≠ 1 → motive ⟨.tuple es, a, l⟩)
    (or : ∀ es a l n, nonNull es = [n] → motive n → motive ⟨.or es, a, l⟩)
    (orLost : ∀ es a l, (nonNull es).length ≠ 1 → motive ⟨.or es, a, l⟩)
    (object : ∀ ps x a l, (∀ p ∈ ps, motive p.2.node) → motive ⟨.object ps x, a, l⟩) :
    ∀ n : Node, motive n
  | ⟨.array e, a, l⟩ => array e a l (fieldInduction leaf array tuple tupleLost or orLost object e)
  | ⟨.tuple es, a, l⟩ =>
    if h : (nonNull es).length = 1 then
      have ⟨n, hn⟩ := List.length_eq_one_iff.mp h
      have := sizeOf_lt_of_sole hn
      tuple es a l n hn (fieldInduction leaf array tuple tupleLost or orLost object n)
    else tupleLost es a l h
  | ⟨.or es, a, l⟩ =>
    if h : (nonNull es).length = 1 then
      have ⟨n, hn⟩ := List.length_eq_one_iff.mp h
      have := sizeOf_lt_of_sole hn
      or es a l n hn (fieldInduction leaf array tuple tupleLost or orLost object n)
    else orLost es a l h
  | ⟨.object ps x, a, l⟩ => object ps x a l fun ⟨name, ⟨n, required⟩⟩ hp =>
    have := List.sizeOf_lt_of_mem hp
    fieldInduction leaf array tuple tupleLost or orLost object n
  | ⟨.boolean, _, _⟩ | ⟨.integer, _, _⟩ | ⟨.number, _, _⟩ | ⟨.string _, _, _⟩ | ⟨.null, _, _⟩
  | ⟨.ref _, _, _⟩ => leaf _ trivial
termination_by n => sizeOf n
decreasing_by all_goals (simp_all; omega)

end SchemaBridge.Export
