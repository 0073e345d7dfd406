import SchemaBridge.Export.Types
import SchemaBridge.Import
/-!
# Type references and the core types that stand for them

Reading a type reference (`Import.typeNode`) and mapping the node to a type reference again
(`Export.fieldType`) are two recursions written apart. An item that may be `null` is read as the
alternative of `null` and the item, and is mapped by flattening that alternative and leaving `null`
out of it.

Results:
* `fieldType_kindOfName`: the node for a name is mapped to that name.
* `fieldType_orNull`: `null` beside a single other alternative makes its type nullable.
* `fieldType_typeNode`: a type reference comes back, exclusions of `null` at every depth included.
-/
namespace SchemaBridge

open Model (Node Kind Annotations Location)
open Sdl (TypeRef)

/-! ## Type references -/

namespace Sdl.TypeRef

/-- `null` is nowhere excluded twice. -/
def WellFormed : TypeRef → Prop
  | named _ => True
  | list item => item.WellFormed
  | nonNull inner => inner.isRequired = false ∧ inner.WellFormed

theorem strip_of_not_required {t : TypeRef} (h : t.isRequired = false) : t.strip = t := by
  cases t with
  | named | list => rfl
  | nonNull inner => cases h

theorem strip_requireIf {t : TypeRef} (h : t.isRequired = false) (required : Bool) :
    (t.requireIf required).strip = t := by
  cases required with
  | false => exact strip_of_not_required h
  | true => exact strip_require h

theorem isRequired_requireIf {t : TypeRef} (h : t.isRequired = false) (required : Bool) :
    (t.requireIf required).isRequired = required := by
  cases required with
  | false => exact h
  | true => exact isRequired_require t

theorem requireIf_strip {t : TypeRef} (h : t.WellFormed) : t.strip.requireIf t.isRequired = t := by
  cases t with
  | named | list => rfl
  | nonNull inner =>
    show inner.require = .nonNull inner
    unfold require
    rw [if_neg (by rw [h.1]; exact Bool.false_ne_true)]

end Sdl.TypeRef

/-! ## Reading a type reference -/

namespace Import

/-- The node for a list, whichever way its items are given. -/
theorem typeNode_list (owner : String) (item : TypeRef) :
    typeNode owner (.list item) = ⟨.array (if item.isRequired then typeNode owner item.strip
      else .ofKind (.or [.ofKind .null, typeNode owner item])), listAnnotations owner, none⟩ := by
  cases item <;> rfl

/-- The node says nothing about an outer exclusion of `null`. -/
theorem typeNode_strip (owner : String) (t : TypeRef) : typeNode owner t.strip = typeNode owner t := by
  cases t <;> rfl

end Import

/-! ## Mapping to a type reference -/

namespace Export

open Import (kindOfName typeNode typeNode_list)

/-- A node that is neither `null` nor an alternative. -/
def IsSingle (n : Node) : Prop :=
  match n.kind with
  | .null | .or _ => False
  | _ => True

theorem IsSingle.flatten_eq {n : Node} (h : IsSingle n) : flatten n = [n] := by
  obtain ⟨k, a, l⟩ := n
  cases k with
  | or es => exact h.elim
  | _ => rfl

theorem IsSingle.isNull_eq {n : Node} (h : IsSingle n) : n.isNull = false := by
  obtain ⟨k, a, l⟩ := n
  cases k with
  | null => exact h.elim
  | _ => rfl

theorem isSingle_kindOfName (name : String) (a : Annotations) (l : Option Location) :
    IsSingle ⟨kindOfName name, a, l⟩ := by
  unfold kindOfName
  repeat' split
  all_goals trivial

theorem isSingle_array (e : Node) (a : Annotations) (l : Option Location) :
    IsSingle ⟨.array e, a, l⟩ := trivial

theorem isSingle_typeNode (owner : String) : ∀ t : TypeRef, IsSingle (typeNode owner t)
  | .named name => isSingle_kindOfName name _ _
  | .list item => by
    rw [typeNode_list]
    exact isSingle_array _ _ _
  | .nonNull inner => isSingle_typeNode owner inner

section
variable (s : Settings) (base hint : String)

theorem leaf_kindOfName (name : String) (a : Annotations) (l : Option Location) :
    leaf s ⟨kindOfName name, a, l⟩ = pure (some name) := by
  unfold kindOfName
  repeat' split
  all_goals subst_vars; rfl

/-- The node for a name, however it is annotated, is mapped to that name. -/
theorem fieldType_kindOfName (name : String) (a : Annotations) (l : Option Location) :
    fieldType s base hint ⟨kindOfName name, a, l⟩ = pure (some ⟨.named name, false⟩) := by
  have hleaf : fieldType s base hint ⟨kindOfName name, a, l⟩
      = leaf s ⟨kindOfName name, a, l⟩ >>= fun t => pure (t.map fun t => ⟨.named t, false⟩) := by
    unfold kindOfName
    repeat' split
    all_goals rfl
  rw [hleaf, leaf_kindOfName, pure_bind]
  rfl

theorem fieldType_array {e : Node} {t : FieldType} (h : fieldType s base hint e = pure (some t))
    (a : Annotations) (l : Option Location) :
    fieldType s base hint ⟨.array e, a, l⟩ = pure (some t.toList) := by
  rw [fieldType, h, pure_bind]
  rfl

theorem soleType_cons {n : Node} (hn : IsSingle n) (ns : List Node) :
    soleType s base hint (n :: ns)
      = fieldType s base hint n >>= fun t => pure (t.map FieldType.type) := by
  obtain ⟨k, a, l⟩ := n
  cases k with
  | null | or => exact hn.elim
  | _ => rfl

/-- `null` beside a single other alternative makes the type of that alternative nullable. -/
theorem fieldType_orNull {n : Node} (hn : IsSingle n) {t : FieldType}
    (h : fieldType s base hint n = pure (some t)) {null : Node} (hnull : null.kind = .null)
    (a : Annotations) (l : Option Location) :
    fieldType s base hint ⟨.or [null, n], a, l⟩ = pure (some ⟨t.type, true⟩) := by
  obtain ⟨_, a₀, l₀⟩ := null
  subst hnull
  have hflat : flattenAll [⟨.null, a₀, l₀⟩, n] = [⟨.null, a₀, l₀⟩, n] := by
    simp only [flattenAll_eq_flatMap, List.flatMap_cons, List.flatMap_nil, hn.flatten_eq, flatten]
    rfl
  have hsole : nonNull [⟨.null, a₀, l₀⟩, n] = [n] := by
    have hnull : (⟨.null, a₀, l₀⟩ : Node).isNull = true := rfl
    rw [nonNull, hflat]
    simp [hn.isNull_eq, hnull]
  have hadmits : admitsNull [⟨.null, a₀, l₀⟩, n] = true := by
    rw [admitsNull, hflat]
    rfl
  have htype : soleType s base hint [⟨.null, a₀, l₀⟩, n] = pure (some t.type) := by
    rw [soleType, soleType_cons s base hint hn, h, pure_bind]
    rfl
  rw [fieldType, hsole, htype, hadmits, pure_bind]
  rfl

/-- **A type reference comes back** from the node it was read as, up to the outer exclusion of
`null`, which is not read into the node. -/
theorem fieldType_typeNode (owner : String) {t : TypeRef} (ht : t.WellFormed) (a : Annotations)
    (l : Option Location) :
    fieldType s base hint ⟨(typeNode owner t.strip).kind, a, l⟩ = pure (some ⟨t.strip, false⟩) := by
  induction t generalizing a l with
  | named name => exact fieldType_kindOfName s base hint name a l
  | nonNull inner ih =>
    have := ih ht.2 a l
    rwa [TypeRef.strip_of_not_required ht.1] at this
  | list item ih =>
    have hkind : (typeNode owner (TypeRef.list item).strip).kind = .array (if item.isRequired
        then typeNode owner item.strip else .ofKind (.or [.ofKind .null, typeNode owner item])) :=
      congrArg Node.kind (typeNode_list owner item)
    have hitem := ih ht (typeNode owner item.strip).annotations (typeNode owner item.strip).loc
    rw [Node.eta] at hitem
    have hreq : item.strip.requireIf item.isRequired = item := TypeRef.requireIf_strip ht
    rw [hkind]
    cases hr : item.isRequired with
    | true =>
      rw [hr] at hreq
      rw [if_pos rfl, fieldType_array s base hint hitem]
      show pure (some (⟨.list (item.strip.requireIf true), false⟩ : FieldType)) = _
      rw [hreq]
      rfl
    | false =>
      rw [TypeRef.strip_of_not_required hr] at hitem
      have hor : fieldType s base hint (.ofKind (.or [.ofKind .null, typeNode owner item]))
          = pure (some ⟨item, true⟩) :=
        fieldType_orNull s base hint (isSingle_typeNode owner item) hitem rfl .empty none
      rw [if_neg Bool.false_ne_true, fieldType_array s base hint hor]
      rfl

end

end Export

end SchemaBridge
