import SchemaBridge.Export.Schema
import SchemaBridge.Import
import SchemaBridge.Proofs.FieldTypes
import SchemaBridge.Proofs.Settling
/-!
# Conversions without losses

If every part of a document or schema has a counterpart, the policy plays no part and the result can
be written down: the definitions of the declarations, or the declarations of the definitions, in order.

Results:
* `schema_of_declared`: a document whose declarations all have a definition becomes those definitions.
* `ofSchema_of_declared`: a schema whose definitions all are declared becomes those declarations.
* `fields_of_types`, `union_of_names`, `declaration_scalar`: object types and unions part by part.
* `declarations_runs_through`: declarations run one after the other, lossless or not.
-/
namespace SchemaBridge

open Model (Node Kind Property Annotations Declaration Document Location)
open Sdl (TypeRef TypeDef Definition Schema Source Field)

theorem losses_converted {α : Type} (name : α → String) (as : List α) :
    losses (as.map fun a => .converted (name a)) = [] := by
  simp [losses, Event.loss?]

/-! ## From core types to GraphQL -/

namespace Export

open Import (kindOfName)

theorem definitions_initialRegistry (d : Document) : (initialRegistry d).definitions = [] := by
  unfold Registry.definitions
  rw [List.filterMap_eq_nil_iff]
  intro m hm
  have := Keyed.mem_of_mem_ofEntries hm
  obtain ⟨name, -, rfl⟩ := List.mem_map.mp this
  rfl

section
variable {s : Settings}

theorem fields_of_types {owner : String} {α : Type} {p : α → String × Property Node}
    {t : α → FieldType} {as : List α}
    (h : ∀ a ∈ as, fieldType s owner (p a).1 (p a).2.node = pure (some (t a))) :
    fields s owner (as.map p) = pure (as.map fun a => makeField s (p a).1 (p a).2 (t a)) := by
  induction as with
  | nil => rfl
  | cons a as ih =>
    have hfirst := h a List.mem_cons_self
    have hothers := ih fun a ha => h a (List.mem_cons_of_mem _ ha)
    rcases hp : p a with ⟨name, n, required⟩
    rw [hp] at hfirst
    rw [List.map_cons, hp, fields, hfirst, pure_bind, keepField, pure_bind, hothers, pure_bind]
    simp [hp]

/-- Alternatives that stand for names are flat and not `null`. -/
theorem flattenAll_of_names {es : List Node} {ns : List String}
    (h : es.map Node.kind = ns.map kindOfName) : flattenAll es = es := by
  induction ns generalizing es with
  | nil => rw [List.map_eq_nil_iff.mp h]; rfl
  | cons n ns ih =>
    obtain ⟨e, es, rfl, he, hes⟩ := List.map_eq_cons_iff.mp h
    have hsingle : IsSingle e := by
      have := isSingle_kindOfName n e.annotations e.loc
      rwa [← he, Node.eta] at this
    rw [flattenAll, ih hes, hsingle.flatten_eq]
    rfl

theorem member_of_name {base hint n : String} {e : Node} (h : e.kind = kindOfName n) :
    member s base hint e = pure (some n) := by
  rw [← leaf_kindOfName s n e.annotations e.loc, ← Node.eta e, h]
  unfold kindOfName
  repeat' split
  all_goals rfl

theorem members_of_names {base : String} {ns : List String} {es : List Node}
    (h : es.map Node.kind = ns.map kindOfName) (i : Nat) : members s base i es = pure ns := by
  induction ns generalizing es i with
  | nil => rw [List.map_eq_nil_iff.mp h]; rfl
  | cons n ns ih =>
    obtain ⟨e, es, rfl, he, hes⟩ := List.map_eq_cons_iff.mp h
    rw [members, member_of_name he, pure_bind, ih hes, pure_bind]
    rfl

/-- A union of nodes for names has these names as its members. -/
theorem union_of_names {es : List Node} {ns : List String} (h : es.map Node.kind = ns.map kindOfName)
    (hne : ns ≠ []) (name : String) (a : Annotations) :
    union s name a es = pure (some (unionDef s name a ns)) := by
  have hempty : ns.isEmpty = false := by
    cases ns with
    | nil => exact absurd rfl hne
    | cons n ns => rfl
  rw [union, flattenAll_of_names h, members_of_names h, pure_bind, if_neg (by simp [hempty])]

/-- The names that stand for kinds other than references. -/
def scalarNames : List String := ["Boolean", "Int", "Float", "String"]

theorem declaration_scalar {m : String} (hm : m ∈ scalarNames) (i : Nat) (name : String)
    (a : Annotations) (l : Option Location) :
    declaration s i ⟨name, ⟨kindOfName m, a, l⟩⟩ = pure (some (unionDef s name a [m])) := by
  have hunion : declaration s i ⟨name, ⟨kindOfName m, a, l⟩⟩ = union s name a [⟨kindOfName m, a, l⟩] := by
    simp only [scalarNames, List.mem_cons, List.not_mem_nil, or_false] at hm
    rcases hm with rfl | rfl | rfl | rfl <;> rfl
  rw [hunion]
  exact union_of_names rfl (by simp) name a

/-! ### Documents -/

/-- The event that says what became of a declaration. -/
def conclusion (t : Declaration) (d : Option TypeDef) : Event :=
  if d.isSome then .converted t.name else .notConverted t.name

/-- Declarations that leave the registry as it is run one after the other, each to its end. -/
theorem declarations_runs_through {α : Type} {t : α → Declaration} {f : α → Option TypeDef}
    {e : Nat → α → List Event} {as : List α}
    (h : ∀ a ∈ as, ∀ i r, (declaration s i (t a)).Runs r (f a) r (e i a)) (i : Nat) (r : Registry) :
    (declarations s i (as.map t)).Runs r (as.map fun a => ((t a).name, f a)) r
      ((as.zipIdx i).flatMap fun p => e p.2 p.1 ++ [conclusion (t p.1) (f p.1)]) := by
  induction as generalizing i with
  | nil => exact .pure _ r
  | cons a as ih =>
    have hfirst := h a List.mem_cons_self i r
    have hnote : (conclusion (t a) (f a)).loss? = none := by
      unfold conclusion
      split <;> rfl
    have hothers := ih (fun a ha => h a (List.mem_cons_of_mem _ ha)) (i + 1)
    rw [List.map_cons, declarations, List.zipIdx_cons, List.flatMap_cons, List.append_assoc]
    exact hfirst.bind ((Mapping.Runs.lift (.note hnote) r).bind
      (hothers.bind_pure fun others => ((t a).name, f a) :: others))

theorem declarations_runs {α : Type} {t : α → Declaration} {f : α → TypeDef} {as : List α}
    (h : ∀ a ∈ as, ∀ i, declaration s i (t a) = pure (some (f a))) (i : Nat) (r : Registry) :
    (declarations s i (as.map t)).Runs r (as.map fun a => ((t a).name, some (f a))) r
      (as.map fun a => .converted (t a).name) := by
  have hruns := declarations_runs_through (f := fun a => some (f a)) (e := fun _ _ => [])
    (fun a ha i r => by rw [h a ha i]; exact .pure _ r) i r
  have hevents : ((as.zipIdx i).flatMap fun p => [Event.converted (t p.1).name])
      = as.map fun a => .converted (t a).name := by
    calc _ = (as.zipIdx i).map fun p => Event.converted (t p.1).name := List.map_eq_flatMap.symm
      _ = ((as.zipIdx i).map Prod.fst).map fun a => .converted (t a).name := by rw [List.map_map]; rfl
      _ = _ := by rw [List.zipIdx_map_fst]
  exact hevents ▸ hruns

theorem collect_of_declared {α : Type} (t : α → Declaration) (f : α → TypeDef) (as : List α)
    {r : Registry} (hr : r.definitions = []) :
    collect (as.map fun a => ((t a).name, some (f a))) r
      = ⟨as.map fun a => .type (f a), as.map fun a => (t a).name, []⟩ := by
  have hfilter : as.filter (fun _ => true) = as := List.filter_eq_self.mpr fun _ _ => rfl
  simp [collect, hr, List.filterMap_map, List.filter_map, Function.comp_def, hfilter]

/-- A document whose declarations all have a definition becomes these definitions, without a loss
and without a type of its own making. -/
theorem schema_of_declared {o : Options} {α : Type} {t : α → Declaration} {f : α → TypeDef}
    {as : List α} (h : ∀ a ∈ as, ∀ i, declaration o.settings i (t a) = pure (some (f a))) :
    schema o (.ofTypes (as.map t)) = ⟨.ok ⟨as.map fun a => .type (f a), as.map fun a => (t a).name, []⟩,
      as.map fun a => .converted (t a).name⟩ := by
  have hruns := declarations_runs h 0 (initialRegistry (.ofTypes (as.map t)))
  have hrun : (run o.settings (.ofTypes (as.map t))).Runs _ _ :=
    Reporting.Runs.bind_pure hruns fun s => collect s.1 s.2
  rw [collect_of_declared t f as (definitions_initialRegistry _)] at hrun
  rw [schema_of_current o rfl, hrun.conclude_of_no_losses (losses_converted _ _)]

end

end Export

/-! ## From GraphQL to core types -/

namespace Import

/-- Fields under different names are read one by one. -/
theorem properties_of_nodup {source : Source} (owner : String) {fs : List Field}
    (h : (fs.map Field.name).Nodup) :
    properties source owner fs = fs.map fun f => (f.name, property source owner f) := by
  apply Keyed.ofEntries_of_nodup
  simpa [Keyed.keys, Function.comp_def] using h

theorem unionKind?_of_two {ms : List String} (h : 2 ≤ ms.length) :
    unionKind? ms = some (.or (ms.map fun m => .ofKind (kindOfName m))) := by
  match ms, h with
  | _ :: _ :: _, _ => rfl

theorem definitions_runs {source : Source} {α : Type} {d : α → Definition} {t : α → Declaration}
    {as : List α} (h : ∀ a ∈ as, ∀ i, definition source i (d a) = .declared (t a)) (i : Nat) :
    (definitions source i (as.map d)).Runs (as.map fun a => .declared (t a))
      (as.map fun a => .converted (t a).name) := by
  induction as generalizing i with
  | nil => exact .pure _
  | cons a as ih =>
    have hfirst := h a List.mem_cons_self i
    have hothers := ih (fun a ha => h a (List.mem_cons_of_mem _ ha)) (i + 1)
    have hnote := Reporting.Runs.note (e := .converted (t a).name) rfl
    rw [List.map_cons, definitions, hfirst]
    exact hnote.bind (hothers.bind_pure fun others => .declared (t a) :: others)

/-- A schema whose definitions all are declared becomes these declarations, without a loss. -/
theorem ofSchema_of_declared {o : Options} {source : Source} {α : Type} {d : α → Definition}
    {t : α → Declaration} {as : List α}
    (h : ∀ a ∈ as, ∀ i, definition source i (d a) = .declared (t a)) :
    ofSchema o source (as.map d) = ⟨.ok ⟨.ofTypes (as.map t), as.map fun a => (t a).name, []⟩,
      as.map fun a => .converted (t a).name⟩ := by
  have hruns := (definitions_runs h 0).bind_pure collect
  rw [bind_pure_comp] at hruns
  rw [ofSchema, hruns.conclude_of_no_losses (losses_converted _ _)]
  simp [collect, List.filterMap_map, Function.comp_def, Imported.declaration?, Imported.missing?]

end Import

end SchemaBridge
