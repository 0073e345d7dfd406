import SchemaBridge.Export.Schema
/-!
# Conversions that agree

A view of losses says what there is to see of a loss. Two parts of a conversion agree up to a view if
they do the same under every policy: they leave the same value or end with the same loss, and the
same events happen up to there, losses being seen through the view. Mappings agree if they do so from
every registry.

Conversions agree if their outcomes and their warnings do. Mappers of a node and of the node under a
function agree if those of its parts do, and so do conversions of documents with such nodes.

Results:
* `Reporting.AgreeUpTo.bind`, `Mapping.AgreeUpTo.bind`: parts that agree, one after another.
* `Reporting.AgreeUpTo.conclude`: parts that agree are concluded alike.
* `Conversion.AgreeUpTo.outcome_map_eq`, `Conversion.AgreeUpTo.warnings_map_eq`: what else there is to
  say of losses is the same if the view shows it.
* `lose_agreeUpTo`, `synthesize_agreeUpTo`: the steps that look at a node.
* `fields_agreeUpTo`, `members_agreeUpTo`, `run_agreeUpTo`: lists of properties, alternatives and
  declarations, every node under a function.
-/
namespace SchemaBridge

/-- The event with a loss seen through a view. -/
def Event.mapLoss (view : Loss → Loss) : Event → Event
  | lost loss => lost (view loss)
  | e => e

def ConversionError.mapLoss (view : Loss → Loss) : ConversionError → ConversionError
  | unsupported loss => unsupported (view loss)
  | e => e

theorem losses_map_mapLoss (view : Loss → Loss) (es : List Event) :
    losses (es.map (Event.mapLoss view)) = (losses es).map view := by
  induction es with
  | nil => rfl
  | cons e es ih =>
    cases e with
    | lost loss => exact congrArg (view loss :: ·) ih
    | synthesizing | droppedField | converted | notConverted => exact ih

namespace Trace
variable {α β : Type}

/-- The trace with all losses seen through a view, at its end or before. -/
def mapLosses (view : Loss → Loss) (t : Trace α) : Trace α :=
  ⟨t.result.mapError view, t.events.map (Event.mapLoss view)⟩

theorem mapLosses_andThen (view : Loss → Loss) (t : Trace α) (f : α → Trace β) :
    (t.andThen f).mapLosses view = (t.mapLosses view).andThen fun a => (f a).mapLosses view := by
  obtain ⟨_ | a, es⟩ := t
  · rfl
  · exact congrArg (mk _) List.map_append

end Trace

namespace Reporting
variable {α β : Type} {view : Loss → Loss}

/-- The same happens under every policy, losses being seen through a view. -/
def AgreeUpTo (view : Loss → Loss) (m m' : Reporting α) : Prop :=
  ∀ p, (m p).mapLosses view = (m' p).mapLosses view

theorem AgreeUpTo.refl (m : Reporting α) : m.AgreeUpTo view m := fun _ => rfl

theorem AgreeUpTo.symm {m m' : Reporting α} (h : m.AgreeUpTo view m') : m'.AgreeUpTo view m :=
  fun p => (h p).symm

theorem AgreeUpTo.trans {m m' m'' : Reporting α} (h : m.AgreeUpTo view m')
    (h' : m'.AgreeUpTo view m'') : m.AgreeUpTo view m'' :=
  fun p => (h p).trans (h' p)

theorem AgreeUpTo.lose {loss loss' : Loss} (h : view loss = view loss') :
    (lose loss).AgreeUpTo view (lose loss') := by
  intro p
  cases p with
  | ignore => rfl
  | warn =>
    show (⟨.ok (), [.lost (view loss)]⟩ : Trace Unit) = ⟨.ok (), [.lost (view loss')]⟩
    rw [h]
  | error =>
    show (⟨.error (view loss), []⟩ : Trace Unit) = ⟨.error (view loss'), []⟩
    rw [h]

theorem AgreeUpTo.bind {m m' : Reporting α} {f f' : α → Reporting β} (hm : m.AgreeUpTo view m')
    (hf : ∀ a, (f a).AgreeUpTo view (f' a)) : (m >>= f).AgreeUpTo view (m' >>= f') := by
  intro p
  rw [bind_apply, bind_apply, Trace.mapLosses_andThen, Trace.mapLosses_andThen, hm p]
  congr 1
  funext a
  exact hf a p

end Reporting

/-- Conversions come to the same and warn of the same, losses being seen through a view. -/
structure Conversion.AgreeUpTo {α : Type} (view : Loss → Loss) (c c' : Conversion α) : Prop where
  outcome : c.outcome.mapError (ConversionError.mapLoss view)
    = c'.outcome.mapError (ConversionError.mapLoss view)
  warnings : c.warnings.map view = c'.warnings.map view

theorem Reporting.AgreeUpTo.conclude {α : Type} {view : Loss → Loss} {m m' : Reporting (Converted α)}
    (h : m.AgreeUpTo view m') (p : Policy) : (m.conclude p).AgreeUpTo view (m'.conclude p) := by
  have hresult : (m p).result.mapError view = (m' p).result.mapError view :=
    congrArg Trace.result (h p)
  have hevents : (m p).events.map (Event.mapLoss view) = (m' p).events.map (Event.mapLoss view) :=
    congrArg Trace.events (h p)
  have hloss : ∀ r : Except Loss (Converted α),
      (r.mapError ConversionError.unsupported).mapError (ConversionError.mapLoss view)
        = (r.mapError view).mapError ConversionError.unsupported := by
    rintro (loss | c) <;> rfl
  refine ⟨?_, ?_⟩
  · show ((m p).result.mapError _).mapError _ = ((m' p).result.mapError _).mapError _
    rw [hloss, hloss, hresult]
  · show (losses (m p).events).map view = (losses (m' p).events).map view
    rw [← losses_map_mapLoss, hevents, losses_map_mapLoss]

namespace Conversion
variable {α β : Type} {view : Loss → Loss} {c c' : Conversion α}

theorem AgreeUpTo.outcome_map_eq {f : ConversionError → β} (h : c.AgreeUpTo view c')
    (hf : ∀ e, f (e.mapLoss view) = f e) : c.outcome.mapError f = c'.outcome.mapError f := by
  have hshown : ∀ r : Except ConversionError (Converted α),
      r.mapError f = (r.mapError (ConversionError.mapLoss view)).mapError f := by
    rintro (e | r)
    · exact congrArg Except.error (hf e).symm
    · rfl
  rw [hshown, hshown c'.outcome, h.outcome]

theorem AgreeUpTo.warnings_map_eq {f : Loss → β} (h : c.AgreeUpTo view c')
    (hf : ∀ loss, f (view loss) = f loss) : c.warnings.map f = c'.warnings.map f := by
  have hshown : ∀ ws : List Loss, ws.map f = (ws.map view).map f := by
    intro ws
    rw [List.map_map]
    exact List.map_congr_left fun loss _ => (hf loss).symm
  rw [hshown, hshown c'.warnings, h.warnings]

end Conversion

namespace Export

open Model (Node Property Annotations Document)
open Sdl (Field)

namespace Mapping
variable {α β : Type} {view : Loss → Loss}

/-- The same happens from every registry under every policy, losses being seen through a view. -/
def AgreeUpTo (view : Loss → Loss) (m m' : Mapping α) : Prop :=
  ∀ r, Reporting.AgreeUpTo view (m.run r) (m'.run r)

theorem AgreeUpTo.refl (m : Mapping α) : m.AgreeUpTo view m := fun r => .refl (m.run r)

theorem AgreeUpTo.bind {m m' : Mapping α} {f f' : α → Mapping β} (hm : m.AgreeUpTo view m')
    (hf : ∀ a, (f a).AgreeUpTo view (f' a)) : (m >>= f).AgreeUpTo view (m' >>= f') := by
  intro r
  rw [StateT.run_bind, StateT.run_bind]
  exact (hm r).bind fun (a, r') => hf a r'

theorem AgreeUpTo.bind_left {m m' : Mapping α} (hm : m.AgreeUpTo view m') (f : α → Mapping β) :
    (m >>= f).AgreeUpTo view (m' >>= f) :=
  hm.bind fun a => .refl (f a)

theorem AgreeUpTo.bind_right (m : Mapping α) {f f' : α → Mapping β}
    (hf : ∀ a, (f a).AgreeUpTo view (f' a)) : (m >>= f).AgreeUpTo view (m >>= f') :=
  (AgreeUpTo.refl m).bind hf

end Mapping

variable {view : Loss → Loss} {s : Settings}

theorem lose_agreeUpTo {α : Type} {n n' : Node} {path : Option Path}
    (h : view (lossOf n path) = view (lossOf n' path)) :
    (lose n path : Mapping (Option α)).AgreeUpTo view (lose n' path) :=
  .bind_left (fun _ => (Reporting.AgreeUpTo.lose h).bind fun _ => .refl _) _

/-- Types are synthesized alike if they are described alike and their fields agree. -/
theorem synthesize_agreeUpTo (base hint : String) {a a' : Annotations}
    (ha : s.describe a = s.describe a') {fields fields' : String → Mapping (List Field)}
    (h : ∀ name, (fields name).AgreeUpTo view (fields' name)) :
    (synthesize s base hint a fields).AgreeUpTo view (synthesize s base hint a' fields') := by
  have hdef : ∀ name fs, objectDef s name a fs = objectDef s name a' fs := by
    intro name fs
    rw [objectDef, ha, objectDef]
  simp only [synthesize, hdef]
  exact .bind_right _ fun name => (h name).bind_left _

/-! ## Every node under a function -/

section
variable {f : Node → Node}

/-- The fields for properties agree if the types of these do, and a field that is kept is the same. -/
theorem fields_agreeUpTo {owner : String}
    (hkeep : ∀ name n required, keepField s owner name ⟨f n, required⟩
      = keepField s owner name ⟨n, required⟩) {ps : List (String × Property Node)}
    (hps : ∀ p ∈ ps, ∀ base hint,
      (fieldType s base hint p.2.node).AgreeUpTo view (fieldType s base hint (f p.2.node))) :
    (fields s owner ps).AgreeUpTo view
      (fields s owner (ps.map fun p => (p.1, ⟨f p.2.node, p.2.required⟩))) := by
  induction ps with
  | nil => exact .refl _
  | cons p ps ih =>
    obtain ⟨name, n, required⟩ := p
    have hothers := ih fun p hp => hps p (List.mem_cons_of_mem _ hp)
    rw [List.map_cons, fields, fields, hkeep]
    refine (hps _ List.mem_cons_self owner name).bind fun t => ?_
    exact .bind_right _ fun first => hothers.bind_left _

/-- Alternatives keep their positions, and with them the hints for names. -/
theorem members_agreeUpTo {base : String}
    (h : ∀ hint n, (member s base hint n).AgreeUpTo view (member s base hint (f n))) (i : Nat)
    (ns : List Node) : (members s base i ns).AgreeUpTo view (members s base i (ns.map f)) := by
  induction ns generalizing i with
  | nil => exact .refl _
  | cons n ns ih =>
    rw [List.map_cons, members, members]
    exact (h _ n).bind fun first => (ih (i + 1)).bind_left _

theorem declarations_agreeUpTo (h : ∀ i t, (declaration s i t).AgreeUpTo view
      (declaration s i { t with node := f t.node })) (i : Nat) (ts : List Model.Declaration) :
    (declarations s i ts).AgreeUpTo view
      (declarations s i (ts.map fun t => { t with node := f t.node })) := by
  induction ts generalizing i with
  | nil => exact .refl _
  | cons t ts ih =>
    rw [List.map_cons, declarations, declarations]
    refine (h i t).bind fun d => ?_
    exact .bind_right _ fun _ => (ih (i + 1)).bind_left _

theorem run_agreeUpTo (h : ∀ i t, (declaration s i t).AgreeUpTo view
      (declaration s i { t with node := f t.node })) (d : Document) :
    (run s d).AgreeUpTo view
      (run s { d with types := d.types.map fun t => { t with node := f t.node } }) := by
  have hinit : initialRegistry { d with types := d.types.map fun t => { t with node := f t.node } }
      = initialRegistry d := by
    simp [initialRegistry, Document.names, Function.comp_def]
  rw [run, run, hinit]
  exact (declarations_agreeUpTo h 0 d.types (initialRegistry d)).bind fun _ => .refl _

end

/-- Documents of one version whose declarations are mapped alike are converted alike. -/
theorem schema_agreeUpTo {o : Options} {d d' : Document} (hversion : d.version = d'.version)
    (h : (run o.settings d).AgreeUpTo view (run o.settings d')) :
    (schema o d).AgreeUpTo view (schema o d') := by
  by_cases hv : d.version = Document.currentVersion
  · rw [schema_of_current o hv, schema_of_current o (hversion ▸ hv)]
    exact h.conclude o.unsupported
  · rw [schema, schema, if_pos hv, if_pos (hversion ▸ hv), hversion]
    exact ⟨rfl, rfl⟩

end Export

end SchemaBridge
