import SchemaBridge.Export.Schema
import SchemaBridge.Proofs.Settling
/-!
# What a mapping ensures

A mapping ensures a property of its value, of the registry that it leaves and of its events if these
have the property whatever the policy. A conversion that is carried out under some policy and
succeeds has the value that was ensured, and reserves the names that were reserved.

Results:
* `Ensures.pure`, `Ensures.bind`, `Ensures.mono`: properties of one mapping after another.
* `Ensures.note`, `Ensures.lose`: the steps that report.
* `reserve_runs`: what a reservation does to the registry.
* `synthesize_ensures`: a synthesized type has its name before its fields.
* `Runs.outcome_eq`, `Runs.reserved_eq`: what a successful conversion has of all that.
* `collect_of_ensures`: the same for the schema of a document.
-/
namespace SchemaBridge

/-! ## Reserved names -/

/-- The name that is reserved for a synthesized type. -/
def Event.reserved? : Event → Option String
  | synthesizing name => some name
  | _ => none

/-- The names that are reserved in the course of events, in order. -/
def reserved (es : List Event) : List String := es.filterMap Event.reserved?

@[simp] theorem reserved_nil : reserved [] = [] := rfl

@[simp] theorem reserved_append (es es' : List Event) :
    reserved (es ++ es') = reserved es ++ reserved es' := List.filterMap_append

/-- Losses reserve nothing. -/
theorem reserved_filter (es : List Event) :
    reserved (es.filter fun e => e.loss?.isNone) = reserved es := by
  induction es with
  | nil => rfl
  | cons e es ih =>
    cases e with
    | lost => exact ih
    | synthesizing name => exact congrArg (name :: ·) ih
    | droppedField | converted | notConverted => exact ih

namespace Reporting
variable {α : Type} {m : Reporting (Converted α)} {a c : Converted α} {es : List Event} {p : Policy}

theorem Runs.outcome_eq (h : m.Runs a es) (hc : (m.conclude p).outcome = .ok c) : c = a := by
  cases p with
  | ignore =>
    rw [h.conclude_ignore] at hc
    exact (Except.ok.inj hc).symm
  | warn =>
    rw [h.conclude_warn] at hc
    exact (Except.ok.inj hc).symm
  | error =>
    rw [h.conclude_error] at hc
    split at hc
    · exact (Except.ok.inj hc).symm
    · cases hc

theorem Runs.reserved_eq (h : m.Runs a es) (hc : (m.conclude p).outcome = .ok c) :
    reserved (m.conclude p).events = reserved es := by
  cases p with
  | ignore =>
    rw [h.conclude_ignore]
    exact reserved_filter es
  | warn => rw [h.conclude_warn]
  | error =>
    rw [h.conclude_error] at hc
    split at hc
    · next hnil => rw [h.conclude_of_no_losses hnil]
    · cases hc

end Reporting

namespace Export.Mapping

variable {α β : Type} {r : Registry} {Q : α → Registry → List Event → Prop}

/-- From a registry, the mapping comes to a value, a registry and events that have the property,
whatever the policy. -/
def Ensures (m : Mapping α) (r : Registry) (Q : α → Registry → List Event → Prop) : Prop :=
  ∃ a r' es, m.Runs r a r' es ∧ Q a r' es

theorem Ensures.mono {m : Mapping α} {R : α → Registry → List Event → Prop} (h : m.Ensures r Q)
    (himp : ∀ a r' es, Q a r' es → R a r' es) : m.Ensures r R := by
  obtain ⟨a, r', es, hruns, hQ⟩ := h
  exact ⟨a, r', es, hruns, himp a r' es hQ⟩

theorem Ensures.pure {a : α} (h : Q a r []) : (Pure.pure a : Mapping α).Ensures r Q :=
  ⟨a, r, [], .pure a r, h⟩

theorem Ensures.bind {m : Mapping α} {f : α → Mapping β} {R : β → Registry → List Event → Prop}
    (hm : m.Ensures r Q)
    (hf : ∀ a r' es, Q a r' es → (f a).Ensures r' fun b r'' es' => R b r'' (es ++ es')) :
    (m >>= f).Ensures r R := by
  obtain ⟨a, r', es, hruns, hQ⟩ := hm
  obtain ⟨b, r'', es', hruns', hR⟩ := hf a r' es hQ
  exact ⟨b, r'', es ++ es', hruns.bind hruns', hR⟩

theorem Ensures.note {e : Event} {Q : Unit → Registry → List Event → Prop} (he : e.loss? = none)
    (h : Q () r [e]) : (liftM (Reporting.note e) : Mapping Unit).Ensures r Q :=
  ⟨(), r, [e], .lift (.note he) r, h⟩

theorem Ensures.lose {loss : Loss} {Q : Unit → Registry → List Event → Prop}
    (h : Q () r [.lost loss]) : (liftM (Reporting.lose loss) : Mapping Unit).Ensures r Q :=
  ⟨(), r, [.lost loss], .lift (.lose loss) r, h⟩

end Export.Mapping

/-! ## Synthesizing a type -/

namespace Export

open Model (Annotations Document)
open Sdl (Field Schema TypeDef)
open Mapping (register)

/-- A name is chosen from the names in use, and is in use itself from then on. -/
theorem reserve_runs (s : Settings) (base hint : String) (r : Registry) :
    (reserve s base hint).Runs r (s.generator base hint r.keys)
      (r.put (s.generator base hint r.keys) none)
      [.synthesizing (s.generator base hint r.keys)] := by
  have hget := Mapping.Runs.get r
  have hnote := Mapping.Runs.lift (.note (e := .synthesizing (s.generator base hint r.keys)) rfl) r
  have hput := (Mapping.Runs.register (s.generator base hint r.keys) none r).bind_pure
    fun _ => s.generator base hint r.keys
  exact hget.bind (hnote.bind hput)

/-- A name is chosen and registered without a definition before the fields are built, and registered
with one afterwards. -/
theorem synthesize_ensures {s : Settings} {base hint name : String} {a : Annotations}
    {fields : String → Mapping (List Field)} {r : Registry}
    {Q : String → Registry → List Event → Prop} (hname : s.generator base hint r.keys = name)
    (hfields : (fields name).Ensures (r.put name none) fun fs r' es =>
      Q name (r'.put name (some (objectDef s name a fs))) (.synthesizing name :: es)) :
    (synthesize s base hint a fields).Ensures r Q := by
  have hreserve : (reserve s base hint).Runs r name (r.put name none) [.synthesizing name] :=
    hname ▸ reserve_runs s base hint r
  obtain ⟨fs, r', es, hruns, hQ⟩ := hfields
  have hput := (Mapping.Runs.register name (some (objectDef s name a fs)) r').bind_pure
    fun _ => name
  have hall := hreserve.bind (f := fun name => do
    let fs ← fields name
    register name (some (objectDef s name a fs))
    pure name) (hruns.bind hput)
  rw [List.append_nil] at hall
  exact ⟨name, _, _, hall, hQ⟩

/-! ## Documents -/

section
variable {o : Options} {d : Document} {c : Converted Schema} {es : List Event}
  {Q : List (String × Option TypeDef) → Registry → List Event → Prop}

theorem run_runs {s : Settings} {fates : List (String × Option TypeDef)} {r : Registry}
    (h : (declarations s 0 d.types).Runs (initialRegistry d) fates r es) :
    (run s d).Runs (collect fates r) es :=
  Reporting.Runs.bind_pure h fun s => collect s.1 s.2

/-- A schema that there is was collected from what the declarations ensure. -/
theorem collect_of_ensures
    (h : (declarations o.settings 0 d.types).Ensures (initialRegistry d) Q)
    (hc : (schema o d).outcome = .ok c) :
    ∃ fates r es, c = collect fates r ∧ Q fates r es ∧
      reserved (schema o d).events = reserved es := by
  obtain ⟨fates, r, es, hruns, hQ⟩ := h
  by_cases hv : d.version = Document.currentVersion
  · rw [schema_of_current o hv] at hc ⊢
    exact ⟨fates, r, es, (run_runs hruns).outcome_eq hc, hQ, (run_runs hruns).reserved_eq hc⟩
  · rw [schema, if_pos hv] at hc
    cases hc

end

end Export

end SchemaBridge
