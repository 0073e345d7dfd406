import Mathlib.Data.List.TakeWhile
import SchemaBridge.Export.Mapping
/-!
# What a policy makes of a part of a conversion

`settle` says what each policy makes of one and the same value and one and the same list of events.
A part of a conversion `Runs` to a value through events if this is all that a policy decides in it.

Results:
* `Runs.pure`, `Runs.note`, `Runs.lose`: the steps of which conversions are made run.
* `Runs.bind`: one part after another runs, through the events of both.
* `Runs.conclude_error`: under the policy to fail, the first loss noted by a warning run is the end.
* `Mapping.Runs.bind`, `Mapping.Settles.bind`: the same with a registry that is passed on.
-/
namespace SchemaBridge

/-- Losses are passed over in silence, or noted, or the first of them is the end. -/
def settle {α : Type} (a : α) (es : List Event) : Policy → Trace α
  | .ignore => ⟨.ok a, es.filter fun e => e.loss?.isNone⟩
  | .warn => ⟨.ok a, es⟩
  | .error =>
    match losses es with
    | [] => ⟨.ok a, es⟩
    | first :: _ => ⟨.error first, es.takeWhile fun e => e.loss?.isNone⟩

theorem losses_append (es es' : List Event) : losses (es ++ es') = losses es ++ losses es' := by
  simp [losses]

theorem losses_eq_nil_iff {es : List Event} :
    losses es = [] ↔ ∀ e ∈ es, e.loss?.isNone = true := by
  simp [losses]

/-- A loss among events cuts the events before the first loss short. -/
theorem takeWhile_length_ne {es : List Event} {first : Loss} {rest : List Loss}
    (h : losses es = first :: rest) :
    (es.takeWhile fun e => e.loss?.isNone).length ≠ es.length := by
  intro hlen
  have hall : ∀ e ∈ es, e.loss?.isNone = true := by
    rw [← List.takeWhile_eq_self_iff]
    exact (List.takeWhile_prefix _).eq_of_length hlen
  rw [losses_eq_nil_iff.mpr hall] at h
  cases h

theorem eq_of_settle_ok {α : Type} {a a' : α} {es : List Event} {p : Policy}
    (h : (settle a es p).result = .ok a') : a' = a := by
  cases p with
  | ignore | warn => exact (Except.ok.inj h).symm
  | error =>
    simp only [settle] at h
    split at h
    · exact (Except.ok.inj h).symm
    · cases h

/-- What follows a value matters at that value only. -/
theorem andThen_congr {α β : Type} {t : Trace α} {f g : α → Trace β}
    (h : ∀ a, t.result = .ok a → f a = g a) : t.andThen f = t.andThen g := by
  unfold Trace.andThen
  split
  · next a ha => rw [h a ha]
  · rfl

/-- Settling one value after another is settling the last of them through all events. -/
theorem settle_andThen {α β : Type} (a : α) (es : List Event) (b : β) (es' : List Event)
    (p : Policy) :
    (settle a es p).andThen (fun _ => settle b es' p) = settle b (es ++ es') p := by
  cases p with
  | ignore => simp [settle, Trace.andThen]
  | warn => rfl
  | error =>
    cases h : losses es with
    | nil =>
      have hall := losses_eq_nil_iff.mp h
      cases h' : losses es' <;>
        simp [settle, Trace.andThen, losses_append, h, h', List.takeWhile_append_of_pos hall]
    | cons first rest =>
      simp only [settle, losses_append, h, List.cons_append, Trace.andThen]
      rw [List.takeWhile_append, if_neg (takeWhile_length_ne h)]

namespace Reporting
variable {α β : Type}

/-- Under every policy, carrying `m` out comes to `a` through `es`, settled as the policy says. -/
def Runs (m : Reporting α) (a : α) (es : List Event) : Prop := ∀ p, m p = settle a es p

/-- A policy decides nothing in `m` but what is said of losses. -/
def Settles (m : Reporting α) : Prop := ∃ a es, m.Runs a es

theorem Runs.pure (a : α) : (pure a : Reporting α).Runs a [] := by
  intro p
  cases p <;> rfl

theorem Runs.note {e : Event} (h : e.loss? = none) : (note e).Runs () [e] := by
  intro p
  cases p <;> simp [Reporting.note, settle, losses, h]

theorem Runs.lose (loss : Loss) : (lose loss).Runs () [.lost loss] := by
  intro p
  cases p <;> rfl

theorem Runs.bind {m : Reporting α} {f : α → Reporting β} {a : α} {b : β} {es es' : List Event}
    (hm : m.Runs a es) (hf : (f a).Runs b es') : (m >>= f).Runs b (es ++ es') := by
  intro p
  rw [bind_apply, hm p, ← settle_andThen a es b es' p]
  apply andThen_congr
  intro a' ha'
  rw [eq_of_settle_ok ha', hf p]

/-- A pure step at the end adds no event. -/
theorem Runs.bind_pure {m : Reporting α} {a : α} {es : List Event} (hm : m.Runs a es)
    (f : α → β) : (m >>= fun a => Pure.pure (f a)).Runs (f a) es := by
  have := hm.bind (f := fun a => Pure.pure (f a)) (.pure (f a))
  rwa [List.append_nil] at this

theorem Settles.pure (a : α) : (Pure.pure a : Reporting α).Settles := ⟨a, [], .pure a⟩

theorem Settles.note {e : Event} (h : e.loss? = none) : (Reporting.note e).Settles :=
  ⟨(), [e], .note h⟩

theorem Settles.lose (loss : Loss) : (Reporting.lose loss).Settles := ⟨(), [.lost loss], .lose loss⟩

theorem Settles.bind {m : Reporting α} {f : α → Reporting β} (hm : m.Settles)
    (hf : ∀ a, (f a).Settles) : (m >>= f).Settles := by
  obtain ⟨a, es, hr⟩ := hm
  obtain ⟨b, es', hr'⟩ := hf a
  exact ⟨b, es ++ es', hr.bind hr'⟩

section
variable {m : Reporting (Converted α)} {a : Converted α} {es : List Event}

theorem Runs.conclude_ignore (h : m.Runs a es) :
    m.conclude .ignore = ⟨.ok a, es.filter fun e => e.loss?.isNone⟩ := by
  unfold conclude
  rw [h .ignore]
  rfl

theorem Runs.conclude_warn (h : m.Runs a es) : m.conclude .warn = ⟨.ok a, es⟩ := by
  unfold conclude
  rw [h .warn]
  rfl

theorem Runs.conclude_error (h : m.Runs a es) :
    (m.conclude .error).outcome = match losses es with
      | [] => .ok a
      | first :: _ => .error (.unsupported first) := by
  unfold conclude
  rw [h .error]
  unfold settle
  cases losses es <;> rfl

/-- Any policy but the one to fail goes on to the end. -/
theorem Runs.outcome_of_ne_error (h : m.Runs a es) {p : Policy} (hp : p ≠ .error) :
    (m.conclude p).outcome = .ok a := by
  cases p with
  | ignore => rw [h.conclude_ignore]
  | warn => rw [h.conclude_warn]
  | error => exact absurd rfl hp

/-- Without losses, all policies come to the same. -/
theorem Runs.conclude_of_no_losses (h : m.Runs a es) (hl : losses es = []) (p : Policy) :
    m.conclude p = ⟨.ok a, es⟩ := by
  have hall := losses_eq_nil_iff.mp hl
  unfold conclude
  rw [h p]
  cases p with
  | ignore => simp only [settle, List.filter_eq_self.mpr hall]; rfl
  | warn => rfl
  | error => simp only [settle, hl]; rfl

end

end Reporting

/-! ## Mappings -/

namespace Export.Mapping

open Sdl (TypeDef)

variable {α β : Type}

/-- From a registry, the mapping comes to a value and a registry through events, whatever the policy. -/
def Runs (m : Mapping α) (r : Registry) (a : α) (r' : Registry) (es : List Event) : Prop :=
  Reporting.Runs (m.run r) (a, r') es

/-- From every registry, a policy decides nothing in the mapping but what is said of losses. -/
def Settles (m : Mapping α) : Prop := ∀ r, ∃ a r' es, m.Runs r a r' es

theorem Runs.pure (a : α) (r : Registry) : (pure a : Mapping α).Runs r a r [] :=
  Reporting.Runs.pure (a, r)

theorem Runs.bind {m : Mapping α} {f : α → Mapping β} {r r' r'' : Registry} {a : α} {b : β}
    {es es' : List Event} (hm : m.Runs r a r' es) (hf : (f a).Runs r' b r'' es') :
    (m >>= f).Runs r b r'' (es ++ es') := by
  unfold Runs
  rw [StateT.run_bind]
  exact Reporting.Runs.bind hm hf

theorem Runs.lift {m : Reporting α} {a : α} {es : List Event} (hm : m.Runs a es) (r : Registry) :
    (liftM m : Mapping α).Runs r a r es := by
  exact hm.bind_pure fun a => (a, r)

theorem Runs.bind_pure {m : Mapping α} {r r' : Registry} {a : α} {es : List Event}
    (hm : m.Runs r a r' es) (f : α → β) :
    (m >>= fun a => Pure.pure (f a)).Runs r (f a) r' es := by
  have := hm.bind (f := fun a => Pure.pure (f a)) (.pure (f a) r')
  rwa [List.append_nil] at this

theorem Runs.get (r : Registry) : (MonadState.get : Mapping Registry).Runs r r r [] :=
  Reporting.Runs.pure (r, r)

theorem Runs.register (name : String) (d : Option TypeDef) (r : Registry) :
    (register name d).Runs r () (r.put name d) [] :=
  Reporting.Runs.pure ((), r.put name d)

theorem Settles.pure (a : α) : (Pure.pure a : Mapping α).Settles := fun r => ⟨a, r, [], .pure a r⟩

theorem Settles.bind {m : Mapping α} {f : α → Mapping β} (hm : m.Settles)
    (hf : ∀ a, (f a).Settles) : (m >>= f).Settles := by
  intro r
  obtain ⟨a, r', es, hr⟩ := hm r
  obtain ⟨b, r'', es', hr'⟩ := hf a r'
  exact ⟨b, r'', es ++ es', hr.bind hr'⟩

theorem Settles.note {e : Event} (h : e.loss? = none) :
    (liftM (Reporting.note e) : Mapping Unit).Settles :=
  fun r => ⟨(), r, [e], .lift (.note h) r⟩

theorem Settles.lose (loss : Loss) : (liftM (Reporting.lose loss) : Mapping Unit).Settles :=
  fun r => ⟨(), r, [.lost loss], .lift (.lose loss) r⟩

theorem Settles.get : (MonadState.get : Mapping Registry).Settles := fun r => ⟨r, r, [], .get r⟩

theorem Settles.register (name : String) (d : Option TypeDef) : (Mapping.register name d).Settles :=
  fun r => ⟨(), r.put name d, [], .register name d r⟩

end Export.Mapping

end SchemaBridge
