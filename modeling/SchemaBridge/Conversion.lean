import SchemaBridge.ConversionError
import SchemaBridge.Policy
/-!
# Conversions and what happens in them

A conversion leaves an outcome and the events on the way to it. Its parts are carried out under a
policy, which says what becomes of a loss: silence, a warning, or the end of the conversion.

Results:
* `pure_apply`, `bind_apply`: how the parts of a conversion compose.
* `instLawfulMonadReporting`: composition is associative, and `pure` is neutral in it.
-/
namespace SchemaBridge

/-- What a conversion produces, and what it made of each name that was declared. -/
structure Converted (α : Type) where
  data : α
  convertedTypes : List String
  notConvertedTypes : List String

/-- Something that happens in a conversion. -/
inductive Event where
  | lost (loss : Loss)
  | synthesizing (name : String)
  | droppedField (owner field : String)
  | converted (name : String)
  | notConverted (name : String)

def Event.loss? : Event → Option Loss
  | lost loss => some loss
  | _ => none

/-- The losses among events, in order. -/
def losses (events : List Event) : List Loss := events.filterMap Event.loss?

/-- A conversion as its caller sees it: the outcome, and the events up to it. -/
structure Conversion (α : Type) where
  outcome : Except ConversionError (Converted α)
  events : List Event

namespace Conversion
variable {α : Type}

/-- A conversion that did not begin. -/
def failed (e : ConversionError) : Conversion α := ⟨.error e, []⟩

/-- The losses that are reported as warnings. -/
def warnings (c : Conversion α) : List Loss := losses c.events

/-- The conversion with its data changed. -/
def map {β : Type} (f : α → β) (c : Conversion α) : Conversion β :=
  { outcome := c.outcome.map fun r => { r with data := f r.data }
    events := c.events }

end Conversion

/-- A value whose image can be computed is there. -/
theorem exists_ok_of_map {ε α β : Type} {x : Except ε α} {f : α → β} {b : β}
    (h : x.toOption.map f = some b) : ∃ a, x = .ok a ∧ f a = b := by
  cases x with
  | error e => cases h
  | ok a => exact ⟨a, rfl, Option.some.inj h⟩

/-! ## Parts of a conversion -/

/-- What a part of a conversion leaves: a value or the loss that ended it, and the events up to there. -/
structure Trace (α : Type) where
  result : Except Loss α
  events : List Event

/-- The trace of a part and of what follows from its value; nothing follows a loss that ended it. -/
def Trace.andThen {α β : Type} (t : Trace α) (f : α → Trace β) : Trace β :=
  match t.result with
  | .ok a =>
    let u := f a
    ⟨u.result, t.events ++ u.events⟩
  | .error loss => ⟨.error loss, t.events⟩

/-- A part of a conversion, which a policy tells what to do about losses. -/
def Reporting (α : Type) := Policy → Trace α

namespace Reporting
variable {α β : Type}

instance : Monad Reporting where
  pure a := fun _ => ⟨.ok a, []⟩
  bind m f := fun p => (m p).andThen fun a => f a p

@[simp] theorem pure_apply (a : α) (p : Policy) : (pure a : Reporting α) p = ⟨.ok a, []⟩ := rfl

@[simp] theorem bind_apply (m : Reporting α) (f : α → Reporting β) (p : Policy) :
    (m >>= f) p = (m p).andThen fun a => f a p := rfl

instance instLawfulMonadReporting : LawfulMonad Reporting :=
  LawfulMonad.mk' Reporting
    (fun m => by
      funext p
      rcases h : m p with ⟨_ | a, es⟩ <;> simp [Functor.map, Trace.andThen, Function.comp, h])
    (fun a f => by funext p; simp [Trace.andThen])
    (fun m f g => by
      funext p
      rcases h : m p with ⟨_ | a, es⟩ <;> simp only [bind_apply, Trace.andThen, h]
      rcases f a p with ⟨_ | b, es'⟩ <;> simp)

/-- Something that happens, other than a loss. -/
def note (e : Event) : Reporting Unit := fun _ => ⟨.ok (), [e]⟩

/-- A loss: passed over in silence, noted, or the end. -/
def lose (loss : Loss) : Reporting Unit
  | .ignore => ⟨.ok (), []⟩
  | .warn => ⟨.ok (), [.lost loss]⟩
  | .error => ⟨.error loss, []⟩

/-- The conversion that comes of carrying out all of it under a policy. -/
def conclude (m : Reporting (Converted α)) (p : Policy) : Conversion α :=
  let t := m p
  ⟨t.result.mapError .unsupported, t.events⟩

end Reporting

end SchemaBridge
