import SchemaBridge.Export.Schema
import SchemaBridge.Import
import SchemaBridge.Proofs.Settling
/-!
# A policy decides what is said of losses, not what is produced

The mappers of core types are mutually recursive and can end at any loss. Each of them `Settles`
(`fieldType_settles`, `soleType_settles`, `fields_settles`), and so do all declarations of a document
(`run_settles`) and all definitions of a schema (`definitions_settles`).

`settles_indifferent` turns that into a statement about the three policies: to ignore losses and to
warn of them come to the same result, and to fail comes to that result or to the first warning.
-/
namespace SchemaBridge

/-! ## From core types to GraphQL -/

namespace Export

open Model (Node Kind Property Annotations Declaration Document)
open Sdl (Field)

theorem lose_settles {α : Type} (n : Node) (path : Option Path) :
    (lose n path : Mapping (Option α)).Settles :=
  .bind (.lose _) fun _ => .pure none

theorem leaf_settles (s : Settings) (n : Node) : (leaf s n).Settles := by
  unfold leaf
  split
  · exact .pure _
  · exact .pure _
  · exact .pure _
  · exact .pure _
  · exact .pure _
  · split
    · exact .pure _
    · exact lose_settles n none
  · exact lose_settles n none

/-- A name is registered before the fields are built and once more with them. -/
theorem synthesize_settles (s : Settings) (base hint : String) (a : Annotations)
    {fields : String → Mapping (List Field)} (hf : ∀ name, (fields name).Settles) :
    (synthesize s base hint a fields).Settles := by
  have hreserve : (reserve s base hint).Settles := by
    unfold reserve
    refine .bind .get fun _ => ?_
    refine .bind (.note rfl) fun _ => ?_
    exact .bind (.register _ _) fun _ => .pure _
  unfold synthesize
  refine hreserve.bind fun name => ?_
  refine (hf name).bind fun _ => ?_
  exact .bind (.register _ _) fun _ => .pure name

theorem keepField_settles (s : Settings) (owner name : String) (p : Property Node)
    (t : Option FieldType) : (keepField s owner name p t).Settles := by
  cases t with
  | some t => exact .pure _
  | none => exact .bind (.note rfl) fun _ => .pure []

mutual

theorem fieldType_settles (s : Settings) (base hint : String) :
    ∀ n : Node, (fieldType s base hint n).Settles
  | ⟨.array e, _, _⟩ => (fieldType_settles s base hint e).bind fun _ => .pure _
  | ⟨.tuple es, a, l⟩ => by
    rw [fieldType]
    split
    · exact (soleType_settles s base hint es).bind fun _ => .pure _
    · exact lose_settles _ none
  | ⟨.or es, a, l⟩ => by
    rw [fieldType]
    split
    · exact (soleType_settles s base hint es).bind fun _ => .pure _
    · exact lose_settles _ none
  | ⟨.object ps _, a, _⟩ => by
    have hfields := fun name => fields_settles s name ps
    exact (synthesize_settles s base hint a hfields).bind fun _ => .pure _
  | ⟨.boolean, _, _⟩ | ⟨.integer, _, _⟩ | ⟨.number, _, _⟩ | ⟨.string _, _, _⟩ | ⟨.null, _, _⟩
  | ⟨.ref _, _, _⟩ => (leaf_settles s _).bind fun _ => .pure _

theorem soleType_settles (s : Settings) (base hint : String) :
    ∀ ns : List Node, (soleType s base hint ns).Settles
  | [] => .pure none
  | ⟨.null, _, _⟩ :: ns => by
    rw [soleType]
    exact soleType_settles s base hint ns
  | ⟨.or es, _, _⟩ :: ns => by
    rw [soleType]
    split
    · exact soleType_settles s base hint ns
    · exact soleType_settles s base hint es
  | ⟨.array e, a, l⟩ :: _ => (fieldType_settles s base hint ⟨.array e, a, l⟩).bind fun _ => .pure _
  | ⟨.tuple es, a, l⟩ :: _ =>
    (fieldType_settles s base hint ⟨.tuple es, a, l⟩).bind fun _ => .pure _
  | ⟨.object ps x, a, l⟩ :: _ =>
    (fieldType_settles s base hint ⟨.object ps x, a, l⟩).bind fun _ => .pure _
  | ⟨.boolean, a, l⟩ :: _ | ⟨.integer, a, l⟩ :: _ | ⟨.number, a, l⟩ :: _ | ⟨.string _, a, l⟩ :: _
  | ⟨.ref _, a, l⟩ :: _ => (fieldType_settles s base hint ⟨_, a, l⟩).bind fun _ => .pure _

theorem fields_settles (s : Settings) (owner : String) :
    ∀ ps : List (String × Property Node), (fields s owner ps).Settles
  | [] => .pure []
  | (name, ⟨n, required⟩) :: ps => by
    rw [fields]
    have hothers := fields_settles s owner ps
    refine (fieldType_settles s owner name n).bind fun t => ?_
    refine (keepField_settles s owner name ⟨n, required⟩ t).bind fun _ => ?_
    exact hothers.bind fun _ => .pure _

end

theorem member_settles (s : Settings) (base hint : String) (n : Node) :
    (member s base hint n).Settles := by
  unfold member
  split
  · have hfields := fun name => fields_settles s name
    exact (synthesize_settles s base hint _ fun name => hfields name _).bind fun _ => .pure _
  · exact leaf_settles s _

theorem members_settles (s : Settings) (base : String) :
    ∀ (i : Nat) (ns : List Node), (members s base i ns).Settles
  | _, [] => .pure []
  | i, n :: ns => by
    have hfirst := member_settles s base ("T" ++ toString i) n
    have hothers := members_settles s base (i + 1) ns
    exact hfirst.bind fun _ => hothers.bind fun _ => .pure _

theorem union_settles (s : Settings) (name : String) (a : Annotations) (es : List Node) :
    (union s name a es).Settles := by
  refine (members_settles s name 0 (flattenAll es)).bind fun ms => ?_
  split
  · exact .pure none
  · exact .pure _

theorem declaration_settles (s : Settings) (index : Nat) (t : Declaration) :
    (declaration s index t).Settles := by
  unfold declaration
  split
  · exact union_settles s _ _ _
  · exact union_settles s _ _ _
  · exact union_settles s _ _ _
  · exact union_settles s _ _ _
  · split
    · exact .pure _
    · exact lose_settles _ _
  · exact union_settles s _ _ _
  · exact (fields_settles s _ _).bind fun _ => .pure _
  · exact lose_settles _ _
  · exact lose_settles _ _
  · exact lose_settles _ _

theorem declarations_settles (s : Settings) :
    ∀ (i : Nat) (ts : List Declaration), (declarations s i ts).Settles
  | _, [] => .pure []
  | i, t :: ts => by
    have hfirst := declaration_settles s i t
    have hothers := declarations_settles s (i + 1) ts
    refine hfirst.bind fun d => .bind (.note ?_) fun _ => hothers.bind fun _ => .pure _
    split <;> rfl

theorem run_settles (s : Settings) (d : Document) : (run s d).Settles := by
  obtain ⟨ts, r, es, hruns⟩ := declarations_settles s 0 d.types (initialRegistry d)
  exact ⟨collect ts r, es, Reporting.Runs.bind_pure hruns fun s => collect s.1 s.2⟩

end Export

/-! ## From GraphQL to core types -/

namespace Import

open Sdl (Schema Source)

theorem report_settles (i : Imported) : i.report.Settles := by
  cases i with
  | declared t => exact .note rfl
  | empty name => exact .note rfl
  | lost name loss => exact .lose loss

theorem definitions_settles (source : Source) :
    ∀ (i : Nat) (s : Schema), (definitions source i s).Settles
  | _, [] => .pure []
  | i, d :: ds => by
    have hfirst := report_settles (definition source i d)
    have hothers := definitions_settles source (i + 1) ds
    exact hfirst.bind fun _ => hothers.bind fun _ => .pure _

end Import

/-! ## The three policies -/

/-- Conversions, one for each policy, that differ only in what is said of losses: to ignore them and
to warn of them come to the same result, and to fail comes to that result or to the first warning. -/
structure Indifferent {α : Type} (run : Policy → Conversion α) (result : Converted α) : Prop where
  ignored : (run .ignore).outcome = .ok result
  warned : (run .warn).outcome = .ok result
  succeeds_iff : (∃ r, (run .error).outcome = .ok r) ↔ (run .warn).warnings = []
  silent : (run .warn).warnings = [] → (run .error).outcome = .ok result
  first : ∀ loss rest, (run .warn).warnings = loss :: rest →
    (run .error).outcome = .error (.unsupported loss)

/-- What settles is concluded alike under the three policies. -/
theorem settles_indifferent {α : Type} {m : Reporting (Converted α)} (h : m.Settles) :
    ∃ result, Indifferent m.conclude result := by
  obtain ⟨result, es, hm⟩ := h
  have hw : (m.conclude .warn).warnings = losses es := by
    rw [hm.conclude_warn]; rfl
  have he := hm.conclude_error
  refine ⟨result, ?_, ?_, ?_, ?_, ?_⟩
  · rw [hm.conclude_ignore]
  · rw [hm.conclude_warn]
  · rw [hw, he]
    cases losses es with
    | nil => exact ⟨fun _ => rfl, fun _ => ⟨result, rfl⟩⟩
    | cons loss rest =>
      refine ⟨?_, ?_⟩
      · rintro ⟨r, hr⟩
        cases hr
      · intro hnil
        cases hnil
  · intro hnil
    rw [he, ← hw, hnil]
  · intro loss rest hcons
    rw [he, ← hw, hcons]

/-- **The policy decides what is said of losses, never what is produced**, in both directions: for
every document of the known version with any other options, and for every text that holds a schema. -/
theorem policy_decides_reports_only :
    (∀ (o : Export.Options) (d : Model.Document), d.version = Model.Document.currentVersion →
      ∃ result, Indifferent (fun p => Export.schema { o with unsupported := p } d) result) ∧
    (∀ (text : String) (s : Sdl.Schema), Sdl.readSchema text = .ok s →
      ∃ result, Indifferent (fun p => Import.document { unsupported := p } text) result) := by
  refine ⟨?_, ?_⟩
  · intro o d hv
    obtain ⟨result, hi⟩ := settles_indifferent (Export.run_settles o.settings d)
    refine ⟨result, ?_⟩
    have hrun : (fun p => Export.schema { o with unsupported := p } d)
        = (Export.run o.settings d).conclude := by
      funext p
      exact Export.schema_of_current _ hv
    rw [hrun]
    exact hi
  · intro text s hs
    have hdefs := Import.definitions_settles (Sdl.Source.ofText text) 0 s
    have hall : (Import.collect <$> Import.definitions (Sdl.Source.ofText text) 0 s).Settles := by
      rw [← bind_pure_comp]
      exact hdefs.bind fun _ => .pure _
    obtain ⟨result, hi⟩ := settles_indifferent hall
    refine ⟨result, ?_⟩
    have hdoc : (fun p => Import.document { unsupported := p } text)
        = (Import.collect <$> Import.definitions (Sdl.Source.ofText text) 0 s).conclude := by
      funext p
      unfold Import.document
      rw [hs]
      rfl
    rw [hdoc]
    exact hi

/-- A type with an object inside whose only property is a pair, which has no counterpart. -/
def pairInside : Model.Document :=
  let pair := Model.Node.ofKind (.tuple [.ofKind .boolean, .ofKind .integer])
  .ofTypes [⟨"Line", .ofKind (.object
    [("ends", ⟨.ofKind (.object [("pair", ⟨pair, true⟩)] false), true⟩)] false)⟩]

theorem policy_decides_reports_only_pairInside :
    (pairInside.version = Model.Document.currentVersion ∧
      (Export.schema { unsupported := .warn } pairInside).warnings.length = 1 ∧
      ∃ result, Indifferent (fun p => Export.schema { unsupported := p } pairInside) result) ∧
    (∃ s, Sdl.readSchema "scalar Date" = .ok s) ∧
      (Import.document { unsupported := .warn } "scalar Date").warnings.length = 1 ∧
      ∃ result, Indifferent (fun p => Import.document { unsupported := p } "scalar Date") result := by
  have hs : (Sdl.readSchema "scalar Date").toOption.isSome = true := by decide +kernel
  cases h : Sdl.readSchema "scalar Date" with
  | error e => rw [h] at hs; cases hs
  | ok s =>
    exact ⟨⟨rfl, by decide +kernel, policy_decides_reports_only.1 {} pairInside rfl⟩, ⟨s, rfl⟩,
      by decide +kernel, policy_decides_reports_only.2 _ s h⟩

end SchemaBridge
