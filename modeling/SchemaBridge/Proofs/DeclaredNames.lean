import SchemaBridge.Proofs.PolicyIndifference
import SchemaBridge.Proofs.References
/-!
# What becomes of declared names

A conversion says of every declaration whether it was converted. In either direction the names that
were declared are an interleaving of those that are converted and those that are not, so that none is
missing, none is reported twice, and both reports keep the order, however often a name is declared
and whatever the policy.

Results:
* `interleaved_fates`: declarations with a definition, and those without.
* `fates_definitions`: the definitions of declarations, by name.
* `interleaved_imported`, `definitions_imported`: definitions that are declared, and others.
* `declared_names_accounted`: both directions.
-/
namespace SchemaBridge

open Model (Document Declaration)
open Sdl (TypeDef Definition Schema Source)

/-- A sequence that is put together from two others, each of which keeps its order. -/
inductive Interleaved {α : Type} : (left right whole : List α) → Prop
  | nil : Interleaved [] [] []
  | left {xs ys zs : List α} (x : α) (h : Interleaved xs ys zs) : Interleaved (x :: xs) ys (x :: zs)
  | right {xs ys zs : List α} (y : α) (h : Interleaved xs ys zs) : Interleaved xs (y :: ys) (y :: zs)

/-! ## From documents to schemas -/

namespace Export

/-- A declaration has a definition, or it has none. -/
theorem interleaved_fates (fates : List (String × Option TypeDef)) (r : Registry) :
    Interleaved (collect fates r).convertedTypes (collect fates r).notConvertedTypes
      (fates.map Prod.fst) := by
  induction fates with
  | nil => exact .nil
  | cons fate fates ih =>
    obtain ⟨name, d⟩ := fate
    cases d with
    | none => exact .right name ih
    | some d => exact .left name ih

/-- The definitions of declarations have the names of those that are converted. -/
theorem fates_definitions {fates : List (String × Option TypeDef)} {known : List String}
    (h : ∀ e ∈ fates, DefinedIn e.1 e.2 known) (r : Registry) :
    (fates.filterMap Prod.snd).map TypeDef.name = (collect fates r).convertedTypes := by
  induction fates with
  | nil => rfl
  | cons fate fates ih =>
    obtain ⟨name, d⟩ := fate
    obtain ⟨hfate, hfates⟩ := List.forall_mem_cons.mp h
    cases d with
    | none => exact ih hfates
    | some d => exact congrArg₂ List.cons (hfate d rfl).1 (ih hfates)

theorem schema_accounted {o : Options} {d : Document} {c : Converted Schema}
    (hc : (schema o d).outcome = .ok c) :
    Interleaved c.convertedTypes c.notConvertedTypes d.names ∧
      ∃ own rest : List TypeDef, c.data = own.map .type ++ rest.map .type ∧
        own.map TypeDef.name = c.convertedTypes := by
  have hknown : ∀ t ∈ d.types, o.settings.builtin ++ t.node.targets
      ⊆ d.types.flatMap fun t => o.settings.builtin ++ t.node.targets :=
    fun t ht _ hm => List.mem_flatMap.mpr ⟨t, ht, hm⟩
  obtain ⟨fates, r, es, rfl, ⟨-, hnames, hfates⟩, -⟩ :=
    collect_of_ensures (declarations_resolves 0 hknown (initialRegistry d)) hc
  refine ⟨?_, fates.filterMap Prod.snd, Registry.definitions r, List.map_append, ?_⟩
  · rw [Document.names, ← hnames]
    exact interleaved_fates fates r
  · exact fates_definitions hfates r

end Export

/-! ## From schemas to documents -/

namespace Import

/-- The name of the definition that something was made of. -/
def Imported.name? : Imported → Option String
  | declared t => some t.name
  | empty name => some name
  | lost name _ => name

theorem name?_definition (source : Source) (index : Nat) (d : Definition) :
    (definition source index d).name? = d.name? := by
  cases d with
  | schema | extension | directive => rfl
  | type t =>
    obtain ⟨position, description, name, directives, body⟩ := t
    cases body with
    | scalar | interface | input | object | enum => rfl
    | union ms =>
      cases ms with
      | nil => rfl
      | cons m ms => cases ms <;> rfl

/-- What definitions become is told from their names, converted or not. -/
theorem interleaved_imported {is : List Imported} {s : Schema}
    (h : is.map Imported.name? = s.map Definition.name?) :
    Interleaved (collect is).convertedTypes (collect is).notConvertedTypes
      (s.filterMap Definition.name?) := by
  have hnames : is.filterMap Imported.name? = s.filterMap Definition.name? := by
    have hsome := congrArg (List.filterMap id) h
    rwa [List.filterMap_map, List.filterMap_map] at hsome
  rw [← hnames]
  clear h hnames
  induction is with
  | nil => exact .nil
  | cons i is ih =>
    cases i with
    | declared t => exact .left t.name ih
    | empty name => exact .right name ih
    | lost name loss =>
      cases name with
      | none => exact ih
      | some name => exact .right name ih

/-- Definitions are imported one by one, whatever the policy. -/
theorem definitions_imported (source : Source) (i : Nat) (s : Schema) :
    ∃ is es, (definitions source i s).Runs is es ∧
      is.map Imported.name? = s.map Definition.name? := by
  induction s generalizing i with
  | nil => exact ⟨[], [], .pure [], rfl⟩
  | cons d ds ih =>
    obtain ⟨_, es, hreport⟩ := report_settles (definition source i d)
    obtain ⟨is, es', hruns, hnames⟩ := ih (i + 1)
    refine ⟨definition source i d :: is, _, hreport.bind (hruns.bind_pure _), ?_⟩
    rw [List.map_cons, List.map_cons, name?_definition, hnames]

theorem document_accounted {o : Options} {text : String} {c : Converted Document}
    (hc : (document o text).outcome = .ok c) :
    ∃ s, Sdl.readSchema text = .ok s ∧
      Interleaved c.convertedTypes c.notConvertedTypes (s.filterMap Definition.name?) ∧
      c.data.version = 1 ∧ c.data.names = c.convertedTypes := by
  unfold document at hc
  split at hc
  · next s hs =>
    obtain ⟨is, es, hruns, hnames⟩ := definitions_imported (.ofText text) 0 s
    have hall : (collect <$> definitions (.ofText text) 0 s).Runs (collect is) es := by
      rw [← bind_pure_comp]
      exact hruns.bind_pure collect
    obtain rfl := hall.outcome_eq hc
    exact ⟨s, hs, interleaved_imported hnames, rfl, rfl⟩
  · cases hc

end Import

/-- **Every declared name is accounted for, in order**, whatever the policy and however often a name
is declared. The names of a document are an interleaving of those that are converted and those that
are not, and the schema begins with the definitions of the converted ones. So are the names that a
schema defines, and the document declares the converted ones. -/
theorem declared_names_accounted :
    (∀ {o : Export.Options} {d : Document} {c : Converted Schema},
      (Export.schema o d).outcome = .ok c →
        Interleaved c.convertedTypes c.notConvertedTypes d.names ∧
        ∃ own rest : List TypeDef, c.data = own.map .type ++ rest.map .type ∧
          own.map TypeDef.name = c.convertedTypes) ∧
    ∀ {o : Import.Options} {text : String} {c : Converted Document},
      (Import.document o text).outcome = .ok c →
        ∃ s, Sdl.readSchema text = .ok s ∧
          Interleaved c.convertedTypes c.notConvertedTypes (s.filterMap Definition.name?) ∧
          c.data.version = 1 ∧ c.data.names = c.convertedTypes :=
  ⟨Export.schema_accounted, Import.document_accounted⟩

/-- Three declarations of one name, the second of which is lost, and one without alternatives. -/
def sharedName : Document :=
  .ofTypes [⟨"A", .ofKind .boolean⟩, ⟨"A", .ofKind (.tuple [])⟩, ⟨"B", .ofKind (.or [])⟩,
    ⟨"A", .ofKind (.object [("a", ⟨.ofKind (.object [] false), true⟩)] false)⟩]

/-- A schema that names `A` four times, in definitions that are declared and others. -/
def sharedNameText : String :=
  "scalar A type A { a: Int } schema { query: A } union B enum A { X } extend type A { b: Int }"

theorem declared_names_accounted_sharedName :
    (∃ c, (Export.schema {} sharedName).outcome = .ok c ∧
      c.convertedTypes = ["A", "A"] ∧ c.notConvertedTypes = ["A", "B"] ∧
      Interleaved c.convertedTypes c.notConvertedTypes sharedName.names ∧
      ∃ own rest : List TypeDef, c.data = own.map .type ++ rest.map .type ∧
        own.map TypeDef.name = c.convertedTypes) ∧
    ∃ c, (Import.document {} sharedNameText).outcome = .ok c ∧
      c.convertedTypes = ["A", "A"] ∧ c.notConvertedTypes = ["A", "B", "A"] ∧
      ∃ s, Sdl.readSchema sharedNameText = .ok s ∧
        Interleaved c.convertedTypes c.notConvertedTypes (s.filterMap Definition.name?) ∧
        c.data.version = 1 ∧ c.data.names = c.convertedTypes := by
  have hexported : ((Export.schema {} sharedName).outcome.toOption.map
      fun c => (c.convertedTypes, c.notConvertedTypes)) = some (["A", "A"], ["A", "B"]) := by
    decide +kernel
  have himported : ((Import.document {} sharedNameText).outcome.toOption.map
      fun c => (c.convertedTypes, c.notConvertedTypes)) = some (["A", "A"], ["A", "B", "A"]) := by
    decide +kernel
  refine ⟨?_, ?_⟩
  · cases hc : (Export.schema {} sharedName).outcome with
    | error e => rw [hc] at hexported; cases hexported
    | ok c =>
      rw [hc] at hexported
      obtain ⟨hconverted, hnot⟩ := Prod.mk.inj (Option.some.inj hexported)
      exact ⟨c, rfl, hconverted, hnot, declared_names_accounted.1 hc⟩
  · cases hc : (Import.document {} sharedNameText).outcome with
    | error e => rw [hc] at himported; cases himported
    | ok c =>
      rw [hc] at himported
      obtain ⟨hconverted, hnot⟩ := Prod.mk.inj (Option.some.inj himported)
      exact ⟨c, rfl, hconverted, hnot, declared_names_accounted.2 hc⟩

end SchemaBridge
