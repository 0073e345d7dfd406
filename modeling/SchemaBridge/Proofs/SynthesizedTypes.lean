import SchemaBridge.Proofs.Accounts
/-!
# Types for anonymous objects

An anonymous object becomes a type of its own. The registry in which its name is reserved is changed
while the definition that refers to it is still being built, and yet in the end there is one
definition for each anonymous object, in the order in which names were reserved, and under a name
that no declaration and no other such type has.

Results:
* `synthesized_types_complete`: anonymous objects and the definitions made for them correspond.
-/
namespace SchemaBridge.Export

open Model (Node Kind Property Document)
open Sdl (Schema Definition)

/-- **Synthesized types are neither lost, duplicated nor confused with declared ones**, under every
policy and for every generator that picks free names, as the one used by default does. -/
theorem synthesized_types_complete :
    NameGenerator.numbered.AlwaysFree ∧
    ∀ (o : Options) (d : Document) (c : Converted Schema), o.settings.generator.AlwaysFree →
      d.names.Nodup → (schema o d).outcome = .ok c →
      ∃ a : Account, a.Explains o.settings d c ∧ (d.names ++ a.names).Nodup ∧
        c.data.filterMap Definition.name? = c.convertedTypes ++ a.names ∧
        reserved (schema o d).events = a.names := by
  refine ⟨NameGenerator.numbered_alwaysFree, fun o d c hg hn hc => ?_⟩
  obtain ⟨fates, r, es, rfl, ⟨a, hexplains, hnodup, hreserved, -⟩, hevents⟩ :=
    collect_of_ensures (declarations_explained hg hn) hc
  exact ⟨a, hexplains, hnodup, hexplains.names_eq, hevents.trans hreserved⟩

/-- Anonymous objects inside each other, in a list and in a union, a declared name in the way of one
of them, and declarations and a property that are not converted. -/
def nestedObjects : Document :=
  let empty := Node.ofKind (.object [] false)
  let items := Node.ofKind (.array (.ofKind (.or [.ofKind .null, empty])))
  let inner := Node.ofKind (.object [("c", ⟨empty, true⟩), ("d", ⟨items, false⟩)] false)
  .ofTypes [⟨"A_b", .ofKind (.array (.ofKind .boolean))⟩,
    ⟨"A", .ofKind (.object [("b", ⟨inner, true⟩), ("e", ⟨.ofKind (.tuple []), true⟩)] false)⟩,
    ⟨"U", .ofKind (.or [.ofKind .boolean, .ofKind (.or [empty, .ofKind (.ref "A")])])⟩,
    ⟨"V", .ofKind (.or [])⟩]

theorem synthesized_types_complete_nestedObjects :
    ∃ (c : Converted Schema) (a : Account),
      (schema {} nestedObjects).outcome = .ok c ∧ nestedObjects.names.Nodup ∧
      NameGenerator.numbered.AlwaysFree ∧ a.Explains ({} : Options).settings nestedObjects c ∧
      (nestedObjects.names ++ a.names).Nodup ∧
      a.names = ["A_b_2", "A_b_2_c", "A_b_2_d", "U_T1"] := by
  have hn : nestedObjects.names.Nodup := by decide +kernel
  have hreserved : reserved (schema {} nestedObjects).events
      = ["A_b_2", "A_b_2_c", "A_b_2_d", "U_T1"] := by decide +kernel
  have hok : (schema {} nestedObjects).outcome.toOption.isSome = true := by decide +kernel
  cases hc : (schema {} nestedObjects).outcome with
  | error e => rw [hc] at hok; cases hok
  | ok c =>
    obtain ⟨hg, hall⟩ := synthesized_types_complete
    obtain ⟨a, hexplains, hnodup, -, hnames⟩ := hall {} nestedObjects c hg hn hc
    exact ⟨c, a, rfl, hn, hg, hexplains, hnodup, hnames.symm.trans hreserved⟩

end SchemaBridge.Export
