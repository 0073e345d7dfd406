import SchemaBridge.Proofs.Accounts
import SchemaBridge.Proofs.References
/-!
# Names that a synthesized type may take

The generator used by default keeps away from names in use, and these are the names of declarations
and of types made before. A reference to a name that is declared nowhere, and the name of the type
for `null`, are no such use: a synthesized type can take such a name, but only if it is spelled as
the generator spells names, with the owner of the anonymous object and the hint for it.

Results:
* `Account.Explains.synthesized_eq`: which definitions of a schema are synthesized.
* `synthesized_name`: how they are named.
* `undeclared_target_captured`: a reference to an undeclared name may be taken for one of them.
* `undeclared_of_synthesized`: what is synthesized has names that are declared nowhere and so spelled.
* `captures_only_undeclared`: no reference to a declared name is taken for one of them.
-/
namespace SchemaBridge.Export

open Model (Node Kind Property Declaration Document)
open Sdl (TypeDef Schema Definition)

/-- The definitions after those of declarations. -/
def synthesized (c : Converted Schema) : Schema := c.data.drop c.convertedTypes.length

section
variable {s : Settings} {d : Document} {c : Converted Schema} {a : Account}

/-- The definitions that are synthesized are those that were made. -/
theorem Account.Explains.synthesized_eq (h : a.Explains s d c) :
    synthesized c = a.made.map fun w => .type w.definition := by
  have hdrop : c.convertedTypes.length
      = ((a.declared.filterMap Prod.snd).map Definition.type).length := by
    rw [h.converted, ← names_of_fates h.fates, List.length_map, List.length_map]
  rw [synthesized, h.data, Account.definitions, List.map_append, hdrop, List.drop_left,
    List.map_map]
  rfl

/-- A name is spelled as the default generator spells names: with the name of a declaration or of a
synthesized type, and the hint of an anonymous object. -/
def IsSpelled (d : Document) (c : Converted Schema) (name : String) : Prop :=
  ∃ owner ∈ d.names ++ (synthesized c).filterMap Definition.name?,
    ∃ hint ∈ (documentSites d).map Site.hint,
      ∃ n, name = NameGenerator.numberedName (owner ++ "_" ++ hint) n

/-- What the default generator names is not declared, and is spelled with its owner and its hint. -/
theorem synthesized_name (hg : s.generator = .numbered) (h : a.Explains s d c)
    (hnodup : (d.names ++ a.names).Nodup) {f : Definition} (hf : f ∈ synthesized c) {name : String}
    (hname : f.name? = some name) : name ∉ d.names ∧ IsSpelled d c name := by
  rw [h.synthesized_eq] at hf
  obtain ⟨w, hw, rfl⟩ := List.mem_map.mp hf
  obtain rfl : w.name = name := Option.some.inj hname
  refine ⟨?_, w.owner, ?_, w.site.hint, ?_, ?_⟩
  · intro hdeclared
    exact List.disjoint_of_nodup_append hnodup hdeclared (List.mem_map_of_mem hw)
  · have hnames : (synthesized c).filterMap Definition.name? = a.names := by
      rw [h.synthesized_eq, List.filterMap_map]
      exact congrFun List.filterMap_eq_map a.made
    rw [hnames]
    exact h.owned w hw
  · rw [← h.sites, List.map_map]
    exact List.mem_map_of_mem hw
  · obtain ⟨used, hused⟩ := (h.valid w hw).named
    rw [hused, hg]
    exact NameGenerator.exists_numberedName _ _ used

end

/-- A line with an anonymous end, and a reference to a name that is declared nowhere. -/
def lineEnd : Document :=
  .ofTypes [⟨"Line", .ofKind (.object [("end", ⟨.ofKind (.object [] false), true⟩),
    ("by", ⟨.ofKind (.ref "Line_end"), true⟩)] false)⟩]

/-- The anonymous end takes the name that is referred to. -/
theorem undeclared_target_captured :
    ¬ ∀ (o : Options) (d : Document) (c : Converted Schema), o.settings.generator = .numbered →
      d.names.Nodup → (schema o d).outcome = .ok c → ∀ f ∈ synthesized c, ∀ name,
        name ∈ d.targets ∨ o.nullTypeName = some name → f.name? ≠ some name := by
  intro hall
  have hn : lineEnd.names.Nodup := by decide +kernel
  have htarget : "Line_end" ∈ lineEnd.targets := by decide +kernel
  have hnames : ((schema {} lineEnd).outcome.toOption.map fun c =>
      (synthesized c).map Definition.name?) = some [some "Line_end"] := by decide +kernel
  cases hc : (schema {} lineEnd).outcome with
  | error e => rw [hc] at hnames; cases hnames
  | ok c =>
    rw [hc] at hnames
    obtain ⟨f, hf, hname⟩ : ∃ f ∈ synthesized c, f.name? = some "Line_end" := by
      have hnames' : (synthesized c).map Definition.name? = [some "Line_end"] :=
        Option.some.inj hnames
      rw [← List.mem_map, hnames']
      exact List.mem_singleton_self _
    exact hall {} lineEnd c rfl hn hc f hf "Line_end" (.inl htarget) hname

/-- What is synthesized with the default generator has names that are declared nowhere and spelled as
it spells them, whether anything refers to them or not. -/
theorem undeclared_of_synthesized {o : Options} {d : Document} {c : Converted Schema}
    (hg : o.settings.generator = .numbered) (hn : d.names.Nodup) (hc : (schema o d).outcome = .ok c)
    {f : Definition} (hf : f ∈ synthesized c) {name : String} (hname : f.name? = some name) :
    name ∉ d.names ∧ IsSpelled d c name := by
  have hfree : o.settings.generator.AlwaysFree := by
    rw [hg]
    exact NameGenerator.numbered_alwaysFree
  obtain ⟨fates, r, es, rfl, ⟨a, hexplains, hnodup, -⟩, -⟩ :=
    collect_of_ensures (declarations_explained hfree hn) hc
  exact synthesized_name hg hexplains hnodup hf hname

/-- **No reference to a declared name is taken for a synthesized type**, and no type for `null` that
is declared: with the default generator only names that are declared nowhere are in danger, and of
these only the ones spelled as it spells names. -/
theorem captures_only_undeclared {o : Options} {d : Document} {c : Converted Schema}
    (hg : o.settings.generator = .numbered) (hn : d.names.Nodup)
    (hc : (schema o d).outcome = .ok c) :
    ∀ name, name ∈ d.targets ∨ o.nullTypeName = some name →
      name ∈ d.names ∨ ¬ IsSpelled d c name → ∀ f ∈ synthesized c, f.name? ≠ some name := by
  intro name _ hsafe f hf hname
  obtain ⟨hundeclared, hspelled⟩ := undeclared_of_synthesized hg hn hc hf hname
  rcases hsafe with hdeclared | hnot
  · exact hundeclared hdeclared
  · exact hnot hspelled

/-- The line again, with a declaration of the name that is referred to. -/
def declaredLineEnd : Document :=
  { lineEnd with types := lineEnd.types ++ [⟨"Line_end", .ofKind .boolean⟩] }

theorem captures_only_undeclared_declaredLineEnd :
    ∃ c : Converted Schema, (schema {} declaredLineEnd).outcome = .ok c ∧
      declaredLineEnd.names.Nodup ∧ ({} : Options).settings.generator = .numbered ∧
      "Line_end" ∈ declaredLineEnd.targets ∧ "Line_end" ∈ declaredLineEnd.names ∧
      (synthesized c).length = 1 ∧ ∀ f ∈ synthesized c, f.name? ≠ some "Line_end" := by
  have hn : declaredLineEnd.names.Nodup := by decide +kernel
  have htarget : "Line_end" ∈ declaredLineEnd.targets := by decide +kernel
  have hdeclared : "Line_end" ∈ declaredLineEnd.names := by decide +kernel
  have hlen : ((schema {} declaredLineEnd).outcome.toOption.map fun c =>
      (synthesized c).length) = some 1 := by decide +kernel
  cases hc : (schema {} declaredLineEnd).outcome with
  | error e => rw [hc] at hlen; cases hlen
  | ok c =>
    rw [hc] at hlen
    exact ⟨c, rfl, hn, rfl, htarget, hdeclared, Option.some.inj hlen,
      captures_only_undeclared rfl hn hc "Line_end" (.inl htarget) (.inl hdeclared)⟩

end SchemaBridge.Export
