import SchemaBridge.Proofs.Ensuring
import SchemaBridge.Proofs.FieldNodes
import SchemaBridge.Proofs.Lossless
/-!
# Every reference has a definition

The types of fields and the members of unions name other types. In a schema made from a document such
a name is a built-in scalar, the type for `null`, the target of a reference of the document, or the
name of a definition of the schema. That holds for any name generator, also for one that picks names
in use: a name that is reserved a second time loses its definition for a while, and has one again
when the second type of that name is finished.

Results:
* `Grows.trans`: what a mapping does to the registry, one mapping after another.
* `synthesize_resolves`: a synthesized type is defined, although its name was open meanwhile.
* `fieldType_resolves`, `fields_resolves`, `declarations_resolves`: the same part by part.
* `references_defined`: no reference of a schema dangles but those of the document itself.
-/
namespace SchemaBridge

open Model (Node Kind Property Properties Annotations Declaration Document)
open Sdl (TypeRef TypeDef Definition Schema Field)

/-! ## Names that types and nodes refer to -/

/-- The names in the types of fields and among the members of a definition. -/
def Sdl.TypeDef.mentions (f : TypeDef) : List String :=
  f.fields.map (fun field => field.type.head) ++ f.members

/-- Whether a schema has a definition of a type of that name. -/
def Sdl.Schema.Defines (s : Schema) (name : String) : Prop :=
  ∃ f, Definition.type f ∈ s ∧ f.name = name

namespace Model

mutual

/-- The targets of all references in a node, at any depth. -/
def Node.targets : Node → List String
  | ⟨.array e, _, _⟩ => e.targets
  | ⟨.tuple es, _, _⟩ => targetsAll es
  | ⟨.object ps _, _, _⟩ => targetsOfProperties ps
  | ⟨.or es, _, _⟩ => targetsAll es
  | ⟨.ref target, _, _⟩ => [target]
  | _ => []
termination_by structural n => n

def targetsAll : List Node → List String
  | [] => []
  | n :: ns => n.targets ++ targetsAll ns
termination_by structural ns => ns

def targetsOfProperties : List (String × Property Node) → List String
  | [] => []
  | (_, ⟨n, _⟩) :: ps => n.targets ++ targetsOfProperties ps
termination_by structural ps => ps

end

/-- The targets of all references in a document. -/
def Document.targets (d : Document) : List String := d.types.flatMap fun t => t.node.targets

end Model

namespace Export

open Model (targetsAll targetsOfProperties)

theorem targets_subset_of_mem_flattenAll {es : List Node} {n : Node} (h : n ∈ flattenAll es) :
    n.targets ⊆ targetsAll es := by
  refine memFlattenAllInduction h ?_ ?_ ?_
  · intro ns
    exact List.subset_append_left _ _
  · intro m ns ih
    exact List.subset_append_of_subset_right _ ih
  · intro es a l ns ih
    exact List.subset_append_of_subset_left _ ih

theorem targets_subset_of_sole {es : List Node} {n : Node} (h : nonNull es = [n]) :
    n.targets ⊆ targetsAll es :=
  targets_subset_of_mem_flattenAll (mem_flattenAll_of_sole h)

/-! ## Registries that grow -/

/-- From one registry to the next, through events: defined names stay defined, reserved names are
defined, and new definitions mention only known names and names that were reserved. -/
structure Grows (known : List String) (r r' : Registry) (es : List Event) : Prop where
  kept : ∀ name f, (name, some f) ∈ r → ∃ g, (name, some g) ∈ r'
  defined : ∀ name ∈ reserved es, ∃ g, (name, some g) ∈ r'
  closed : ∀ name f, (name, some f) ∈ r' →
    (name, some f) ∈ r ∨ f.name = name ∧ f.mentions ⊆ known ++ reserved es

section
variable {known : List String} {r r' r'' : Registry} {es es' : List Event}

/-- Events that reserve nothing leave the registry as it is. -/
theorem Grows.refl (h : reserved es = []) : Grows known r r es where
  kept name f hf := ⟨f, hf⟩
  defined name hname := by
    rw [h] at hname
    cases hname
  closed name f hf := .inl hf

theorem Grows.trans (h : Grows known r r' es) (h' : Grows (known ++ reserved es) r' r'' es') :
    Grows known r r'' (es ++ es') where
  kept name f hf := by
    obtain ⟨g, hg⟩ := h.kept name f hf
    exact h'.kept name g hg
  defined name hname := by
    rw [reserved_append] at hname
    rcases List.mem_append.mp hname with hname | hname
    · obtain ⟨g, hg⟩ := h.defined name hname
      exact h'.kept name g hg
    · exact h'.defined name hname
  closed name f hf := by
    rw [reserved_append, ← List.append_assoc]
    rcases h'.closed name f hf with hf | hf
    · rcases h.closed name f hf with hf | ⟨hname, hsub⟩
      · exact .inl hf
      · exact .inr ⟨hname, List.subset_append_of_subset_left _ hsub⟩
    · exact .inr hf

/-- A name that is opened, whether it was in use or not, and defined at the end. -/
theorem Grows.synthesize {name : String} {f : TypeDef} (hname : f.name = name)
    (h : Grows known (r.put name none) r' es) (hf : f.mentions ⊆ known ++ reserved es) :
    Grows known r (r'.put name (some f)) (.synthesizing name :: es) where
  kept other g hg := by
    by_cases hother : other = name
    · subst hother
      exact ⟨f, Keyed.mem_put_self other (some f) r'⟩
    · obtain ⟨g', hg'⟩ := h.kept other g (Keyed.mem_put_of_ne hother none hg)
      exact ⟨g', Keyed.mem_put_of_ne hother (some f) hg'⟩
  defined other hother := by
    by_cases hne : other = name
    · subst hne
      exact ⟨f, Keyed.mem_put_self other (some f) r'⟩
    · obtain ⟨g, hg⟩ := h.defined other ((List.mem_cons.mp hother).resolve_left hne)
      exact ⟨g, Keyed.mem_put_of_ne hne (some f) hg⟩
  closed other g hg := by
    have hmore : known ++ reserved es ⊆ known ++ reserved (.synthesizing name :: es) :=
      List.append_subset.mpr ⟨List.subset_append_left _ _,
        List.subset_append_of_subset_right _ (List.subset_cons_self _ _)⟩
    rcases Keyed.mem_of_mem_put hg with heq | hg
    · obtain ⟨rfl, hsome⟩ := Prod.mk.inj heq
      obtain rfl := Option.some.inj hsome
      exact .inr ⟨hname, List.Subset.trans hf hmore⟩
    · rcases h.closed other g hg with hg | ⟨hother, hsub⟩
      · rcases Keyed.mem_of_mem_put hg with heq | hg
        · cases heq
        · exact .inl hg
      · exact .inr ⟨hother, List.Subset.trans hsub hmore⟩

end

/-! ## Mappings whose references resolve -/

/-- From any registry, the mapping makes the registry grow, and its value has a property with regard
to the names that are known then. -/
def Resolves {α : Type} (known : List String) (m : Mapping α) (Q : α → List String → Prop) : Prop :=
  ∀ r, m.Ensures r fun a r' es => Grows known r r' es ∧ Q a (known ++ reserved es)

section
variable {α β : Type} {known : List String} {m : Mapping α} {Q : α → List String → Prop}

theorem Resolves.pure {a : α} (h : Q a known) : Resolves known (Pure.pure a) Q := by
  intro r
  refine .pure ⟨.refl rfl, ?_⟩
  rwa [reserved_nil, List.append_nil]

theorem Resolves.bind {f : α → Mapping β} {R : β → List String → Prop} (hm : Resolves known m Q)
    (hf : ∀ a names, known ⊆ names → Q a names → Resolves names (f a) R) :
    Resolves known (m >>= f) R := by
  intro r
  refine (hm r).bind fun a r' es ⟨hgrows, hQ⟩ => ?_
  have hnext := hf a (known ++ reserved es) (List.subset_append_left _ _) hQ
  refine (hnext r').mono fun b r'' es' ⟨hgrows', hR⟩ => ?_
  refine ⟨hgrows.trans hgrows', ?_⟩
  rwa [reserved_append, ← List.append_assoc]

/-- A pure step at the end reserves no more names. -/
theorem Resolves.map {R : β → List String → Prop} (hm : Resolves known m Q) (g : α → β)
    (h : ∀ a names, known ⊆ names → Q a names → R (g a) names) :
    Resolves known (m >>= fun a => Pure.pure (g a)) R :=
  hm.bind fun a names hsub hQ => .pure (h a names hsub hQ)

theorem Resolves.note {e : Event} {Q : Unit → List String → Prop} (hloss : e.loss? = none)
    (hreserved : reserved [e] = []) (h : Q () known) :
    Resolves known (liftM (Reporting.note e) : Mapping Unit) Q := by
  intro r
  refine .note hloss ⟨.refl hreserved, ?_⟩
  rwa [hreserved, List.append_nil]

theorem lose_resolves {n : Node} {path : Option Path} {Q : Option α → List String → Prop}
    (h : ∀ names, Q none names) : Resolves known (lose n path) Q :=
  .bind (Q := fun _ _ => True) (fun _ => .lose ⟨.refl rfl, trivial⟩) fun _ names _ _ =>
    .pure (h names)

end

/-! ### Fields -/

/-- The names that types may refer to from the start. -/
def Settings.builtin (s : Settings) : List String := scalarNames ++ s.nullTypeName.toList

section
variable {s : Settings} {known : List String}

/-- What is known for a node is known for a part of it. -/
theorem builtin_subset {part whole : List String} (h : s.builtin ++ whole ⊆ known)
    (hpart : part ⊆ whole) : s.builtin ++ part ⊆ known := by
  obtain ⟨hbuiltin, hwhole⟩ := List.append_subset.mp h
  exact List.append_subset.mpr ⟨hbuiltin, List.Subset.trans hpart hwhole⟩

theorem mem_builtin_of_leafName {n : Node} {name : String} (h : s.leafName? n = some name) :
    name ∈ s.builtin ++ n.targets := by
  obtain ⟨k, a, l⟩ := n
  unfold Settings.builtin
  cases k with
  | boolean | integer | number | string =>
    obtain rfl := Option.some.inj h
    simp [scalarNames]
  | null =>
    have hnull : s.nullTypeName = some name := h
    simp [hnull]
  | ref target =>
    obtain rfl := Option.some.inj h
    simp [Node.targets]
  | array | tuple | object | or => cases h

theorem leaf_resolves {n : Node} (h : s.builtin ++ n.targets ⊆ known) :
    Resolves known (leaf s n) fun name names => ∀ x ∈ name, x ∈ names := by
  rw [leaf_eq]
  split
  · next name hname =>
    refine .pure fun x hx => ?_
    obtain rfl := Option.some.inj hx
    exact h (mem_builtin_of_leafName hname)
  · exact lose_resolves fun _ => nofun

/-- All names in the types of fields are among some names. -/
def HeadsIn (fs : List Field) (names : List String) : Prop := ∀ f ∈ fs, f.type.head ∈ names

/-- **A synthesized type resolves**, whichever name the generator picks for it. -/
theorem synthesize_resolves {base hint : String} {a : Annotations}
    {fields : String → Mapping (List Field)}
    (hfields : ∀ name, Resolves known (fields name) HeadsIn) :
    Resolves known (synthesize s base hint a fields) fun name names => name ∈ names := by
  intro r
  refine synthesize_ensures rfl ((hfields _ _).mono fun fs r' es ⟨hgrows, hheads⟩ => ?_)
  refine ⟨hgrows.synthesize rfl ?_, ?_⟩
  · intro m hm
    rw [Sdl.TypeDef.mentions, show (objectDef s _ a fs).members = [] from rfl,
      List.append_nil] at hm
    obtain ⟨f, hf, rfl⟩ := List.mem_map.mp hm
    exact hheads f hf
  · exact List.mem_append_right _ List.mem_cons_self

/-- The type of a field or list item names only what may be named. -/
def HeadIn (t : Option FieldType) (names : List String) : Prop := ∀ x ∈ t, x.type.head ∈ names

theorem HeadIn.map {t : Option FieldType} {names : List String} (h : HeadIn t names)
    {g : FieldType → FieldType} (hg : ∀ x, (g x).type.head = x.type.head) :
    HeadIn (t.map g) names := by
  intro x hx
  obtain ⟨y, hy, rfl⟩ := Option.map_eq_some_iff.mp hx
  rw [hg]
  exact h y hy

theorem keepField_resolves {owner name : String} {p : Property Node} {t : Option FieldType}
    (h : HeadIn t known) : Resolves known (keepField s owner name p t) HeadsIn := by
  cases t with
  | none => exact .bind (Q := fun _ _ => True) (.note rfl rfl trivial) fun _ _ _ _ => .pure nofun
  | some t =>
    refine .pure fun f hf => ?_
    obtain rfl := List.mem_singleton.mp hf
    rw [makeField, Sdl.TypeRef.head_requireIf]
    exact h t rfl

/-- The fields for properties resolve if the types of these do. -/
theorem fields_resolves_of (owner : String) {ps : List (String × Property Node)}
    (hps : ∀ p ∈ ps, ∀ base hint known, s.builtin ++ p.2.node.targets ⊆ known →
      Resolves known (fieldType s base hint p.2.node) HeadIn)
    (h : s.builtin ++ targetsOfProperties ps ⊆ known) :
    Resolves known (fields s owner ps) HeadsIn := by
  induction ps generalizing known with
  | nil => exact .pure (List.forall_mem_nil _)
  | cons p ps ih =>
    obtain ⟨name, n, required⟩ := p
    have htype := hps _ List.mem_cons_self owner name known
      (builtin_subset h (List.subset_append_left _ _))
    have hothers : ∀ names, s.builtin ++ targetsOfProperties ps ⊆ names →
        Resolves names (fields s owner ps) HeadsIn :=
      fun names => ih fun p hp => hps p (List.mem_cons_of_mem _ hp)
    rw [fields]
    refine htype.bind fun t names₁ hsub₁ ht => ?_
    refine (keepField_resolves ht).bind fun first names₂ hsub₂ hfirst => ?_
    have hknown : s.builtin ++ targetsOfProperties ps ⊆ names₂ :=
      List.Subset.trans (builtin_subset h (List.subset_append_right _ _))
        (List.Subset.trans hsub₁ hsub₂)
    refine (hothers names₂ hknown).map _ fun others names hsub hheads f hf => ?_
    rcases List.mem_append.mp hf with hf | hf
    · exact hsub (hfirst f hf)
    · exact hheads f hf

theorem fieldType_resolves (n : Node) : ∀ (base hint : String) (known : List String),
    s.builtin ++ n.targets ⊆ known → Resolves known (fieldType s base hint n) HeadIn := by
  induction n using fieldInduction with
  | leaf n hn =>
    intro base hint known h
    rw [fieldType_leaf hn]
    refine (leaf_resolves h).map _ fun name names _ hname x hx => ?_
    obtain ⟨y, hy, rfl⟩ := Option.map_eq_some_iff.mp hx
    exact hname y hy
  | array e a l ih =>
    intro base hint known h
    refine (ih base hint known h).map _ fun t names _ ht => ht.map fun x => ?_
    exact Sdl.TypeRef.head_requireIf _ _
  | tuple es a l n hn ih =>
    intro base hint known h
    rw [fieldType_tuple_sole a l hn]
    have hsub := builtin_subset h (targets_subset_of_sole hn)
    refine (ih base hint known hsub).map _ fun t names _ ht => ht.map fun x => ?_
    exact Sdl.TypeRef.head_requireIf _ _
  | or es a l n hn ih =>
    intro base hint known h
    rw [fieldType_or_sole a l hn]
    have hsub := builtin_subset h (targets_subset_of_sole hn)
    exact (ih base hint known hsub).map _ fun t names _ ht => ht.map fun _ => rfl
  | tupleLost es a l hlen =>
    intro base hint known _
    rw [fieldType_tuple_lost a l hlen]
    exact lose_resolves fun _ => nofun
  | orLost es a l hlen =>
    intro base hint known _
    rw [fieldType_or_lost a l hlen]
    exact lose_resolves fun _ => nofun
  | object ps x a l ih =>
    intro base hint known h
    rw [fieldType]
    have hfields := fun name => fields_resolves_of name ih h
    refine (synthesize_resolves hfields).map _ fun name names _ hname t ht => ?_
    obtain rfl := Option.some.inj ht
    exact hname

theorem fields_resolves (owner : String) {ps : List (String × Property Node)}
    (h : s.builtin ++ targetsOfProperties ps ⊆ known) :
    Resolves known (fields s owner ps) HeadsIn :=
  fields_resolves_of owner (fun p _ => fieldType_resolves p.2.node) h

/-! ### Declarations -/

theorem member_resolves {base hint : String} {n : Node} (h : s.builtin ++ n.targets ⊆ known) :
    Resolves known (member s base hint n) fun name names => ∀ x ∈ name, x ∈ names := by
  unfold member
  split
  · next ps x a l =>
    have hfields : ∀ name, Resolves known (fields s name ps) HeadsIn :=
      fun name => fields_resolves name h
    refine (synthesize_resolves hfields).map _ fun name names _ hname x hx => ?_
    obtain rfl := Option.some.inj hx
    exact hname
  · exact leaf_resolves h

theorem members_resolves (base : String) (i : Nat) {ns : List Node}
    (h : ∀ n ∈ ns, s.builtin ++ n.targets ⊆ known) :
    Resolves known (members s base i ns) fun ms names => ms ⊆ names := by
  induction ns generalizing i known with
  | nil => exact .pure (List.nil_subset _)
  | cons n ns ih =>
    rw [members]
    refine (member_resolves (h n List.mem_cons_self)).bind fun first names hsub hfirst => ?_
    have hrest := ih (i + 1) fun n hn => List.Subset.trans (h n (List.mem_cons_of_mem _ hn)) hsub
    refine hrest.map _ fun others names hsub hothers => List.append_subset.mpr ⟨?_, hothers⟩
    exact fun m hm => hsub (hfirst m (Option.mem_toList.mp hm))

/-- A definition, if there is one, has the name that is declared and names what may be named. -/
def DefinedIn (name : String) (f : Option TypeDef) (names : List String) : Prop :=
  ∀ x ∈ f, x.name = name ∧ x.mentions ⊆ names

theorem union_resolves {name : String} {a : Annotations} {es : List Node}
    (h : s.builtin ++ targetsAll es ⊆ known) :
    Resolves known (union s name a es) (DefinedIn name) := by
  have hall : ∀ n ∈ flattenAll es, s.builtin ++ n.targets ⊆ known :=
    fun n hn => builtin_subset h (targets_subset_of_mem_flattenAll hn)
  refine (members_resolves name 0 hall).bind fun ms names _ hms => ?_
  split
  · exact .pure nofun
  · refine .pure fun f hf => ?_
    obtain rfl := Option.some.inj hf
    exact ⟨rfl, hms⟩

theorem declaration_resolves {t : Declaration} (i : Nat) (h : s.builtin ++ t.node.targets ⊆ known) :
    Resolves known (declaration s i t) (DefinedIn t.name) := by
  obtain ⟨name, k, a, l⟩ := t
  cases k with
  | boolean | integer | number | string =>
    exact union_resolves (builtin_subset h (List.nil_subset _))
  | null =>
    unfold declaration
    dsimp only
    split
    · next n hn =>
      refine .pure fun f hf => ?_
      obtain rfl := Option.some.inj hf
      refine ⟨rfl, List.cons_subset.mpr ⟨h ?_, List.nil_subset _⟩⟩
      exact mem_builtin_of_leafName (n := ⟨.null, a, l⟩) hn
    · exact lose_resolves fun _ => nofun
  | or es => exact union_resolves h
  | object ps x =>
    refine (fields_resolves name h).map _ fun fs names _ hfs f hf => ?_
    obtain rfl := Option.some.inj hf
    refine ⟨rfl, List.append_subset.mpr ⟨?_, List.nil_subset _⟩⟩
    intro m hm
    obtain ⟨field, hfield, rfl⟩ := List.mem_map.mp hm
    exact hfs field hfield
  | array | tuple | ref => exact lose_resolves fun _ => nofun

theorem declarations_resolves {ts : List Declaration} (i : Nat)
    (h : ∀ t ∈ ts, s.builtin ++ t.node.targets ⊆ known) :
    Resolves known (declarations s i ts) fun fates names =>
      fates.map Prod.fst = ts.map Declaration.name ∧ ∀ e ∈ fates, DefinedIn e.1 e.2 names := by
  induction ts generalizing i known with
  | nil => exact .pure ⟨rfl, List.forall_mem_nil _⟩
  | cons t ts ih =>
    rw [declarations]
    have hfirst := declaration_resolves i (h t List.mem_cons_self)
    refine hfirst.bind fun f names hsub hf => ?_
    have hnote : Resolves names
        (liftM (Reporting.note (if f.isSome then .converted t.name else .notConverted t.name)))
        fun _ _ => True := by
      split
      · exact .note rfl rfl trivial
      · exact .note rfl rfl trivial
    refine hnote.bind fun _ names' hsub' _ => ?_
    have hrest := ih (i + 1) fun t ht =>
      List.Subset.trans (h t (List.mem_cons_of_mem _ ht)) (List.Subset.trans hsub hsub')
    refine hrest.map _ ?_
    rintro others names'' hsub'' ⟨hnames, hothers⟩
    refine ⟨?_, ?_⟩
    · rw [List.map_cons, hnames, List.map_cons]
    · intro e he
      rcases List.mem_cons.mp he with rfl | he
      · intro x hx
        obtain ⟨hname, hmentions⟩ := hf x hx
        exact ⟨hname, List.Subset.trans hmentions (List.Subset.trans hsub' hsub'')⟩
      · exact hothers e he

end

/-! ### Documents -/

section
variable {d : Document} {known : List String} {r : Registry} {es : List Event}

/-- At first no name has a definition, so that each definition in the end is a synthesized one. -/
theorem Grows.synthesized (h : Grows known (initialRegistry d) r es) {name : String} {f : TypeDef}
    (hf : (name, some f) ∈ r) : f.name = name ∧ f.mentions ⊆ known ++ reserved es := by
  refine (h.closed name f hf).resolve_left fun hinit => ?_
  have hnone := Keyed.mem_of_mem_ofEntries hinit
  simp at hnone

/-- The schema defines every name that was reserved. -/
theorem Grows.collect_defines (h : Grows known (initialRegistry d) r es)
    (fates : List (String × Option TypeDef)) {name : String} (hname : name ∈ reserved es) :
    (collect fates r).data.Defines name := by
  obtain ⟨f, hf⟩ := h.defined name hname
  have hmem : f ∈ Registry.definitions r := List.mem_filterMap.mpr ⟨_, hf, rfl⟩
  exact ⟨f, List.mem_map_of_mem (List.mem_append_right _ hmem), (h.synthesized hf).1⟩

end

/-- **No reference dangles but those of the document itself**, whichever names the generator picks:
a name in the type of a field or among the members of a union is a built-in scalar, the type for
`null`, the target of a reference of the document, or defined in the schema. A target that the
document declares is defined in the schema or known not to be converted. -/
theorem references_defined {o : Options} {d : Document} {c : Converted Schema}
    (hc : (schema o d).outcome = .ok c) :
    (∀ x ∈ c.data, ∃ f, x = .type f ∧ ∀ m ∈ f.mentions,
      m ∈ scalarNames ∨ o.nullTypeName = some m ∨ m ∈ d.targets ∨ c.data.Defines m) ∧
    ∀ target ∈ d.targets, target ∈ d.names →
      c.data.Defines target ∨ target ∈ c.notConvertedTypes := by
  have hknown : ∀ t ∈ d.types, o.settings.builtin ++ t.node.targets
      ⊆ o.settings.builtin ++ d.targets := by
    intro t ht
    refine List.append_subset.mpr ⟨List.subset_append_left _ _, ?_⟩
    intro target htarget
    exact List.mem_append_right _ (List.mem_flatMap.mpr ⟨t, ht, htarget⟩)
  obtain ⟨fates, r, es, rfl, ⟨hgrows, hnames, hfates⟩, -⟩ :=
    collect_of_ensures (declarations_resolves 0 hknown (initialRegistry d)) hc
  refine ⟨?_, ?_⟩
  · intro x hx
    obtain ⟨f, hf, rfl⟩ := List.mem_map.mp hx
    have hmentions : f.mentions ⊆ o.settings.builtin ++ d.targets ++ reserved es := by
      rcases List.mem_append.mp hf with hf | hf
      · obtain ⟨e, he, hef⟩ := List.mem_filterMap.mp hf
        exact (hfates e he f hef).2
      · obtain ⟨⟨name, _⟩, he, rfl⟩ := List.mem_filterMap.mp hf
        exact (hgrows.synthesized he).2
    refine ⟨f, rfl, fun m hm => ?_⟩
    rcases List.mem_append.mp (hmentions hm) with hm | hm
    · rcases List.mem_append.mp hm with hm | hm
      · rcases List.mem_append.mp hm with hm | hm
        · exact .inl hm
        · exact .inr (.inl (Option.mem_toList.mp hm))
      · exact .inr (.inr (.inl hm))
    · exact .inr (.inr (.inr (hgrows.collect_defines fates hm)))
  · intro target _ hdeclared
    rw [Document.names, ← hnames] at hdeclared
    obtain ⟨⟨name, f⟩, he, rfl⟩ := List.mem_map.mp hdeclared
    cases f with
    | none =>
      refine .inr (List.mem_map.mpr ⟨(name, none), List.mem_filter.mpr ⟨he, rfl⟩, rfl⟩)
    | some f =>
      have hmem : f ∈ fates.filterMap Prod.snd := List.mem_filterMap.mpr ⟨_, he, rfl⟩
      exact .inl ⟨f, List.mem_map_of_mem (List.mem_append_left _ hmem), (hfates _ he f rfl).1⟩

/-- Three points under one name, one of them inside another; a declaration has that name too. -/
def sharedPoint : Document :=
  let number : Property Node := ⟨.ofKind .number, true⟩
  let inner := Node.ofKind (.object [("x", number), ("up", ⟨.ofKind (.ref "Point"), false⟩)] false)
  let outer := Node.ofKind (.object [("near", ⟨inner, true⟩),
    ("none", ⟨.ofKind .null, true⟩)] false)
  .ofTypes [⟨"Point", .ofKind (.tuple [])⟩,
    ⟨"Line", .ofKind (.object [("from", ⟨outer, true⟩), ("to", ⟨inner, true⟩),
      ("by", ⟨.ofKind (.ref "Path"), true⟩)] false)⟩]

theorem references_defined_sharedPoint :
    let o : Options := { nullTypeName := some "Void", nameGenerator := some (.constant "Point") }
    ∃ c, (schema o sharedPoint).outcome = .ok c ∧
      c.data.map Definition.name? = [some "Line", some "Point"] ∧
      (∀ x ∈ c.data, ∃ f, x = .type f ∧ ∀ m ∈ f.mentions, m ∈ scalarNames ∨
        o.nullTypeName = some m ∨ m ∈ sharedPoint.targets ∨ c.data.Defines m) ∧
      ∀ target ∈ sharedPoint.targets, target ∈ sharedPoint.names →
        c.data.Defines target ∨ target ∈ c.notConvertedTypes := by
  intro o
  have hnames : ((schema o sharedPoint).outcome.toOption.map fun c => c.data.map Definition.name?)
      = some [some "Line", some "Point"] := by decide +kernel
  cases hc : (schema o sharedPoint).outcome with
  | error e => rw [hc] at hnames; cases hnames
  | ok c =>
    rw [hc] at hnames
    exact ⟨c, rfl, Option.some.inj hnames, references_defined hc⟩

end Export

end SchemaBridge
