import SchemaBridge.Proofs.Lossless
import SchemaBridge.Proofs.Synthesis
/-!
# Accounts of conversions

An account of a conversion says what became of every declaration and which types were made for
anonymous objects, in order, each definition together with what it is for. Every document whose
declared names differ has an account of its conversion, if the generator picks free names, and the
account also tells how many losses there are.

Results:
* `members_accounted`, `declaration_accounted`, `declarations_accounted`: unions and declarations.
* `Account.Explains.names_eq`, `Account.Explains.names_nodup`: the names that a schema defines.
* `declarations_explained`: the account of a document, whatever the policy.
-/
namespace SchemaBridge.Export

open Model (Node Kind Property Properties Annotations Declaration Document)
open Sdl (TypeDef Field Schema Definition)

/-! ## What becomes of a declaration -/

/-- A name stands for an alternative: it is the name of a leaf, or that of the type made for it. -/
def Stands (s : Settings) (made : List Synthesis) (name : String) (n : Node) : Prop :=
  s.leafName? n = some name ∨ ∃ w ∈ made, w.name = name ∧
    (∃ x, n.kind = .object w.site.properties x) ∧ n.annotations = w.site.annotations

/-- Some of the alternatives of a union have a member, in order. -/
def Joins (s : Settings) (made : List Synthesis) (ms : List String) (ns : List Node) : Prop :=
  List.SublistForall₂ (Stands s made) ms ns

/-- A declaration that is neither an object nor a union of anything. -/
def isUnsupported (s : Settings) (t : Declaration) : Bool :=
  match t.node.kind with
  | .array _ | .tuple _ | .ref _ => true
  | .null => s.nullTypeName.isNone
  | _ => false

/-- The definition that a declaration may have, given the types made for anonymous objects. -/
inductive Fate (s : Settings) (made : List Synthesis) (t : Declaration) : Option TypeDef → Prop
  | object {ps : List (String × Property Node)} {x : Bool} {f : TypeDef}
    (hkind : t.node.kind = .object ps x) (hf : Depicts s t.name t.node.annotations ps f) :
    Fate s made t (some f)
  | leaf {name : String} (hleaf : IsLeaf t.node) (hsupported : isUnsupported s t = false)
    (hname : s.leafName? t.node = some name) :
    Fate s made t (some (unionDef s t.name t.node.annotations [name]))
  | union {es : List Node} {ms : List String} (hkind : t.node.kind = .or es)
    (hms : Joins s made ms (flattenAll es)) (hne : ms ≠ []) :
    Fate s made t (some (unionDef s t.name t.node.annotations ms))
  | dropped {es : List Node} (hkind : t.node.kind = .or es) : Fate s made t none
  | unsupported (h : isUnsupported s t = true) : Fate s made t none

/-- The number of fields or members that the definition of a declaration lacks, or one for a
declaration that can have no definition. -/
def shortfall (s : Settings) (t : Declaration) (f : Option TypeDef) : Nat :=
  match t.node.kind with
  | .object ps _ => ps.length - f.elim 0 fun f => f.fields.length
  | .or es => (flattenAll es).length - f.elim 0 fun f => f.members.length
  | _ => if isUnsupported s t then 1 else 0

section
variable {s : Settings} {made made' : List Synthesis}

theorem Stands.mono (hsub : made ⊆ made') {name : String} {n : Node} (h : Stands s made name n) :
    Stands s made' name n := by
  refine h.imp_right ?_
  rintro ⟨w, hw, hrest⟩
  exact ⟨w, hsub hw, hrest⟩

theorem Joins.mono (hsub : made ⊆ made') {ms : List String} {ns : List Node}
    (h : Joins s made ms ns) : Joins s made' ms ns := by
  induction h with
  | nil => exact .nil
  | cons hstands _ ih => exact .cons (hstands.mono hsub) ih
  | cons_right _ ih => exact .cons_right ih

theorem Fate.mono (hsub : made ⊆ made') {t : Declaration} {f : Option TypeDef}
    (h : Fate s made t f) : Fate s made' t f := by
  cases h with
  | object hkind hf => exact .object hkind hf
  | leaf hleaf hsupported hname => exact .leaf hleaf hsupported hname
  | union hkind hms hne => exact .union hkind (hms.mono hsub) hne
  | dropped hkind => exact .dropped hkind
  | unsupported h => exact .unsupported h

theorem Fate.name_eq {t : Declaration} {f : TypeDef} (h : Fate s made t (some f)) :
    f.name = t.name := by
  cases h with
  | object hkind hf =>
    obtain ⟨fs, -, rfl⟩ := hf
    rfl
  | leaf | union => rfl

end

/-! ## Unions -/

section
variable {s : Settings} {owners : List String}

theorem leaf_stands (n : Node) :
    Accounted s owners [] (leaf s n) fun name made own =>
      name.toList.length + own = 1 ∧ ∀ x ∈ name, Stands s made x n := by
  refine (leaf_accounted n).mono ?_
  rintro name made own ⟨rfl, -, hlen⟩
  exact ⟨hlen, fun x hx => .inl hx⟩

theorem member_accounted (hg : s.generator.AlwaysFree) {base : String} (h : base ∈ owners)
    (hint : String) (n : Node) :
    Accounted s owners (memberSites hint n) (member s base hint n) fun name made own =>
      name.toList.length + own = 1 ∧ ∀ x ∈ name, Stands s made x n := by
  have hleaf : Accounted s owners [] (leaf s n) _ := leaf_stands n
  obtain ⟨k, a, l⟩ := n
  cases k with
  | object ps x =>
    have hfields : ∀ name, Accounted s (name :: owners) _ (fields s name ps) _ :=
      fun name => fields_accounted hg List.mem_cons_self ps
    refine (synthesize_accounted hg h hfields).map _ ?_
    rintro name made own ⟨rfl, w, hw, hname, hsite⟩
    refine ⟨rfl, fun x hx => .inr ⟨w, hw, ?_⟩⟩
    obtain rfl := Option.some.inj hx
    rw [hsite]
    exact ⟨hname, ⟨_, rfl⟩, rfl⟩
  | _ => exact hleaf

theorem members_accounted (hg : s.generator.AlwaysFree) {base : String} (h : base ∈ owners)
    (ns : List Node) (i : Nat) :
    Accounted s owners (unionSites i ns) (members s base i ns) fun ms made own =>
      Joins s made ms ns ∧ ms.length + own = ns.length := by
  induction ns generalizing i with
  | nil => exact .pure ⟨.nil, rfl⟩
  | cons n ns ih =>
    rw [unionSites, members]
    refine (member_accounted hg h _ n).bind ?_
    rintro first made own ⟨hlen, hstands⟩
    refine (ih (i + 1)).map _ ?_
    rintro others made' own' ⟨hjoins, hlen'⟩
    have hothers := hjoins.mono (List.subset_append_right made made')
    cases first with
    | none => exact ⟨hothers.cons_right, by simp at hlen ⊢; omega⟩
    | some x =>
      have hx := (hstands x rfl).mono (List.subset_append_left made made')
      exact ⟨.cons hx hothers, by simp at hlen ⊢; omega⟩

/-! ## Declarations -/

/-- A leaf that has a name is a union of that name alone. -/
theorem union_leaf {n : Node} (hn : IsLeaf n) {member : String}
    (hmember : s.leafName? n = some member) (name : String) (a : Annotations) :
    union s name a [n] = pure (some (unionDef s name a [member])) := by
  have hleaf : leaf s n = pure (some member) := by rw [leaf_eq, hmember]
  have hmembers : members s name 0 (flattenAll [n])
      = leaf s n >>= fun first => pure (first.toList ++ []) := by
    obtain ⟨k, b, l⟩ := n
    cases k with
    | array | tuple | object | or => exact hn.elim
    | _ => rfl
  rw [union, hmembers, hleaf, pure_bind, pure_bind]
  rfl

theorem shortfall_leaf {t : Declaration} (hleaf : IsLeaf t.node) (f : Option TypeDef) :
    shortfall s t f = if isUnsupported s t then 1 else 0 := by
  obtain ⟨name, ⟨k, a, l⟩⟩ := t
  cases k with
  | array | tuple | object | or => exact hleaf.elim
  | _ => rfl

theorem union_leaf_accounted {t : Declaration} (hleaf : IsLeaf t.node)
    (hsupported : isUnsupported s t = false) {member : String}
    (hmember : s.leafName? t.node = some member) :
    Accounted s owners [] (union s t.name t.node.annotations [t.node]) fun f made own =>
      Fate s made t f ∧ own = shortfall s t f := by
  rw [union_leaf hleaf hmember]
  refine .pure ⟨.leaf hleaf hsupported hmember, ?_⟩
  rw [shortfall_leaf hleaf, hsupported]
  rfl

theorem union_eq (s : Settings) (name : String) (a : Annotations) (es : List Node) :
    union s name a es = members s name 0 (flattenAll es) >>= fun ms =>
      pure (if ms = [] then none else some (unionDef s name a ms)) := by
  unfold union
  congr 1
  funext ms
  cases ms <;> rfl

/-- The union of alternatives has a member for each that is no loss, and is dropped without any. -/
theorem union_accounted (hg : s.generator.AlwaysFree) {name : String} (h : name ∈ owners)
    (a : Annotations) (es : List Node) :
    Accounted s owners (unionSites 0 (flattenAll es)) (union s name a es) fun f made own =>
      ∃ ms, Joins s made ms (flattenAll es) ∧ ms.length + own = (flattenAll es).length ∧
        f = if ms = [] then none else some (unionDef s name a ms) := by
  rw [union_eq]
  refine (members_accounted hg h (flattenAll es) 0).map _ ?_
  rintro ms made own ⟨hjoins, hlen⟩
  exact ⟨ms, hjoins, hlen, rfl⟩

theorem declaration_accounted (hg : s.generator.AlwaysFree) (i : Nat) {t : Declaration}
    (h : t.name ∈ owners) :
    Accounted s owners (declarationSites t) (declaration s i t) fun f made own =>
      Fate s made t f ∧ own = shortfall s t f := by
  obtain ⟨name, ⟨k, a, l⟩⟩ := t
  cases k with
  | boolean => exact union_leaf_accounted (t := ⟨name, .boolean, a, l⟩) trivial rfl rfl
  | integer => exact union_leaf_accounted (t := ⟨name, .integer, a, l⟩) trivial rfl rfl
  | number => exact union_leaf_accounted (t := ⟨name, .number, a, l⟩) trivial rfl rfl
  | string values => exact union_leaf_accounted (t := ⟨name, .string values, a, l⟩) trivial rfl rfl
  | null =>
    unfold declaration
    dsimp only
    split
    · next n hn =>
      have hsupported : isUnsupported s ⟨name, .null, a, l⟩ = false := by
        simp [isUnsupported, hn]
      exact .pure ⟨.leaf trivial hsupported hn, by simp [shortfall, hsupported]⟩
    · next hn =>
      have hunsupported : isUnsupported s ⟨name, .null, a, l⟩ = true := by
        simp [isUnsupported, hn]
      exact lose_accounted ⟨.unsupported hunsupported, by simp [shortfall, hunsupported]⟩
  | or es =>
    refine (union_accounted hg h a es).mono ?_
    rintro f made own ⟨ms, hjoins, hlen, rfl⟩
    split
    · next hms =>
      refine ⟨.dropped rfl, ?_⟩
      show own = (flattenAll es).length - 0
      rw [hms] at hlen
      simpa using hlen
    · next hms =>
      refine ⟨.union rfl hjoins hms, ?_⟩
      show own = (flattenAll es).length - ms.length
      omega
  | object ps x =>
    refine (fields_accounted hg h ps).map _ ?_
    rintro fs made own ⟨hkeeps, hlen⟩
    refine ⟨.object rfl ⟨fs, hkeeps, rfl⟩, ?_⟩
    show own = ps.length - fs.length
    omega
  | array | tuple | ref => exact lose_accounted ⟨.unsupported rfl, rfl⟩

theorem declarations_accounted (hg : s.generator.AlwaysFree) {ts : List Declaration} (i : Nat)
    (h : ∀ t ∈ ts, t.name ∈ owners) :
    Accounted s owners (ts.flatMap declarationSites) (declarations s i ts) fun fates made own =>
      ∃ declared : List (Declaration × Option TypeDef), declared.map Prod.fst = ts ∧
        fates = declared.map (fun e => (e.1.name, e.2)) ∧
        (∀ e ∈ declared, Fate s made e.1 e.2) ∧
        own = (declared.map fun e => shortfall s e.1 e.2).sum := by
  induction ts generalizing i with
  | nil => exact .pure ⟨[], rfl, rfl, List.forall_mem_nil _, rfl⟩
  | cons t ts ih =>
    rw [declarations, List.flatMap_cons]
    refine (declaration_accounted hg i (h t List.mem_cons_self)).bind ?_
    rintro f made own ⟨hfate, rfl⟩
    have hnote : Accounted s owners []
        (liftM (Reporting.note (if f.isSome then .converted t.name else .notConverted t.name)))
        fun _ made own => made = [] ∧ own = 0 := by
      split
      · exact .note rfl rfl ⟨rfl, rfl⟩
      · exact .note rfl rfl ⟨rfl, rfl⟩
    rw [← List.nil_append (ts.flatMap declarationSites)]
    refine hnote.bind ?_
    rintro _ _ _ ⟨rfl, rfl⟩
    refine (ih (i + 1) fun t ht => h t (List.mem_cons_of_mem _ ht)).map _ ?_
    rintro others made' own' ⟨declared, hdeclared, rfl, hfates, rfl⟩
    refine ⟨(t, f) :: declared, by rw [List.map_cons, hdeclared], rfl, ?_, ?_⟩
    · intro e he
      rcases List.mem_cons.mp he with rfl | he
      · exact hfate.mono (List.subset_append_left _ _)
      · exact (hfates e he).mono (List.subset_append_right _ _)
    · rw [List.map_cons, List.sum_cons, Nat.zero_add]

end

/-! ## Documents -/

/-- What became of every declaration, and the types made for anonymous objects, both in order. -/
structure Account where
  declared : List (Declaration × Option TypeDef)
  made : List Synthesis

namespace Account

/-- The names of the types that were made. -/
def names (a : Account) : List String := a.made.map Synthesis.name

/-- The definitions of declarations and, after them, those that were made. -/
def definitions (a : Account) : List TypeDef :=
  a.declared.filterMap Prod.snd ++ a.made.map Synthesis.definition

/-- The account tells, for a document, all of a conversion: a fate for each declaration, a type for
each anonymous object, and a result that consists of them. -/
structure Explains (a : Account) (s : Settings) (d : Document) (c : Converted Schema) : Prop where
  declarations : a.declared.map Prod.fst = d.types
  fates : ∀ e ∈ a.declared, Fate s a.made e.1 e.2
  sites : a.made.map Synthesis.site = documentSites d
  valid : ∀ w ∈ a.made, w.Valid s
  owned : ∀ w ∈ a.made, w.owner ∈ d.names ++ a.names
  data : c.data = a.definitions.map .type
  converted : c.convertedTypes = (a.declared.filter fun e => e.2.isSome).map fun e => e.1.name
  notConverted : c.notConvertedTypes = (a.declared.filter fun e => e.2.isNone).map fun e => e.1.name

/-- The number of fields, members and declarations that the definitions lack. -/
def shortfall (a : Account) (s : Settings) : Nat :=
  (a.made.map Synthesis.missing).sum + (a.declared.map fun e => Export.shortfall s e.1 e.2).sum

end Account

/-- The definitions of declarations have the names of the declarations that are converted. -/
theorem names_of_fates {s : Settings} {made : List Synthesis}
    {declared : List (Declaration × Option TypeDef)} (h : ∀ e ∈ declared, Fate s made e.1 e.2) :
    (declared.filterMap Prod.snd).map TypeDef.name
      = (declared.filter fun e => e.2.isSome).map fun e => e.1.name := by
  induction declared with
  | nil => rfl
  | cons e declared ih =>
    have htail := ih fun e he => h e (List.mem_cons_of_mem _ he)
    have hhead := h e List.mem_cons_self
    obtain ⟨t, _ | f⟩ := e
    · exact htail
    · exact congrArg₂ List.cons hhead.name_eq htail

/-- The names that are defined: those of converted declarations, and then those that were made. -/
theorem Account.Explains.names_eq {s : Settings} {d : Document} {c : Converted Schema} {a : Account}
    (h : a.Explains s d c) : c.data.filterMap Definition.name? = c.convertedTypes ++ a.names := by
  have hnames : (a.definitions.map Definition.type).filterMap Definition.name?
      = a.definitions.map TypeDef.name := by
    rw [List.filterMap_map]
    exact congrFun List.filterMap_eq_map a.definitions
  rw [h.data, hnames, Account.definitions, List.map_append, names_of_fates h.fates, h.converted,
    List.map_map]
  rfl

/-- No two definitions have the same name. -/
theorem Account.Explains.names_nodup {s : Settings} {d : Document} {c : Converted Schema}
    {a : Account} (h : a.Explains s d c) (hnodup : (d.names ++ a.names).Nodup) :
    (c.data.map Definition.name?).Nodup := by
  have hconverted : c.convertedTypes.Sublist d.names := by
    rw [h.converted, Document.names, ← h.declarations, List.map_map]
    exact List.filter_sublist.map _
  have hnames : c.data.map Definition.name? = (c.data.filterMap Definition.name?).map some := by
    rw [h.data, List.map_map, List.filterMap_map, List.map_filterMap]
    exact List.filterMap_eq_map.symm ▸ rfl
  rw [hnames, h.names_eq]
  exact (hnodup.sublist (hconverted.append (.refl _))).map fun _ _ => Option.some.inj

theorem definitions_append_made {r : Registry} (hr : r.definitions = []) (made : List Synthesis) :
    Registry.definitions (r ++ made.map Synthesis.entry) = made.map Synthesis.definition := by
  unfold Registry.definitions at hr ⊢
  rw [List.filterMap_append, hr, List.nil_append, List.filterMap_map]
  exact congrFun List.filterMap_eq_map made

/-- **Every document has an account**, whatever the policy, if its declared names differ and the
generator picks free names: no two names of declarations and types made are the same, names are
reserved in the order of the types made, and there are as many losses as the account lacks parts. -/
theorem declarations_explained {s : Settings} (hg : s.generator.AlwaysFree) {d : Document}
    (hn : d.names.Nodup) :
    (declarations s 0 d.types).Ensures (initialRegistry d) fun fates r es =>
      ∃ a : Account, a.Explains s d (collect fates r) ∧ (d.names ++ a.names).Nodup ∧
        reserved es = a.names ∧ (losses es).length = a.shortfall s := by
  have hkeys : (d.names.map fun name => (name, (none : Option TypeDef))).map Prod.fst
      = d.names := by
    rw [List.map_map]
    exact List.map_id _
  have hinit : initialRegistry d = d.names.map (·, none) :=
    Keyed.ofEntries_of_nodup (by rw [Keyed.keys, hkeys]; exact hn)
  have hnodup : (initialRegistry d).keys.Nodup := by
    rw [hinit, Keyed.keys, hkeys]
    exact hn
  have howners : ∀ t ∈ d.types, t.name ∈ d.names := fun t ht => List.mem_map_of_mem ht
  refine (declarations_accounted hg 0 howners _ hnodup).mono ?_
  rintro fates r es ⟨made, own, hwork, declared, hdeclared, rfl, hfates, rfl⟩
  refine ⟨⟨declared, made⟩, ?_, ?_, hwork.reserved, hwork.losses⟩
  · have hdata : (declared.map fun e => (e.1.name, e.2)).filterMap Prod.snd
        = declared.filterMap Prod.snd := List.filterMap_map
    refine ⟨hdeclared, hfates, hwork.sites, hwork.valid, hwork.owned, ?_, ?_, ?_⟩
    · rw [collect, hwork.registry, hdata, definitions_append_made (definitions_initialRegistry d)]
      rfl
    · simp [collect, List.filter_map, Function.comp_def]
    · simp [collect, List.filter_map, Function.comp_def]
  · have := hwork.nodup
    rw [hwork.registry, Keyed.keys, List.map_append, hinit, hkeys, List.map_map] at this
    exact this

end SchemaBridge.Export
