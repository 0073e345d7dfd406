import Mathlib.Logic.Basic
import SchemaBridge.Model.Format
/-!
# Documents are read as they are written

A node is written as one flat object, so that what belongs to its kind, its annotations and its
location share their keys, and a declaration adds its name to them. Reading finds each part again
because no key has two uses: the members of a node are a sublist of the members that its kind may
have (`keys_members_sublist`), which all differ.

Results:
* `nodeOf?_cons_of_unknown`: an unknown member changes nothing, such as the name of a declaration.
* `Annotations.ofMembers?_members`, `Location.ofJson?_toJson`: the parts that hold no nodes.
* `nodeOf?_of_kind`: a node is found again if its kind is.
* `nodeOf?_members`: a node is found again, with the nodes inside it.
* `document_survives_json`: and so is a document.
-/
namespace SchemaBridge.Model

open Json (Value)

/-! ## Names that are used once -/

mutual

/-- No object gives one name to two properties, at any depth. -/
def Node.NamesOnce : Node → Prop
  | ⟨.array e, _, _⟩ => e.NamesOnce
  | ⟨.tuple es, _, _⟩ => allNamesOnce es
  | ⟨.object ps _, _, _⟩ => (Keyed.keys ps).Nodup ∧ propertyNamesOnce ps
  | ⟨.or es, _, _⟩ => allNamesOnce es
  | _ => True
termination_by structural n => n

def allNamesOnce : List Node → Prop
  | [] => True
  | n :: ns => n.NamesOnce ∧ allNamesOnce ns
termination_by structural ns => ns

def propertyNamesOnce : List (String × Property Node) → Prop
  | [] => True
  | (_, ⟨n, _⟩) :: ps => n.NamesOnce ∧ propertyNamesOnce ps
termination_by structural ps => ps

end

/-- A document with a version of 32 bits, in which no object gives one name to two properties. -/
structure Document.WellFormed (d : Document) : Prop where
  version : d.version < Nat.pow 2 32
  names : ∀ t ∈ d.types, t.node.NamesOnce

/-! ## Members that are read -/

@[simp] theorem value_read (v : Value) : (read v).value = v := by
  cases v <;> rfl

theorem lookup?_readMembers (ms : List (String × Value)) (key : String) :
    (readMembers ms).lookup? key = (Keyed.lookup? ms key).map read := by
  rw [readMembers_eq_map]
  exact Keyed.lookup?_map read ms key

theorem keys_readMembers (ms : List (String × Value)) : (readMembers ms).keys = Keyed.keys ms := by
  rw [readMembers_eq_map, Keyed.keys, Keyed.keys, List.map_map]
  rfl

theorem values_readMembers (ms : List (String × Value)) :
    (readMembers ms).map (fun m => (m.1, m.2.value)) = ms := by
  rw [readMembers_eq_map, List.map_map]
  have hvalue : (fun m : String × Reading => (m.1, m.2.value)) ∘ (fun m => (m.1, read m.2)) = id := by
    funext m
    exact Prod.ext rfl (value_read m.2)
  rw [hvalue, List.map_id]

theorem onceEach_of_nodup {α : Type} {ms : Keyed α} (h : ms.keys.Nodup) (keys : List String) :
    onceEach keys ms = true := by
  simp [onceEach, Keyed.occurrences_le_one h]

/-! ### Unknown members -/

/-- All keys that a node of some kind knows. -/
def nodeKeys : List String := "type" :: "loc" :: annotationKeys ++ kindNames.flatMap kindKeys

theorem Annotations.ofMembers?_congr {ms ms' : Keyed Value}
    (h : ∀ key ∈ annotationKeys, ms.lookup? key = ms'.lookup? key) :
    ofMembers? ms = ofMembers? ms' := by
  have hkey := fun key hk => h key (List.mem_of_elem_eq_true hk)
  simp only [ofMembers?, hkey "title" rfl, hkey "description" rfl, hkey "examples" rfl,
    hkey "default" rfl, hkey "comment" rfl]

theorem kindOf?_congr {ms ms' : Keyed Reading} {name : String}
    (h : ∀ key ∈ kindKeys name, ms.lookup? key = ms'.lookup? key) :
    kindOf? ms name = kindOf? ms' name := by
  unfold kindOf?
  split
  all_goals simp_all [kindKeys]

theorem kindKeys_subset_of_kindName? {v : Value} {name : String} (h : kindName? v = some name) :
    kindKeys name ⊆ nodeKeys := by
  have hname : name ∈ kindNames := by
    cases v with
    | string s =>
      rw [kindName?] at h
      split at h
      · next hs => exact Option.some.inj h ▸ hs
      · cases h
    | natural n => exact List.mem_of_getElem? h
    | _ => cases h
  intro key hkey
  exact List.mem_append_right _ (List.mem_flatMap.mpr ⟨name, hname, hkey⟩)

theorem nodeOf?_of_name {ms : Keyed Reading} {name : String}
    (h : ((ms.lookup? "type").bind fun r => kindName? r.value) = some name) :
    nodeOf? ms = (do
      let kind ← kindOf? ms name
      let values : Keyed Value := ms.map fun m => (m.1, m.2.value)
      let annotations ← Annotations.ofMembers? values
      let loc ← absentOr Location.ofJson? (values.lookup? "loc")
      if onceEach ("type" :: "loc" :: annotationKeys ++ kindKeys name) ms then
        pure ⟨kind, annotations, loc⟩
      else none) := by
  unfold nodeOf?
  rw [h]
  rfl

/-- **A member that no node knows is passed over.** -/
theorem nodeOf?_cons_of_unknown {key : String} (h : key ∉ nodeKeys) (r : Reading)
    (ms : Keyed Reading) : nodeOf? ((key, r) :: ms) = nodeOf? ms := by
  have hlookup {α : Type} (a : α) (ms : Keyed α) {k : String} (hk : k ∈ nodeKeys) :
      Keyed.lookup? ((key, a) :: ms) k = ms.lookup? k := by
    rw [Keyed.lookup?, if_neg (ne_of_mem_of_not_mem hk h).symm]
  cases hname : (ms.lookup? "type").bind fun r => kindName? r.value with
  | none =>
    unfold nodeOf?
    rw [hlookup r ms List.mem_cons_self, hname]
    rfl
  | some name =>
    obtain ⟨v, -, hv⟩ := Option.bind_eq_some_iff.mp hname
    have hkeys : kindKeys name ⊆ nodeKeys := kindKeys_subset_of_kindName? hv
    have hkind : kindOf? ((key, r) :: ms) name = kindOf? ms name :=
      kindOf?_congr fun k hk => hlookup r ms (hkeys hk)
    have hannotations (vs : Keyed Value) :
        Annotations.ofMembers? ((key, r.value) :: vs) = Annotations.ofMembers? vs :=
      Annotations.ofMembers?_congr fun k hk => hlookup r.value vs (by simp [nodeKeys, hk])
    have honce : onceEach ("type" :: "loc" :: annotationKeys ++ kindKeys name) ((key, r) :: ms)
        = onceEach ("type" :: "loc" :: annotationKeys ++ kindKeys name) ms := by
      rw [Bool.eq_iff_iff]
      simp only [onceEach, List.all_eq_true, decide_eq_true_eq]
      refine forall₂_congr fun k hk => ?_
      have hk' : k ∈ nodeKeys := (List.mem_append.mp hk).elim (List.mem_append_left _) (hkeys ·)
      have hne : key ≠ k := (ne_of_mem_of_not_mem hk' h).symm
      rw [Keyed.occurrences, List.countP_cons_of_neg (by simpa using hne)]
      rfl
    rw [nodeOf?_of_name hname, nodeOf?_of_name (by rwa [hlookup r ms List.mem_cons_self]), hkind,
      honce]
    simp only [List.map_cons, hannotations, hlookup r.value _ (k := "loc") (by decide)]

/-! ## Parts that hold no nodes -/

/-- What is written if it is there, and never as `null`, is read again. -/
theorem absentOr_map {α : Type} {read : Value → Option α} {write : α → Value}
    (h : ∀ a, read (write a) = some a) (hnull : ∀ a, write a ≠ .null) (o : Option α) :
    absentOr read (o.map write) = some o := by
  cases o with
  | none => rfl
  | some a =>
    rw [Option.map_some, absentOr, h a]
    · rfl
    · exact hnull a

/-- A member that is there if its value is. -/
def optionalMember (key : String) : Option Value → List (String × Value)
  | none => []
  | some v => [(key, v)]

theorem lookup?_optionalMember (key : String) (v : Option Value) (k : String) :
    Keyed.lookup? (optionalMember key v) k = if key = k then v else none := by
  cases v with
  | none => simp [optionalMember, Keyed.lookup?]
  | some v => simp [optionalMember, Keyed.lookup?]

theorem keys_optionalMember_sublist (key : String) (v : Option Value) :
    (Keyed.keys (optionalMember key v)).Sublist [key] := by
  cases v with
  | none => exact List.nil_sublist _
  | some v => exact .refl _

/-! ### Annotations -/

theorem strings?_strings (xs : List String) : (Value.strings xs).strings? = some xs := by
  rw [Value.strings, Value.strings?]
  induction xs with
  | nil => rfl
  | cons x xs ih =>
    rw [List.map_cons, List.mapM_cons, ih]
    rfl

theorem Examples.ofJson?_toJson (e : Examples) : ofJson? e.toJson = some e := by
  cases e with
  | one s => rfl
  | many es =>
    have hread : ofJson? (Value.strings es) = (Value.strings es).strings?.map .many := rfl
    rw [toJson, hread, strings?_strings]
    rfl

theorem textMember_eq (key : String) (o : Option String) :
    textMember key o = optionalMember key (o.map .string) := by
  cases o <;> rfl

theorem Annotations.members_eq (a : Annotations) :
    a.members = optionalMember "title" (a.title.map .string)
      ++ optionalMember "description" (a.description.map .string)
      ++ optionalMember "examples" (a.examples.map Examples.toJson)
      ++ optionalMember "default" (a.default.map .string)
      ++ optionalMember "comment" (a.comment.map .string) := by
  simp only [members, textMember_eq]
  cases a.examples <;> rfl

theorem Annotations.keys_members_sublist (a : Annotations) :
    (Keyed.keys a.members).Sublist annotationKeys := by
  simp only [members_eq, Keyed.keys, List.map_append]
  exact ((((keys_optionalMember_sublist _ _).append (keys_optionalMember_sublist _ _)).append
    (keys_optionalMember_sublist _ _)).append (keys_optionalMember_sublist _ _)).append
    (keys_optionalMember_sublist _ _)

theorem Annotations.ofMembers?_members (a : Annotations) : ofMembers? a.members = some a := by
  have htext (o : Option String) : absentOr Value.string? (o.map .string) = some o := by
    apply absentOr_map
    · exact fun _ => rfl
    · nofun
  have hexamples : absentOr Examples.ofJson? (a.examples.map Examples.toJson) = some a.examples :=
    absentOr_map Examples.ofJson?_toJson (fun e => by cases e <;> nofun) a.examples
  simp [ofMembers?, members_eq, Keyed.lookup?_append, lookup?_optionalMember, htext, hexamples]

/-! ### Locations -/

theorem Position.ofJson?_toJson (p : Position) : ofJson? p.toJson = some p := by
  cases p with
  | offset n => rfl
  | point l c o => rfl

theorem positionMember_eq (key : String) (p : Option Position) :
    positionMember key p = optionalMember key (p.map Position.toJson) := by
  cases p <;> rfl

theorem locationMember_eq (l : Option Location) :
    locationMember l = optionalMember "loc" (l.map Location.toJson) := by
  cases l <;> rfl

theorem Location.ofJson?_toJson (l : Location) : ofJson? l.toJson = some l := by
  have hend (p : Option Position) : absentOr Position.ofJson? (p.map Position.toJson) = some p :=
    absentOr_map Position.ofJson?_toJson (fun p => by cases p <;> nofun) p
  have hkeys : (Keyed.keys (positionMember "start" l.start ++ positionMember "end" l.stop)).Sublist
      locationKeys := by
    simp only [positionMember_eq, Keyed.keys, List.map_append]
    exact (keys_optionalMember_sublist _ _).append (keys_optionalMember_sublist _ _)
  have honce := onceEach_of_nodup (hkeys.nodup (by decide)) locationKeys
  rw [toJson, ofJson?, if_pos honce]
  simp [ofMembers?, positionMember_eq, Keyed.lookup?_append, lookup?_optionalMember, hend]

theorem Location.toJson_ne_null (l : Location) : l.toJson ≠ .null := by
  intro h
  cases h

/-! ## Nodes -/

theorem Kind.keys_members_sublist (k : Kind) : (Keyed.keys k.members).Sublist (kindKeys k.name) := by
  cases k with
  | string values =>
    cases values with
    | none => exact List.nil_sublist _
    | some values => exact .refl _
  | boolean | integer | number | null => exact List.nil_sublist _
  | array | tuple | object | or | ref => exact .refl _

/-- The members of a node, in order: each is one that its kind may have. -/
theorem Node.keys_members_sublist (n : Node) :
    (Keyed.keys n.members).Sublist ("type" :: kindKeys n.kind.name ++ annotationKeys ++ ["loc"]) := by
  obtain ⟨k, a, l⟩ := n
  rw [members, locationMember_eq]
  simp only [Keyed.keys, List.map_append, List.map_cons]
  exact (((k.keys_members_sublist).cons_cons "type").append a.keys_members_sublist).append
    (keys_optionalMember_sublist "loc" _)

theorem Kind.name_mem (k : Kind) : k.name ∈ kindNames := by
  cases k <;> simp [name, kindNames]

/-- No key has two uses in a node. -/
theorem nodup_keys_of_kind :
    ∀ name ∈ kindNames, ("type" :: kindKeys name ++ annotationKeys ++ ["loc"]).Nodup := by
  decide

theorem kindKeys_disjoint : ∀ name ∈ kindNames, ∀ key ∈ kindKeys name,
    "type" ≠ key ∧ key ∉ annotationKeys ∧ "loc" ≠ key := by
  decide

theorem Node.keys_members_nodup (n : Node) : (Keyed.keys n.members).Nodup :=
  n.keys_members_sublist.nodup (nodup_keys_of_kind _ n.kind.name_mem)

section
variable {k : Kind} {a : Annotations} {l : Option Location} {key : String}

theorem lookup?_of_sublist {ms : Keyed Value} {keys : List String} (h : ms.keys.Sublist keys)
    (hkey : key ∉ keys) : ms.lookup? key = none :=
  Keyed.lookup?_eq_none_iff.mpr fun hmem => hkey (h.subset hmem)

theorem lookup?_members (h : "type" ≠ key) :
    Keyed.lookup? (Node.members ⟨k, a, l⟩) key
      = ((Keyed.lookup? k.members key).or (Keyed.lookup? a.members key)).or
        (if "loc" = key then l.map Location.toJson else none) := by
  rw [Node.members, locationMember_eq, Keyed.lookup?_append, Keyed.lookup?_append, Keyed.lookup?,
    if_neg h, lookup?_optionalMember]

theorem lookup?_members_of_kind (h : key ∈ kindKeys k.name) :
    Keyed.lookup? (Node.members ⟨k, a, l⟩) key = Keyed.lookup? k.members key := by
  obtain ⟨htype, hannotation, hloc⟩ := kindKeys_disjoint _ k.name_mem key h
  rw [lookup?_members htype, lookup?_of_sublist a.keys_members_sublist hannotation, if_neg hloc,
    Option.or_none, Option.or_none]

theorem lookup?_members_of_annotation (h : key ∈ annotationKeys) :
    Keyed.lookup? (Node.members ⟨k, a, l⟩) key = Keyed.lookup? a.members key := by
  have hkind : key ∉ kindKeys k.name := fun hk => (kindKeys_disjoint _ k.name_mem key hk).2.1 h
  have hother : "type" ≠ key ∧ "loc" ≠ key :=
    have hall : ∀ k ∈ annotationKeys, "type" ≠ k ∧ "loc" ≠ k := by decide
    hall key h
  rw [lookup?_members hother.1, lookup?_of_sublist k.keys_members_sublist hkind, if_neg hother.2,
    Option.none_or, Option.or_none]

theorem lookup?_members_loc :
    Keyed.lookup? (Node.members ⟨k, a, l⟩) "loc" = l.map Location.toJson := by
  have hkind : "loc" ∉ kindKeys k.name := fun hk => (kindKeys_disjoint _ k.name_mem _ hk).2.2 rfl
  rw [lookup?_members (by decide), lookup?_of_sublist k.keys_members_sublist hkind,
    lookup?_of_sublist a.keys_members_sublist (by decide), if_pos rfl, Option.none_or,
    Option.none_or]

end

/-- **A node is found again if its kind is**, whatever its annotations and its location. -/
theorem nodeOf?_of_kind {k : Kind} (h : kindOf? (readMembers k.members) k.name = some k)
    (a : Annotations) (l : Option Location) :
    nodeOf? (readMembers (Node.members ⟨k, a, l⟩)) = some ⟨k, a, l⟩ := by
  have hname : (((readMembers (Node.members ⟨k, a, l⟩)).lookup? "type").bind
      fun r => kindName? r.value) = some k.name := by
    rw [lookup?_readMembers, Node.members, List.cons_append, List.cons_append, Keyed.lookup?,
      if_pos rfl]
    exact if_pos k.name_mem
  have hkind : kindOf? (readMembers (Node.members ⟨k, a, l⟩)) k.name = some k := by
    rw [← h]
    refine kindOf?_congr fun key hkey => ?_
    rw [lookup?_readMembers, lookup?_readMembers, lookup?_members_of_kind hkey]
  have hannotations : Annotations.ofMembers? (Node.members ⟨k, a, l⟩) = some a := by
    rw [← a.ofMembers?_members]
    exact Annotations.ofMembers?_congr fun key hkey => lookup?_members_of_annotation hkey
  have hloc : absentOr Location.ofJson? (Keyed.lookup? (Node.members ⟨k, a, l⟩) "loc") = some l := by
    rw [lookup?_members_loc]
    exact absentOr_map Location.ofJson?_toJson Location.toJson_ne_null l
  have honce : onceEach ("type" :: "loc" :: annotationKeys ++ kindKeys k.name)
      (readMembers (Node.members ⟨k, a, l⟩)) = true := by
    refine onceEach_of_nodup ?_ _
    rw [keys_readMembers]
    exact Node.keys_members_nodup _
  rw [nodeOf?_of_name hname, hkind]
  simp only [values_readMembers, hannotations, hloc, honce]
  rfl

mutual

/-- **A node is read as it is written**, with all nodes inside it. -/
theorem nodeOf?_members : ∀ n : Node, n.NamesOnce → nodeOf? (readMembers n.members) = some n
  | ⟨.array e, a, l⟩, h => by
    refine nodeOf?_of_kind ?_ a l
    show (nodeOf? (readMembers e.members)).map Kind.array = some (.array e)
    rw [nodeOf?_members e h]
    rfl
  | ⟨.tuple es, a, l⟩, h => by
    refine nodeOf?_of_kind ?_ a l
    show ((readAll (nodesToJson es)).mapM Reading.node).map Kind.tuple = some (.tuple es)
    rw [mapM_node_nodesToJson es h]
    rfl
  | ⟨.or es, a, l⟩, h => by
    refine nodeOf?_of_kind ?_ a l
    show ((readAll (nodesToJson es)).mapM Reading.node).map Kind.or = some (.or es)
    rw [mapM_node_nodesToJson es h]
    rfl
  | ⟨.object ps x, a, l⟩, h => by
    refine nodeOf?_of_kind ?_ a l
    have hproperties : propertiesOf? (readMembers (propertiesToJson ps)) = some ps := by
      rw [propertiesOf?, mapM_property_propertiesToJson ps h.2, Option.map_some,
        Keyed.ofEntries_of_nodup h.1]
    show (do
      let properties ← propertiesOf? (readMembers (propertiesToJson ps))
      pure (Kind.object properties x)) = some (.object ps x)
    rw [hproperties]
    rfl
  | ⟨.string (some values), a, l⟩, _ => by
    refine nodeOf?_of_kind ?_ a l
    show ((Value.strings values).strings?.map some).map Kind.string = some (.string (some values))
    rw [strings?_strings]
    rfl
  | ⟨.boolean, a, l⟩, _ | ⟨.integer, a, l⟩, _ | ⟨.number, a, l⟩, _ | ⟨.string none, a, l⟩, _
  | ⟨.null, a, l⟩, _ | ⟨.ref _, a, l⟩, _ => nodeOf?_of_kind rfl a l

theorem mapM_node_nodesToJson : ∀ ns : List Node, allNamesOnce ns →
    (readAll (nodesToJson ns)).mapM Reading.node = some ns
  | [], _ => rfl
  | n :: ns, h => by
    have hn : (read (.object n.members)).node = some n := nodeOf?_members n h.1
    rw [nodesToJson, readAll, List.mapM_cons, hn, mapM_node_nodesToJson ns h.2]
    rfl

theorem mapM_property_propertiesToJson : ∀ ps : List (String × Property Node),
    propertyNamesOnce ps →
    (readMembers (propertiesToJson ps)).mapM
      (fun m : String × Reading => m.2.property.map (m.1, ·)) = some ps
  | [], _ => rfl
  | (name, ⟨n, required⟩) :: ps, h => by
    have hn : (read (.object [("node", .object n.members), ("required", .bool required)])).property
        = some ⟨n, required⟩ := by
      show (do
        let node ← nodeOf? (readMembers n.members)
        pure (⟨node, required⟩ : Property Node)) = some ⟨n, required⟩
      rw [nodeOf?_members n h.1]
      rfl
    rw [propertiesToJson, readMembers, List.mapM_cons, hn, mapM_property_propertiesToJson ps h.2]
    rfl

end

/-! ## Documents -/

theorem Declaration.ofJson?_toJson {t : Declaration} (h : t.node.NamesOnce) :
    ofJson? t.toJson = some t := by
  have hname : "name" ∉ Keyed.keys t.node.members := by
    intro hmem
    have hkeys : ∀ name ∈ kindNames,
        "name" ∉ "type" :: kindKeys name ++ annotationKeys ++ ["loc"] := by decide
    exact hkeys _ t.node.kind.name_mem (t.node.keys_members_sublist.subset hmem)
  have hnode : nodeOf? (readMembers (("name", .string t.name) :: t.node.members)) = some t.node := by
    rw [readMembers, nodeOf?_cons_of_unknown (by decide), nodeOf?_members t.node h]
  have hkeys : (Keyed.keys (("name", Value.string t.name) :: t.node.members)).Nodup :=
    List.nodup_cons.mpr ⟨hname, t.node.keys_members_nodup⟩
  have honce := onceEach_of_nodup hkeys ["name"]
  rw [toJson, ofJson?, hnode]
  simp only [honce]
  rfl

theorem mapM_declarations_toJson {ts : List Declaration} (h : ∀ t ∈ ts, t.node.NamesOnce) :
    (ts.map Declaration.toJson).mapM Declaration.ofJson? = some ts := by
  induction ts with
  | nil => rfl
  | cons t ts ih =>
    obtain ⟨ht, hts⟩ := List.forall_mem_cons.mp h
    rw [List.map_cons, List.mapM_cons, Declaration.ofJson?_toJson ht, ih hts]
    rfl

/-- **A document is read as it is written**: nothing is lost, and properties keep their order. -/
theorem document_survives_json {d : Document} (h : d.WellFormed) :
    Document.ofJson? d.toJson = some d := by
  have hversion : version? (.natural d.version) = some d.version := by
    rw [version?, Value.natural?, Option.filter_some, if_pos (decide_eq_true h.version)]
  show documentOf? (.natural d.version) (.array (d.types.map Declaration.toJson)) = some d
  simp only [documentOf?, hversion, Value.array?, Option.bind_eq_bind, Option.bind_some,
    mapM_declarations_toJson h.names]
  rfl

/-- A document with nodes of every kind, one inside the other, with all forms of annotations and
locations. -/
def everyKind : Document :=
  let place : Location := ⟨some (.offset 7), some (.point 3 14 (Nat.pow 2 64 - 1))⟩
  let documented : Annotations := ⟨some "T", some "", some (.many []), some "`", some "type"⟩
  let number : Node := ⟨.number, { examples := some (.one "1") }, some ⟨none, none⟩⟩
  let colour : Node := ⟨.string (some ["red", ""]), { examples := some (.many ["red"]) }, none⟩
  let pair : Node := ⟨.tuple [number, .ofKind (.string (some []))], documented, some place⟩
  let choice : Node :=
    ⟨.or [.ofKind .null, colour, .ofKind (.array pair)], {}, some ⟨none, some (.offset 0)⟩⟩
  let shape : Node := .ofKind (.object [("type", ⟨choice, true⟩), ("name", ⟨.ofKind .boolean, false⟩),
    ("loc", ⟨.ofKind (.object [] false), true⟩), ("", ⟨.ofKind .integer, true⟩)] true)
  ⟨7, [⟨"ref", ⟨.ref "or", documented, some place⟩⟩, ⟨"", shape⟩, ⟨"ref", .ofKind .anyString⟩]⟩

theorem document_survives_json_everyKind :
    everyKind.WellFormed ∧ Document.ofJson? everyKind.toJson = some everyKind := by
  have h : everyKind.WellFormed := by
    refine ⟨by decide, ?_⟩
    simp [everyKind, Node.NamesOnce, allNamesOnce, propertyNamesOnce, Node.ofKind, Kind.anyString,
      Keyed.keys]
  exact ⟨h, document_survives_json h⟩

end SchemaBridge.Model
