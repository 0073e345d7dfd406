import SchemaBridge.Conversion
import SchemaBridge.Proofs.CompatibleSchemas
import SchemaBridge.Proofs.TypeNames
/-!
# The types in a report

A changed type is reported with its spelling in either schema. The spelling of a type over a word tells
its outermost part: a list starts with a bracket, a type without `null` ends with an exclamation mark,
and a word does neither. So different types have different spellings, and as no type is incompatible
with itself, a report of a change shows two of them.

The sentence of a change ends with both spellings. As there is no blank in either, they can be read off
it from the end, whatever names stand in front.

Results:
* `text_injective`: types over words are told apart by their spelling.
* `eq_of_sentence_eq`: the last two spellings of a sentence are determined by it.
* `differing_breaking`: the two types of a change are from the schemas, and they differ.
* `type_changes_show`: what every report of a changed type tells.
-/
namespace SchemaBridge

open Sdl (TypeRef Field InputValue TypeBody Schema IsWord)

/-! ## Spellings -/

namespace Sdl.TypeRef

theorem toList_text_list (t : TypeRef) :
    (list t).text.toList = '[' :: (t.text.toList ++ [']']) := by
  rw [text, String.toList_append, String.toList_append]
  rfl

theorem toList_text_nonNull (t : TypeRef) : (nonNull t).text.toList = t.text.toList ++ ['!'] := by
  rw [text, String.toList_append]
  rfl

theorem text_named_ne_list {n : String} (hn : (named n).OverWord) (t : TypeRef) :
    (named n).text ≠ (list t).text := by
  intro h
  apply IsWord.not_mem hn (c := '[') rfl
  have hlist : n.toList = (list t).text.toList := congrArg String.toList h
  rw [head, hlist, toList_text_list]
  exact List.mem_cons_self

theorem text_named_ne_nonNull {n : String} (hn : (named n).OverWord) (t : TypeRef) :
    (named n).text ≠ (nonNull t).text := by
  intro h
  apply IsWord.not_mem hn (c := '!') rfl
  have hlist : n.toList = (nonNull t).text.toList := congrArg String.toList h
  rw [head, hlist, toList_text_nonNull]
  exact List.mem_append_right _ List.mem_cons_self

theorem text_list_ne_nonNull (t u : TypeRef) : (list t).text ≠ (nonNull u).text := by
  intro h
  have hlist := congrArg String.toList h
  rw [toList_text_list, toList_text_nonNull, ← List.cons_append] at hlist
  have hlast : [']'] = ['!'] := List.append_inj_right' hlist rfl
  simp at hlast

/-- Types over words are told apart by their spelling. -/
theorem text_injective {t u : TypeRef} (ht : t.OverWord) (hu : u.OverWord) (h : t.text = u.text) :
    t = u := by
  induction t generalizing u with
  | named n =>
    cases u with
    | named m => exact congrArg named h
    | list u => exact absurd h (text_named_ne_list ht u)
    | nonNull u => exact absurd h (text_named_ne_nonNull ht u)
  | list t ih =>
    cases u with
    | named m => exact absurd h.symm (text_named_ne_list hu t)
    | list u =>
      have hlist := congrArg String.toList h
      rw [toList_text_list, toList_text_list, List.cons.injEq, List.append_left_inj,
        String.toList_inj] at hlist
      exact congrArg list (ih ht hu hlist.2)
    | nonNull u => exact absurd h (text_list_ne_nonNull t u)
  | nonNull t ih =>
    cases u with
    | named m => exact absurd h.symm (text_named_ne_nonNull hu t)
    | list u => exact absurd h.symm (text_list_ne_nonNull u t)
    | nonNull u =>
      have hlist := congrArg String.toList h
      rw [toList_text_nonNull, toList_text_nonNull, List.append_left_inj, String.toList_inj] at hlist
      exact congrArg nonNull (ih ht hu hlist)

/- A name with brackets would be taken for a list. -/
example : (named "[A]").text = (list (named "A")).text := by decide

theorem blank_not_mem_text {t : TypeRef} (ht : t.OverWord) : ' ' ∉ t.text.toList := by
  induction t with
  | named n => exact IsWord.not_mem ht rfl
  | list t ih => simpa [toList_text_list] using ih ht
  | nonNull t ih => simpa [toList_text_nonNull] using ih ht

end Sdl.TypeRef

namespace Changes

/-! ## Sentences -/

/-- A sentence that ends with the spellings of two types: from the old one to the new one. -/
def Sentence (s : String) (old new : TypeRef) : Prop :=
  ∃ place, s = place ++ " from " ++ old.text ++ " to " ++ new.text ++ "."

/-- A text has one last blank only, and so one part in front of it and one behind. -/
theorem eq_of_append_blank_eq {s s' t t' : List Char} (ht : ' ' ∉ t) (ht' : ' ' ∉ t')
    (h : s ++ ' ' :: t = s' ++ ' ' :: t') : s = s' ∧ t = t' := by
  -- If one front were longer than the other, the blank behind it would be in the other's rest.
  rcases List.append_eq_append_iff.mp h with ⟨r, rfl, hr⟩ | ⟨r, rfl, hr⟩
  · cases r with
    | nil => simpa using hr
    | cons c r =>
      obtain ⟨rfl, rfl⟩ := List.cons.inj hr
      exact absurd (List.mem_append_right _ List.mem_cons_self) ht
  · cases r with
    | nil => simpa using hr.symm
    | cons c r =>
      obtain ⟨rfl, rfl⟩ := List.cons.inj hr
      exact absurd (List.mem_append_right _ List.mem_cons_self) ht'

/-- The types that a sentence ends with are determined by it. -/
theorem eq_of_sentence_eq {s : String} {a b a' b' : TypeRef} (ha : a.OverWord) (hb : b.OverWord)
    (ha' : a'.OverWord) (hb' : b'.OverWord) (h : Sentence s a b) (h' : Sentence s a' b') :
    a' = a ∧ b' = b := by
  obtain ⟨place, rfl⟩ := h
  obtain ⟨place', h'⟩ := h'
  have hlists : (place.toList ++ " from".toList ++ ' ' :: a.text.toList ++ " to".toList)
        ++ ' ' :: b.text.toList ++ ['.']
      = (place'.toList ++ " from".toList ++ ' ' :: a'.text.toList ++ " to".toList)
        ++ ' ' :: b'.text.toList ++ ['.'] := by
    simpa using congrArg String.toList h'
  -- Read from the end: the full stop, the new type, ` to`, and the old type.
  rw [List.append_left_inj] at hlists
  obtain ⟨hfront, hnew⟩ := eq_of_append_blank_eq (TypeRef.blank_not_mem_text hb)
    (TypeRef.blank_not_mem_text hb') hlists
  rw [List.append_left_inj] at hfront
  obtain ⟨-, hold⟩ := eq_of_append_blank_eq (TypeRef.blank_not_mem_text ha)
    (TypeRef.blank_not_mem_text ha') hfront
  exact ⟨TypeRef.text_injective ha' ha (String.toList_inj.mp hold.symm),
    TypeRef.text_injective hb' hb (String.toList_inj.mp hnew.symm)⟩

/-- The old and the new type of a change of types. -/
def Breaking.types? : Breaking → Option (TypeRef × TypeRef)
  | argChangedKind _ _ _ old new | fieldChangedKind _ _ old new => some (old, new)
  | _ => none

theorem exists_types {x : Breaking} (h : x.code = "FIELD_CHANGED_KIND" ∨ x.code = "ARG_CHANGED_KIND") :
    ∃ old new, x.types? = some (old, new) := by
  cases x with
  | argChangedKind owner field arg old new => exact ⟨old, new, rfl⟩
  | fieldChangedKind owner field old new => exact ⟨old, new, rfl⟩
  | _ => simp [Breaking.code] at h

theorem sentence_description {x : Breaking} {old new : TypeRef} (h : x.types? = some (old, new)) :
    Sentence x.description old new := by
  have hplace : ∀ s t : String, s ++ t ++ " from " = s ++ (t ++ " from ") :=
    fun s t => String.append_assoc
  cases x with
  | argChangedKind owner field arg old new =>
    cases h
    exact ⟨owner ++ "." ++ field ++ " arg " ++ arg ++ " has changed type", by rw [hplace]; rfl⟩
  | fieldChangedKind owner field old new =>
    cases h
    exact ⟨owner ++ "." ++ field ++ " changed type", by rw [hplace]; rfl⟩
  | _ => cases h

/-! ## The types of changes -/

/-- The types of the changes satisfy a condition, and the new one is never the old one. -/
def Differing (P : TypeRef → Prop) (xs : List Breaking) : Prop :=
  ∀ x ∈ xs, ∀ old new, x.types? = some (old, new) → P old ∧ P new ∧ old ≠ new

section
variable {P : TypeRef → Prop} {α : Type} {xs ys : List Breaking} {owner field : String}

theorem differing_nil : Differing P [] := nofun

theorem differing_singleton {x : Breaking}
    (h : ∀ old new, x.types? = some (old, new) → P old ∧ P new ∧ old ≠ new) : Differing P [x] := by
  intro y hy
  rwa [List.mem_singleton.mp hy]

theorem Differing.append (hx : Differing P xs) (hy : Differing P ys) : Differing P (xs ++ ys) :=
  List.forall_mem_append.mpr ⟨hx, hy⟩

theorem Differing.flatMap {as : List α} {f : α → List Breaking} (h : ∀ a ∈ as, Differing P (f a)) :
    Differing P (as.flatMap f) := by
  intro x hx
  obtain ⟨a, ha, hx⟩ := List.mem_flatMap.mp hx
  exact h a ha x hx

/-- Changes without types. -/
theorem differing_map {as : List α} {f : α → Breaking} (h : ∀ a, (f a).types? = none) :
    Differing P (as.map f) := by
  refine List.forall_mem_map.mpr fun a _ old new htypes => ?_
  rw [h a] at htypes
  cases htypes

/-- A change that is reported unless the types are compatible, as a type is with itself. -/
theorem differing_unless {compatible : Bool} {x : Breaking} {old new : TypeRef}
    (htypes : x.types? = some (old, new)) (hold : P old) (hnew : P new)
    (hself : old = new → compatible = true) : Differing P (if compatible then [] else [x]) := by
  split
  · exact differing_nil
  · next hnot =>
    apply differing_singleton
    intro a b hab
    rw [htypes] at hab
    cases hab
    exact ⟨hold, hnew, fun h => hnot (hself h)⟩

theorem differing_argBreaking {u : InputValue} {found : Option InputValue} (hu : P u.type)
    (hfound : ∀ v, found = some v → P v.type) : Differing P (argBreaking owner field u found) := by
  cases found with
  | none => exact differing_singleton nofun
  | some v => exact differing_unless rfl hu (hfound v rfl) fun h => h ▸ safeInput_refl u.type

theorem differing_inputFieldBreaking {u : InputValue} {found : Option InputValue} (hu : P u.type)
    (hfound : ∀ v, found = some v → P v.type) :
    Differing P (inputFieldBreaking owner u found) := by
  cases found with
  | none => exact differing_singleton nofun
  | some v => exact differing_unless rfl hu (hfound v rfl) fun h => h ▸ safeInput_refl u.type

theorem differing_argsBreaking {us vs : List InputValue} (hu : ∀ u ∈ us, P u.type)
    (hv : ∀ v ∈ vs, P v.type) : Differing P (argsBreaking owner field us vs) := by
  refine .append (.flatMap fun u hmem => ?_) (differing_map fun _ => rfl)
  exact differing_argBreaking (hu u hmem) fun v hfound => hv v (List.mem_of_find?_eq_some hfound)

theorem differing_inputFieldsBreaking {us vs : List InputValue} (hu : ∀ u ∈ us, P u.type)
    (hv : ∀ v ∈ vs, P v.type) : Differing P (inputFieldsBreaking owner us vs) := by
  refine .append (.flatMap fun u hmem => ?_) (differing_map fun _ => rfl)
  exact differing_inputFieldBreaking (hu u hmem) fun v hfound =>
    hv v (List.mem_of_find?_eq_some hfound)

theorem differing_fieldBreaking {f g : Field} (hf : ∀ t ∈ f.types, P t) (hg : ∀ t ∈ g.types, P t) :
    Differing P (fieldBreaking owner f (some g)) := by
  obtain ⟨hftype, hfargs⟩ := List.forall_mem_cons.mp hf
  obtain ⟨hgtype, hgargs⟩ := List.forall_mem_cons.mp hg
  have hargs : Differing P (argsBreaking owner f.name f.arguments g.arguments) :=
    differing_argsBreaking (List.forall_mem_map.mp hfargs) (List.forall_mem_map.mp hgargs)
  exact hargs.append (differing_unless rfl hftype hgtype fun h => h ▸ safeOutput_refl f.type)

theorem differing_fieldsBreaking {fs gs : List Field} (hf : ∀ t ∈ fs.flatMap Field.types, P t)
    (hg : ∀ t ∈ gs.flatMap Field.types, P t) : Differing P (fieldsBreaking owner fs gs) := by
  refine .flatMap fun f hmem => ?_
  cases hfound : findField gs f.name with
  | none => exact differing_singleton nofun
  | some g =>
    have hgmem : g ∈ gs := List.mem_of_find?_eq_some hfound
    exact differing_fieldBreaking (fun t ht => hf t (List.mem_flatMap.mpr ⟨f, hmem, ht⟩))
      fun t ht => hg t (List.mem_flatMap.mpr ⟨g, hgmem, ht⟩)

theorem differing_bodyBreaking {old new : TypeBody} (hold : ∀ t ∈ old.types, P t)
    (hnew : ∀ t ∈ new.types, P t) : Differing P (bodyBreaking owner old new) := by
  by_cases hform : old.form = new.form
  · cases sameForm_of_form_eq hform with
    | scalar => exact differing_nil
    | object | interface =>
      exact (differing_fieldsBreaking hold hnew).append (differing_map fun _ => rfl)
    | union | enum => exact differing_map fun _ => rfl
    | input =>
      exact differing_inputFieldsBreaking (List.forall_mem_map.mp hold) (List.forall_mem_map.mp hnew)
  · rw [bodyBreaking_of_form_ne owner hform]
    exact differing_singleton nofun

end

theorem mem_of_mem_types {s : Schema} {d : Sdl.TypeDef} (h : d ∈ types s) : .type d ∈ s := by
  obtain ⟨e, he, hd⟩ := List.mem_filterMap.mp h
  cases e with
  | type d' => cases hd; exact he
  | _ => cases hd

/-- The two types of a change are from the schemas, and they differ. -/
theorem differing_breaking {P : TypeRef → Prop} {old new : Schema}
    (hold : ∀ d ∈ old, ∀ t ∈ d.types, P t) (hnew : ∀ d ∈ new, ∀ t ∈ d.types, P t) :
    Differing P (breaking old new) := by
  refine .flatMap fun m hm => ?_
  cases hfound : (typeDefs new).lookup? m.1 with
  | none => exact differing_singleton nofun
  | some u =>
    have hu : (m.1, u) ∈ typeDefs new := mem_typeDefs.mpr hfound
    exact differing_bodyBreaking (hold _ (mem_of_mem_types (mem_types_of_mem_typeDefs hm)))
      (hnew _ (mem_of_mem_types (mem_types_of_mem_typeDefs hu)))

/-! ## Reports -/

theorem parse_of_readSchema {source : String} {s : Schema} (h : Sdl.readSchema source = .ok s) :
    Schema.parse source = .ok s := by
  unfold Sdl.readSchema at h
  split at h
  · next hparse => cases h; exact hparse
  · cases h
  · split at h <;> cases h

/-- The report is about the schemas that the sources hold. -/
theorem of_compare {source source' : String} {report : Report}
    (h : compare source source' = .ok report) :
    ∃ old new, Schema.parse source = .ok old ∧ Schema.parse source' = .ok new ∧
      report = ⟨breaking old new, dangerous old new⟩ := by
  unfold compare at h
  cases hold : Sdl.readSchema source with
  | error e => rw [hold] at h; cases h
  | ok old =>
    cases hnew : Sdl.readSchema source' with
    | error e => rw [hold, hnew] at h; cases h
    | ok new =>
      rw [hold, hnew] at h
      cases h
      exact ⟨old, new, parse_of_readSchema hold, parse_of_readSchema hnew, rfl⟩

/-- A change of types tells from what to what. -/
def Breaking.Shows (x : Breaking) : Prop :=
  ∃ old new, x.types? = some (old, new) ∧ old.OverWord ∧ new.OverWord ∧
    Sentence x.description old new ∧ old.text ≠ new.text ∧
    ∀ old' new' : TypeRef, old'.OverWord → new'.OverWord → Sentence x.description old' new' →
      old' = old ∧ new' = new

/-- **A reported change of types shows a change.** Types over words are told apart by their spelling.
In the report on any two sources, every change of the type of a field or an argument ends with the
spellings of two types. The spellings differ, and no other types have them. -/
theorem type_changes_show :
    (∀ t u : TypeRef, t.OverWord → u.OverWord → t.text = u.text → t = u) ∧
    ∀ (source source' : String) (report : Report), compare source source' = .ok report →
      ∀ x ∈ report.breaking, x.code = "FIELD_CHANGED_KIND" ∨ x.code = "ARG_CHANGED_KIND" →
        x.Shows := by
  refine ⟨fun t u => TypeRef.text_injective, fun source source' report hreport x hx hcode => ?_⟩
  obtain ⟨old, new, hold, hnew, rfl⟩ := of_compare hreport
  obtain ⟨a, b, htypes⟩ := exists_types hcode
  obtain ⟨ha, hb, hne⟩ := differing_breaking (Sdl.overWord_of_parse hold)
    (Sdl.overWord_of_parse hnew) x hx a b htypes
  have hsentence := sentence_description htypes
  exact ⟨a, b, htypes, ha, hb, hsentence, fun h => hne (TypeRef.text_injective ha hb h),
    fun a' b' ha' hb' h' => eq_of_sentence_eq ha hb ha' hb' hsentence h'⟩

/-- A field with an argument, and an input field. -/
def typedSource : String :=
  "type A \x7b f(a: [Int!]): [Int]! \x7d input I \x7b x: Int \x7d"

/-- The same with other types. -/
def retypedSource : String :=
  "type A \x7b f(a: [Int]!): [[Int]] \x7d input I \x7b x: Int! \x7d"

theorem type_changes_show_retyped :
    (∀ u : TypeRef, u.OverWord → "[Int!]" = u.text → .list (.nonNull (.named "Int")) = u) ∧
    ∃ report, compare typedSource retypedSource = .ok report ∧
      report.breaking.map Breaking.code
        = ["ARG_CHANGED_KIND", "FIELD_CHANGED_KIND", "FIELD_CHANGED_KIND"] ∧
      report.breaking.map Breaking.description
        = ["A.f arg a has changed type from [Int!] to [Int]!.",
          "A.f changed type from [Int]! to [[Int]].", "I.x changed type from Int to Int!."] ∧
      ∀ x ∈ report.breaking, x.Shows := by
  refine ⟨fun u hu => type_changes_show.1 (.list (.nonNull (.named "Int"))) u ?_ hu, ?_⟩
  · have hword : "Int".toList.all Sdl.Lexer.isNameChar = true := by decide
    exact List.all_eq_true.mp hword
  have hcompare : (compare typedSource retypedSource).toOption.map (fun report =>
      (report.breaking.map Breaking.code, report.breaking.map Breaking.description))
      = some (["ARG_CHANGED_KIND", "FIELD_CHANGED_KIND", "FIELD_CHANGED_KIND"],
        ["A.f arg a has changed type from [Int!] to [Int]!.",
          "A.f changed type from [Int]! to [[Int]].", "I.x changed type from Int to Int!."]) := by
    decide +kernel
  obtain ⟨report, hreport, hchanges⟩ := exists_ok_of_map hcompare
  obtain ⟨hcodes, hdescriptions⟩ := Prod.mk.inj hchanges
  refine ⟨report, hreport, hcodes, hdescriptions, fun x hx => ?_⟩
  apply type_changes_show.2 typedSource retypedSource report hreport x hx
  have hcode : x.code ∈ report.breaking.map Breaking.code := List.mem_map_of_mem hx
  rw [hcodes] at hcode
  simpa [or_comm] using hcode

end Changes

end SchemaBridge
