import SchemaBridge.Proofs.PassedLexemes
/-!
# The names in types

The lexer makes names of letters, digits and underscores, and the parser takes the name in a type from a
lexeme that is a name. So all types in a schema are types over words, whatever else its text holds.

A parser that passes lexemes only does not matter here: what it leaves are lexemes of the same text.

Results:
* `isWord_of_mem_tokens`: the names among the lexemes of a text are words.
* `Yields.bind`, `Yields.pass`: how parsers are put together whose results satisfy a condition.
* `overWord_of_parse`: the types in a schema are types over words.
-/
namespace SchemaBridge.Sdl

open Text (Position)

/-- A text of letters, digits and underscores. -/
def IsWord (t : List Char) : Prop := ∀ c ∈ t, Lexer.isNameChar c = true

theorem IsWord.not_mem {t : List Char} (h : IsWord t) {c : Char}
    (hc : Lexer.isNameChar c = false) : c ∉ t := by
  intro hmem
  rw [h c hmem] at hc
  cases hc

/-- A type over a word. -/
def TypeRef.OverWord (t : TypeRef) : Prop := IsWord t.head.toList

/-! ## The types in a schema -/

def Field.types (d : Field) : List TypeRef := d.type :: d.arguments.map InputValue.type

def TypeBody.types : TypeBody → List TypeRef
  | scalar | union _ | enum _ => []
  | object _ fields | interface _ fields => fields.flatMap Field.types
  | input fields => fields.map InputValue.type

def Definition.types : Definition → List TypeRef
  | schema _ => []
  | type d | extension d => d.body.types
  | directive d => d.arguments.map InputValue.type

/-! ## The names in a text -/

/-- The names among the lexemes are words. -/
def Tokens.Worded (ts : Tokens) : Prop := ∀ l ∈ ts.lexemes, l.isName = true → IsWord l.text

namespace Lexer

theorem isNameChar_of_isNameStart {c : Char} (h : isNameStart c = true) : isNameChar c = true := by
  unfold isNameStart at h
  unfold isNameChar Char.isAlphanum
  simp only [Bool.or_eq_true] at h ⊢
  rcases h with h | h
  · exact .inl (.inl h)
  · exact .inr h

theorem numberKind?_ne_name (t : List Char) : numberKind? t ≠ some .name := by
  unfold numberKind?
  split
  · simp
  · dsimp only
    repeat' split
    all_goals simp

theorem isWord_take_word {c : Char} (hc : isNameStart c = true) (cs : List Char) :
    IsWord ((c :: cs).take ((word cs).length + 1)) := by
  have hword : cs.take (word cs).length = word cs :=
    (List.prefix_iff_eq_take.mp (List.takeWhile_prefix _)).symm
  rw [List.take_succ_cons, hword]
  exact List.forall_mem_cons.mpr
    ⟨isNameChar_of_isNameStart hc, fun d hd => List.all_eq_true.mp List.all_takeWhile d hd⟩

theorem isWord_of_measure? {t : List Char} {n : Nat} (h : measure? t = some (.name, n)) :
    IsWord (t.take n) := by
  -- Only what starts like a name is one; the other lexemes have kinds of their own.
  unfold measure? at h
  split at h
  · cases h
  · cases h
  · obtain ⟨m, -, hm⟩ := Option.map_eq_some_iff.mp h
    cases hm
  · next c cs _ _ =>
    split at h
    · cases h
    · split at h
      · next hstart =>
        cases h
        exact isWord_take_word hstart cs
      · split at h
        · obtain ⟨kind, hkind, hm⟩ := Option.map_eq_some_iff.mp h
          cases hm
          exact absurd hkind (numberKind?_ne_name _)
        · split at h
          · obtain ⟨m, -, hm⟩ := Option.map_eq_some_iff.mp h
            cases hm
          · cases h

theorem worded_tokensFrom (fuel credits : Nat) (p : Position) (t : List Char) :
    (tokensFrom fuel credits p t).Worded := by
  induction fuel generalizing credits p t with
  | zero => exact nofun
  | succ fuel ih =>
    unfold Tokens.Worded
    rcases lexemes_tokensFrom_succ fuel credits p t with h | ⟨kind, n, credits', hm, h⟩
    · rw [h]
      exact nofun
    · rw [h]
      refine List.forall_mem_cons.mpr ⟨fun hname => ?_, ih _ _ _⟩
      obtain rfl : kind = .name := of_decide_eq_true hname
      exact isWord_of_measure? hm

theorem worded_tokens (t : List Char) : (tokens t).Worded := worded_tokensFrom _ _ _ t

end Lexer

/-! ## Parsers of words -/

namespace Parser
variable {α β : Type} {P : α → Prop} {Q : β → Prop} {m : Parser α} {k : α → Parser β}
  {test : Lexeme → Bool}

/-- If the names are words, then what the parser makes of them satisfies a condition, and the names it
leaves are words. -/
def Yields (P : α → Prop) (m : Parser α) : Prop :=
  ∀ ⦃ts : Tokens⦄ ⦃a : α⦄ ⦃ts' : Tokens⦄, ts.Worded → m ts = .ok (a, ts') → P a ∧ ts'.Worded

theorem Advances.worded (hm : Advances m) {ts ts' : Tokens} {a : α} (hts : ts.Worded)
    (h : m ts = .ok (a, ts')) : ts'.Worded :=
  fun l hl => hts l ((hm h).subset hl)

theorem Yields.pure {a : α} (h : P a) : Yields P (pure a) := by
  rintro ts _ _ hts ⟨⟩
  exact ⟨h, hts⟩

theorem Yields.bind (hm : Yields P m) (hk : ∀ a, P a → Yields Q (k a)) : Yields Q (m >>= k) := by
  intro ts b ts' hts h
  obtain ⟨a, us, ha, hb⟩ := ok_of_bind h
  obtain ⟨hP, hus⟩ := hm hts ha
  exact hk a hP hus hb

/-- Of a parser in front it only matters what it leaves. -/
theorem Yields.pass (hm : Advances m) (hk : ∀ a, Yields Q (k a)) : Yields Q (m >>= k) := by
  intro ts b ts' hts h
  obtain ⟨a, us, ha, hb⟩ := ok_of_bind h
  exact hk a (hm.worded hts ha) hb

theorem Yields.map {g : α → β} (hm : Yields P m) (h : ∀ a, P a → Q (g a)) : Yields Q (g <$> m) := by
  rw [map_eq_pure_bind]
  exact hm.bind fun a ha => .pure (h a ha)

theorem Yields.ite {c : Prop} [Decidable c] {m' : Parser α} (hm : Yields P m) (hm' : Yields P m') :
    Yields P (if c then m else m') := by
  split
  · exact hm
  · exact hm'

theorem yields_unexpected : Yields P unexpected := nofun

theorem yields_malformed (position : Position) : Yields P (malformed position) := nofun

theorem Yields.manyWithin (hm : Yields P m) (bound : Tokens) :
    Yields (fun as => ∀ a ∈ as, P a) (manyWithin test m bound) := by
  have hnil : Yields (fun as => ∀ a ∈ as, P a) (Pure.pure [] : Parser (List α)) := .pure nofun
  induction bound with
  | finish position | unreadable position => exact hnil
  | lexeme l rest ih =>
    exact .pass advances_nextIs fun _ => .ite (hm.bind fun a ha => ih.bind fun as has =>
      .pure (List.forall_mem_cons.mpr ⟨ha, has⟩)) hnil

theorem Yields.some (hm : Yields P m) : Yields (fun as => ∀ a ∈ as, P a) (Parser.some test m) :=
  hm.bind fun _ ha => (Yields.pass advances_remaining hm.manyWithin).bind fun _ has =>
    .pure (List.forall_mem_cons.mpr ⟨ha, has⟩)

end Parser

open SchemaBridge.Sdl.Parser

theorem Parser.Yields.between {α : Type} {P : α → Prop} {m : Parser α} (opener closer : String)
    (hm : Yields P m) : Yields P (between opener closer m) :=
  .pass (advances_punct opener) fun _ => hm.bind fun _ ha =>
    .pass (advances_punct closer) fun _ => .pure ha

theorem yields_name : Yields (fun s => IsWord s.toList) name := by
  intro ts s ts' hts h
  refine ⟨?_, advances_name.worded hts h⟩
  obtain ⟨l, us, htake, hpure⟩ := ok_of_bind h
  cases hpure
  obtain ⟨hlexemes, hname⟩ := lexemes_of_take htake
  rw [String.toList_ofList]
  exact hts l (hlexemes ▸ List.mem_cons_self) hname

theorem yields_typeRefWithin (bound : Tokens) : Yields TypeRef.OverWord (typeRefWithin bound) := by
  induction bound with
  | finish position | unreadable position => exact yields_unexpected
  | lexeme l rest ih =>
    have hlist : Yields TypeRef.OverWord (TypeRef.list <$> between "[" "]" (typeRefWithin rest)) :=
      (ih.between _ _).map fun _ ht => ht
    have hnamed : Yields TypeRef.OverWord (TypeRef.named <$> name) := yields_name.map fun _ hs => hs
    have hend : ∀ t : TypeRef, t.OverWord → Yields TypeRef.OverWord (do
        if ← accept (punctuator "!") then pure t.nonNull else pure t) := fun _ ht =>
      .pass advances_accept fun _ => .ite (.pure ht) (.pure ht)
    exact .pass advances_nextIs fun _ => .ite (hlist.bind hend) (hnamed.bind hend)

theorem yields_typeRef : Yields TypeRef.OverWord typeRef :=
  .pass advances_remaining yields_typeRefWithin

/-! ### Fields -/

theorem yields_inputValue : Yields (fun v => v.type.OverWord) inputValue :=
  .pass advances_here fun _ => .pass advances_description fun _ => .pass advances_name fun _ =>
    .pass (advances_punct _) fun _ => yields_typeRef.bind fun _ ht =>
    .pass advances_default fun _ => .pass advances_directives fun _ => .pure ht

theorem yields_argumentDefs : Yields (fun vs => ∀ v ∈ vs, v.type.OverWord) argumentDefs :=
  .pass advances_nextIs fun _ => .ite (yields_inputValue.some.between _ _) (.pure nofun)

theorem yields_field : Yields (fun d => ∀ t ∈ d.types, t.OverWord) field :=
  .pass advances_here fun _ => .pass advances_description fun _ => .pass advances_name fun _ =>
    yields_argumentDefs.bind fun _ has => .pass (advances_punct _) fun _ =>
    yields_typeRef.bind fun _ ht => .pass advances_directives fun _ =>
    .pure (List.forall_mem_cons.mpr ⟨ht, List.forall_mem_map.mpr has⟩)

theorem Parser.Yields.items {α : Type} {P : α → Prop} {item : Parser α} (hitem : Yields P item) :
    Yields (fun as => ∀ a ∈ as, P a) (items item) :=
  .pass advances_nextIs fun _ => .ite (hitem.some.between _ _) (.pure nofun)

/-! ### Definitions -/

theorem yields_typeDef (description : Option String) :
    Yields (fun d => ∀ t ∈ d.body.types, t.OverWord) (typeDef description) := by
  have hfields : ∀ ds : List Field, (∀ d ∈ ds, ∀ t ∈ d.types, t.OverWord) →
      ∀ t ∈ ds.flatMap Field.types, t.OverWord := by
    intro ds h t ht
    obtain ⟨d, hd, ht⟩ := List.mem_flatMap.mp ht
    exact h d hd t ht
  exact .pass advances_here fun _ =>
    .pass advances_accept fun _ => .ite (.pass advances_name fun _ =>
      .pass advances_directives fun _ => .pure nofun) <|
    .pass advances_accept fun _ => .ite (.pass advances_name fun _ =>
      .pass advances_interfaces fun _ => .pass advances_directives fun _ =>
      yields_field.items.bind fun ds h => .pure (hfields ds h)) <|
    .pass advances_accept fun _ => .ite (.pass advances_name fun _ =>
      .pass advances_interfaces fun _ => .pass advances_directives fun _ =>
      yields_field.items.bind fun ds h => .pure (hfields ds h)) <|
    .pass advances_accept fun _ => .ite (.pass advances_name fun _ =>
      .pass advances_directives fun _ => .pass advances_members fun _ => .pure nofun) <|
    .pass advances_accept fun _ => .ite (.pass advances_name fun _ =>
      .pass advances_directives fun _ => .pass advances_enumValue.items fun _ => .pure nofun) <|
    .pass advances_accept fun _ => .ite (.pass advances_name fun _ =>
      .pass advances_directives fun _ =>
      yields_inputValue.items.bind fun _ h => .pure (List.forall_mem_map.mpr h))
    yields_unexpected

theorem yields_extensionDef : Yields (fun d => ∀ t ∈ d.body.types, t.OverWord) extensionDef :=
  .pass advances_take fun _ => (yields_typeDef none).bind fun d hd =>
    .ite (.pure hd) (yields_malformed d.position)

theorem yields_directiveDef (description : Option String) :
    Yields (fun d => ∀ v ∈ d.arguments, v.type.OverWord) (directiveDef description) :=
  .pass advances_here fun _ => .pass advances_take fun _ => .pass (advances_punct _) fun _ =>
    .pass advances_name fun _ => yields_argumentDefs.bind fun _ has => .pass advances_accept fun _ =>
    .pass advances_take fun _ => .pass advances_directiveTargets fun _ => .pure has

theorem yields_definition : Yields (fun d => ∀ t ∈ d.types, t.OverWord) definition := by
  have hschema : Yields (fun d => ∀ t ∈ d.types, t.OverWord) (Definition.schema <$> schemaDef) := by
    rw [map_eq_pure_bind]
    exact .pass advances_schemaDef fun _ => .pure nofun
  exact .pass advances_nextIs fun _ => .ite hschema <|
    .pass advances_nextIs fun _ => .ite (yields_extensionDef.map fun _ h => h) <|
    .pass advances_description fun d => .pass advances_nextIs fun _ =>
      .ite ((yields_directiveDef d).map fun _ h => List.forall_mem_map.mpr h)
        ((yields_typeDef d).map fun _ h => h)

/-! ## Documents -/

theorem forall_mem_of_wholeDocument {α : Type} {P : α → Prop} {m : Parser α} (hm : Yields P m)
    {ts : Tokens} (hts : ts.Worded) {as : List α} (h : wholeDocument m ts = .ok as) :
    ∀ a ∈ as, P a := by
  unfold wholeDocument at h
  split at h
  · cases h
  · next hsome =>
    cases h
    exact (hm.some hts hsome).1
  · cases h

/-- The types in a schema are types over words. -/
theorem overWord_of_parse {text : String} {s : Schema} (h : Schema.parse text = .ok s) :
    ∀ d ∈ s, ∀ t ∈ d.types, t.OverWord :=
  forall_mem_of_wholeDocument yields_definition (Lexer.worded_tokens text.toList) h

end SchemaBridge.Sdl
