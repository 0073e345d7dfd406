import SchemaBridge.Proofs.TokenPlaces
import SchemaBridge.Sdl.Parser
/-!
# What a parser leaves

A parser takes lexemes off the front of its tokens. What it leaves is the end of what it was given:
nothing is put back, and no lexeme is made up.

Results:
* `ok_of_bind`: one parser after another succeeds if both do.
* `Advances.bind`, `Advances.manyWithin`: how parsers that leave the end of their tokens are put together.
* `advances_directives`, `advances_schemaDef`, `advances_directiveTargets`: the parts of definitions
  without types in them.
-/
namespace SchemaBridge.Sdl

open Text (Position)

/-! ## Parsers that leave the end of their tokens -/

namespace Parser
variable {α β : Type} {m : Parser α} {k : α → Parser β} {test : Lexeme → Bool}

/-- What the parser leaves is the end of the lexemes that it was given. -/
def Advances (m : Parser α) : Prop :=
  ∀ ⦃ts : Tokens⦄ ⦃a : α⦄ ⦃ts' : Tokens⦄, m ts = .ok (a, ts') → ts'.lexemes <:+ ts.lexemes

theorem ok_of_bind {ts : Tokens} {r : β × Tokens} (h : (m >>= k) ts = .ok r) :
    ∃ a us, m ts = .ok (a, us) ∧ k a us = .ok r := by
  change (m ts).bind (fun r => k r.1 r.2) = _ at h
  cases hm : m ts with
  | error e => rw [hm] at h; cases h
  | ok r => rw [hm] at h; exact ⟨r.1, r.2, rfl, h⟩

theorem Advances.pure {a : α} : Advances (pure a) := by
  rintro ts _ _ ⟨⟩
  exact List.suffix_rfl

theorem Advances.bind (hm : Advances m) (hk : ∀ a, Advances (k a)) : Advances (m >>= k) := by
  intro ts b ts' h
  obtain ⟨a, us, ha, hb⟩ := ok_of_bind h
  exact (hk a hb).trans (hm ha)

theorem Advances.map {g : α → β} (hm : Advances m) : Advances (g <$> m) := by
  rw [map_eq_pure_bind]
  exact hm.bind fun _ => .pure

theorem Advances.ite {c : Prop} [Decidable c] {m' : Parser α} (hm : Advances m)
    (hm' : Advances m') : Advances (if c then m else m') := by
  split
  · exact hm
  · exact hm'

theorem advances_unexpected : Advances (unexpected : Parser α) := nofun

theorem advances_malformed (position : Position) : Advances (malformed position : Parser α) := nofun

theorem advances_here : Advances here := by
  rintro ts _ _ ⟨⟩
  exact List.suffix_rfl

theorem advances_remaining : Advances remaining := by
  rintro ts _ _ ⟨⟩
  exact List.suffix_rfl

theorem advances_nextIs : Advances (nextIs test) := by
  rintro ts _ _ ⟨⟩
  exact List.suffix_rfl

/-- What is taken is the next lexeme, and it satisfies the test. -/
theorem lexemes_of_take {ts us : Tokens} {l : Lexeme} (h : take test ts = .ok (l, us)) :
    ts.lexemes = l :: us.lexemes ∧ test l = true := by
  cases ts with
  | finish position | unreadable position => cases h
  | lexeme l rest =>
    rw [take] at h
    split at h
    · next ht =>
      cases h
      exact ⟨rfl, ht⟩
    · cases h

theorem advances_take : Advances (take test) := by
  intro ts l us h
  rw [(lexemes_of_take h).1]
  exact List.suffix_cons l _

theorem advances_accept : Advances (accept test) :=
  .bind advances_nextIs fun _ => .ite (.bind advances_take fun _ => .pure) .pure

/-! ### Optional and repeated parts -/

theorem Advances.optional (hm : Advances m) : Advances (optional test m) :=
  .bind advances_nextIs fun _ => .ite hm.map .pure

theorem Advances.manyWithin (hm : Advances m) (bound : Tokens) :
    Advances (manyWithin test m bound) := by
  induction bound with
  | finish position | unreadable position => exact .pure
  | lexeme l rest ih =>
    exact .bind advances_nextIs fun _ => .ite (hm.bind fun _ => ih.bind fun _ => .pure) .pure

theorem Advances.many (hm : Advances m) : Advances (many test m) :=
  .bind advances_remaining fun bound => hm.manyWithin bound

theorem Advances.some (hm : Advances m) : Advances (Parser.some test m) :=
  hm.bind fun _ => hm.many.bind fun _ => .pure

end Parser

open SchemaBridge.Sdl.Parser

/-! ## Names, brackets and strings -/

theorem advances_punct (c : String) : Advances (punct c) := advances_take.bind fun _ => .pure

theorem advances_name : Advances name := advances_take.bind fun _ => .pure

theorem Parser.Advances.between {α : Type} {m : Parser α} (opener closer : String)
    (hm : Advances m) : Advances (between opener closer m) :=
  (advances_punct opener).bind fun _ => hm.bind fun _ => (advances_punct closer).bind fun _ => .pure

theorem advances_stringLiteral : Advances stringLiteral := by
  refine advances_take.bind fun l => ?_
  match Literal.string? l with
  | .ok s => exact .pure
  | .error .malformed => exact advances_malformed l.position
  | .error .splitCharacter => exact nofun

theorem advances_description : Advances description := advances_stringLiteral.optional

/-! ## Types and values -/

theorem advances_typeRefWithin (bound : Tokens) : Advances (typeRefWithin bound) := by
  induction bound with
  | finish position | unreadable position => exact advances_unexpected
  | lexeme l rest ih =>
    have hend : ∀ t : TypeRef, Advances (do
        if ← accept (punctuator "!") then pure t.nonNull else pure t) := fun _ =>
      advances_accept.bind fun _ => .ite .pure .pure
    exact advances_nextIs.bind fun _ =>
      .ite ((ih.between _ _).map.bind hend) (advances_name.map.bind hend)

theorem advances_typeRef : Advances typeRef := advances_remaining.bind advances_typeRefWithin

theorem advances_number : Advances number := by
  refine advances_take.bind fun l => ?_
  dsimp only
  split
  · exact advances_malformed l.position
  · exact .pure

theorem advances_valueWithin (constant : Bool) (bound : Tokens) :
    Advances (valueWithin constant bound) := by
  induction bound with
  | finish position | unreadable position => exact advances_unexpected
  | lexeme l rest ih =>
    have hmember : Advances (do
        let key ← name
        punct ":"
        let v ← valueWithin constant rest
        pure (key, v)) :=
      advances_name.bind fun _ => (advances_punct _).bind fun _ => ih.bind fun _ => .pure
    exact advances_nextIs.bind fun _ => .ite advances_name.map <|
      advances_nextIs.bind fun _ => .ite advances_stringLiteral.map <|
      advances_nextIs.bind fun _ => .ite advances_number <|
      advances_nextIs.bind fun _ => .ite (ih.many.between _ _).map <|
      advances_nextIs.bind fun _ => .ite (hmember.many.between _ _).map <|
      advances_nextIs.bind fun _ =>
        .ite ((advances_punct _).bind fun _ => advances_name.map) advances_unexpected

theorem advances_value : Advances value := advances_remaining.bind (advances_valueWithin false)

theorem advances_constant : Advances constant := advances_remaining.bind (advances_valueWithin true)

theorem advances_default : Advances (optional (punctuator "=") (do punct "="; constant)) :=
  .optional ((advances_punct _).bind fun _ => advances_constant)

theorem advances_argument : Advances argument :=
  advances_name.bind fun _ => (advances_punct _).bind fun _ => advances_value.bind fun _ => .pure

theorem advances_arguments : Advances arguments :=
  advances_nextIs.bind fun _ => .ite (advances_argument.some.between _ _) .pure

theorem advances_directive : Advances directive :=
  (advances_punct _).bind fun _ => advances_name.bind fun _ => advances_arguments.bind fun _ => .pure

theorem advances_directives : Advances directives := advances_directive.many

/-! ## Parts of definitions -/

theorem advances_enumValue : Advances enumValue :=
  advances_here.bind fun _ => advances_description.bind fun _ => advances_name.bind fun _ =>
    advances_directives.bind fun _ => .pure

theorem Parser.Advances.items {α : Type} {item : Parser α} (hitem : Advances item) :
    Advances (items item) :=
  advances_nextIs.bind fun _ => .ite (hitem.some.between _ _) .pure

theorem advances_separated (separator : String) : Advances (separated separator) :=
  advances_accept.bind fun _ => advances_name.bind fun _ =>
    (Advances.many ((advances_punct _).bind fun _ => advances_name)).bind fun _ => .pure

theorem advances_interfaces : Advances interfaces :=
  advances_accept.bind fun _ => .ite (advances_separated _) .pure

theorem advances_members : Advances members :=
  advances_accept.bind fun _ => .ite (advances_separated _) .pure

/-- A root operation with its type. -/
theorem advances_operation : Advances (do
    let operation ← name
    punct ":"
    let type ← name
    pure (operation, type)) :=
  advances_name.bind fun _ => (advances_punct _).bind fun _ => advances_name.bind fun _ => .pure

theorem advances_schemaDef : Advances schemaDef :=
  advances_here.bind fun position => advances_take.bind fun _ =>
    advances_directives.bind fun _ => (advances_operation.many.between _ _).bind fun _ =>
    .ite .pure (advances_malformed position)

theorem advances_directiveLocation : Advances directiveLocation :=
  advances_take.bind fun l => .ite .pure (advances_malformed l.position)

theorem advances_directiveTargets : Advances directiveTargets := by
  have hothers : Advances (many (punctuator "|") (do punct "|"; directiveLocation)) :=
    .many ((advances_punct _).bind fun _ => advances_directiveLocation)
  exact advances_nextIs.bind fun _ => .ite (advances_accept.bind fun _ =>
    advances_directiveLocation.bind fun _ => hothers.bind fun _ => .pure) .pure

end SchemaBridge.Sdl
