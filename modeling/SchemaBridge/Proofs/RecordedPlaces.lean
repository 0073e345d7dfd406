import SchemaBridge.Proofs.PassedLexemes
/-!
# Positions recorded by the parser

Definitions, fields, arguments and the values of enums carry the position of the lexeme that they
start with. A parser passes over lexemes and records the positions of some of these, in their order and
each at most once: to remember where it stands, it has to pass over the lexeme there before it
remembers another place.

Results:
* `RecordsAfter.bind`, `RecordsAfter.here`: how parsers that record positions are put together.
* `records_definition`: the parser of definitions records positions.
* `places_of_parse`: the positions in a schema are positions of lexemes, in their order.
-/
namespace SchemaBridge.Sdl

open Text (Position)

/-! ## The places in a schema -/

def Field.places (d : Field) : List Position := d.position :: d.arguments.map InputValue.position

def TypeBody.places : TypeBody → List Position
  | scalar | union _ => []
  | object _ fields | interface _ fields => fields.flatMap Field.places
  | enum values => values.map EnumValue.position
  | input fields => fields.map InputValue.position

def TypeDef.places (d : TypeDef) : List Position := d.position :: d.body.places

def DirectiveDef.places (d : DirectiveDef) : List Position :=
  d.position :: d.arguments.map InputValue.position

def Definition.places : Definition → List Position
  | schema d => [d.position]
  | type d | extension d => d.places
  | directive d => d.places

/-- The positions of the definitions of a schema and of what they are made of, in order. -/
def Schema.places (s : Schema) : List Position := s.flatMap Definition.places

/-! ## Parsers that record positions -/

namespace Parser
variable {α β : Type} {qs : List Position} {p : Position} {ps : α → List Position}
  {rs : β → List Position} {m : Parser α} {k : α → Parser β} {test : Lexeme → Bool}

/-- What the parser adds to the positions `qs` that were recorded before it are positions of lexemes
that it passes, in their order. -/
def RecordsAfter (qs : List Position) (ps : α → List Position) (m : Parser α) : Prop :=
  ∀ ⦃ts : Tokens⦄ ⦃a : α⦄ ⦃ts' : Tokens⦄, m ts = .ok (a, ts') →
    ∃ passed added, ts.places = passed ++ ts'.places ∧ ps a = qs ++ added ∧ added.Sublist passed

abbrev Records (ps : α → List Position) (m : Parser α) : Prop := RecordsAfter [] ps m

/-- The parser passes lexemes only. -/
abbrev Passes (m : Parser α) : Prop := Records (fun _ => []) m

/-- The parser passes one lexeme at least. -/
def Takes (m : Parser α) : Prop :=
  ∀ ⦃ts : Tokens⦄ ⦃a : α⦄ ⦃ts' : Tokens⦄, m ts = .ok (a, ts') →
    ∃ q passed, ts.places = q :: (passed ++ ts'.places)

/-- The parser starts at the place `p`, which was recorded already, and passes the lexeme there before
it records any other. -/
def RecordsFrom (p : Position) (ps : α → List Position) (m : Parser α) : Prop :=
  ∀ ⦃ts : Tokens⦄ ⦃a : α⦄ ⦃ts' : Tokens⦄, m ts = .ok (a, ts') →
    ∃ q passed added, ts.places = q :: (passed ++ ts'.places) ∧ ps a = p :: added ∧
      added.Sublist passed

theorem RecordsAfter.pure {a : α} (h : ps a = qs) : RecordsAfter qs ps (pure a) := by
  rintro ts _ _ ⟨⟩
  exact ⟨[], [], rfl, h.trans (List.append_nil qs).symm, .slnil⟩

theorem RecordsAfter.bind (hm : Records ps m) (hk : ∀ a, RecordsAfter (qs ++ ps a) rs (k a)) :
    RecordsAfter qs rs (m >>= k) := by
  intro ts b ts' h
  obtain ⟨a, us, ha, hb⟩ := ok_of_bind h
  obtain ⟨passed, added, hts, hps, hadded⟩ := hm ha
  obtain ⟨passed', added', hus, hrs, hadded'⟩ := hk a hb
  refine ⟨passed ++ passed', added ++ added', ?_, ?_, hadded.append hadded'⟩
  · rw [hts, hus, List.append_assoc]
  · rw [hrs, hps, List.nil_append, List.append_assoc]

theorem Advances.passes (hm : Advances m) : Passes m := by
  intro ts a ts' h
  obtain ⟨passed, hpassed⟩ := hm h
  refine ⟨passed.map Lexeme.position, [], ?_, rfl, List.nil_sublist _⟩
  rw [Tokens.places_eq_map, ← hpassed, List.map_append, Tokens.places_eq_map]

theorem RecordsAfter.pass (hm : Advances m) (hk : ∀ a, RecordsAfter qs rs (k a)) :
    RecordsAfter qs rs (m >>= k) :=
  .bind hm.passes fun a => (List.append_nil qs).symm ▸ hk a

theorem RecordsAfter.map {g : α → β} (hm : Records ps m) (h : ∀ a, rs (g a) = ps a) :
    Records rs (g <$> m) := by
  rw [map_eq_pure_bind]
  exact .bind hm fun a => .pure (h a)

theorem RecordsAfter.ite {c : Prop} [Decidable c] {m' : Parser α} (hm : RecordsAfter qs ps m)
    (hm' : RecordsAfter qs ps m') : RecordsAfter qs ps (if c then m else m') := by
  split
  · exact hm
  · exact hm'

theorem recordsAfter_malformed (position : Position) : RecordsAfter qs ps (malformed position) := nofun

/-! ### Lexemes taken -/

/-- What is taken is the next lexeme. -/
theorem places_of_take {ts us : Tokens} {l : Lexeme} (h : take test ts = .ok (l, us)) :
    ts.places = l.position :: us.places := by
  rw [Tokens.places_eq_map, (lexemes_of_take h).1, Tokens.places_eq_map]
  rfl

theorem takes_take : Takes (take test) :=
  fun _ l _ h => ⟨l.position, [], places_of_take h⟩

theorem Takes.bind (hm : Takes m) (hk : ∀ a, Advances (k a)) : Takes (m >>= k) := by
  intro ts b ts' h
  obtain ⟨a, us, ha, hb⟩ := ok_of_bind h
  obtain ⟨q, passed, hts⟩ := hm ha
  obtain ⟨passed', -, hus, -, -⟩ := (hk a).passes hb
  exact ⟨q, passed ++ passed', by rw [hts, hus, List.append_assoc]⟩

/-! ### Places remembered -/

theorem RecordsFrom.first (hm : Takes m) (hk : ∀ a, RecordsAfter [p] rs (k a)) :
    RecordsFrom p rs (m >>= k) := by
  intro ts b ts' h
  obtain ⟨a, us, ha, hb⟩ := ok_of_bind h
  obtain ⟨q, passed, hts⟩ := hm ha
  obtain ⟨passed', added, hus, hrs, hadded⟩ := hk a hb
  refine ⟨q, passed ++ passed', added, ?_, hrs, hadded.trans (List.sublist_append_right _ _)⟩
  rw [hts, hus, List.append_assoc]

/-- A part that may be missing comes first. -/
theorem RecordsFrom.pass (hm : Advances m) (hk : ∀ a, RecordsFrom p rs (k a)) :
    RecordsFrom p rs (m >>= k) := by
  intro ts b ts' h
  obtain ⟨a, us, ha, hb⟩ := ok_of_bind h
  obtain ⟨passed, -, hts, -, -⟩ := hm.passes ha
  obtain ⟨q, passed', added, hus, hrs, hadded⟩ := hk a hb
  -- Without the part, the lexeme at `p` is the first of the rest; with it, the first of the part.
  cases passed with
  | nil => exact ⟨q, passed', added, hts.trans hus, hrs, hadded⟩
  | cons q' passed =>
    refine ⟨q', passed ++ q :: passed', added, ?_, hrs, ?_⟩
    · rw [hts, hus, List.append_assoc]
      rfl
    · exact (hadded.trans (List.sublist_cons_self _ _)).trans (List.sublist_append_right _ _)

/-- The next lexeme is taken, or nothing is. -/
theorem places_of_accept {ts us : Tokens} {b : Bool} (h : accept test ts = .ok (b, us)) :
    (b = true ∧ ∃ q, ts.places = q :: us.places) ∨ b = false ∧ us = ts := by
  obtain ⟨fits, vs, hnext, hb⟩ := ok_of_bind h
  cases hnext
  cases hfits : (ts.head?.map test).getD false with
  | true =>
    rw [hfits] at hb
    obtain ⟨l, ws, htake, hpure⟩ := ok_of_bind hb
    cases hpure
    exact .inl ⟨rfl, l.position, places_of_take htake⟩
  | false =>
    rw [hfits] at hb
    cases hb
    exact .inr ⟨rfl, rfl⟩

/-- Either the next lexeme decides and is taken, or it is left to what comes then. -/
theorem RecordsFrom.accept {m m' : Parser β} (hm : RecordsAfter [p] rs m)
    (hm' : RecordsFrom p rs m') :
    RecordsFrom p rs (accept test >>= fun b => if b = true then m else m') := by
  intro ts b ts' h
  obtain ⟨accepted, us, ha, hb⟩ := ok_of_bind h
  rcases places_of_accept ha with ⟨rfl, q, hts⟩ | ⟨rfl, rfl⟩
  · obtain ⟨passed, added, hus, hrs, hadded⟩ := hm hb
    exact ⟨q, passed, added, by rw [hts, hus], hrs, hadded⟩
  · exact hm' hb

theorem RecordsFrom.unexpected : RecordsFrom p ps unexpected := nofun

/-- The place of the next lexeme is recorded, and is that of a lexeme that is passed. -/
theorem RecordsAfter.here {k : Position → Parser β} (hk : ∀ p, RecordsFrom p rs (k p)) :
    Records rs (here >>= k) := by
  intro ts b ts' h
  obtain ⟨p, us, hp, hb⟩ := ok_of_bind h
  cases hp
  obtain ⟨q, passed, added, hts, hrs, hadded⟩ := hk _ hb
  cases ts with
  | finish position | unreadable position => cases hts
  | lexeme l rest =>
    obtain ⟨rfl, -⟩ := List.cons.inj hts
    exact ⟨l.position :: passed, l.position :: added, hts, hrs, hadded.cons_cons _⟩

/-! ### Repeated parts -/

theorem RecordsAfter.manyWithin (hm : Records ps m) (bound : Tokens) :
    Records (List.flatMap ps) (manyWithin test m bound) := by
  induction bound with
  | finish position | unreadable position => exact .pure rfl
  | lexeme l rest ih =>
    exact .pass advances_nextIs fun _ =>
      .ite (.bind hm fun _ => .bind ih fun _ => .pure rfl) (.pure rfl)

theorem RecordsAfter.many (hm : Records ps m) : Records (List.flatMap ps) (many test m) :=
  .pass advances_remaining fun bound => hm.manyWithin bound

theorem RecordsAfter.some (hm : Records ps m) : Records (List.flatMap ps) (Parser.some test m) :=
  .bind hm fun _ => .bind hm.many fun _ => .pure rfl

end Parser

open SchemaBridge.Sdl.Parser

theorem takes_name : Takes name := takes_take.bind fun _ => .pure

theorem Parser.RecordsAfter.between {α : Type} {ps : α → List Position} {m : Parser α}
    (opener closer : String) (hm : Records ps m) : Records ps (between opener closer m) :=
  .pass (advances_punct opener) fun _ => .bind hm fun _ =>
    .pass (advances_punct closer) fun _ => .pure rfl

/-! ### Fields -/

theorem records_inputValue : Records (fun v : InputValue => [v.position]) inputValue :=
  .here fun _ => .pass advances_description fun _ => .first takes_name fun _ =>
    .pass (advances_punct _) fun _ => .pass advances_typeRef fun _ => .pass advances_default fun _ =>
    .pass advances_directives fun _ => .pure rfl

/-- Items with one place each, in a list. -/
theorem Parser.RecordsAfter.mapped {α : Type} {position : α → Position} {m : Parser (List α)}
    (hm : Records (List.flatMap fun a => [position a]) m) : Records (List.map position) m := by
  have hmap : List.map position = List.flatMap fun a => [position a] :=
    funext fun as => List.map_eq_flatMap
  rwa [hmap]

theorem records_argumentDefs : Records (List.map InputValue.position) argumentDefs :=
  .pass advances_nextIs fun _ => .ite (records_inputValue.some.mapped.between _ _) (.pure rfl)

theorem records_field : Records Field.places field :=
  .here fun _ => .pass advances_description fun _ => .first takes_name fun _ =>
    .bind records_argumentDefs fun _ => .pass (advances_punct _) fun _ =>
    .pass advances_typeRef fun _ => .pass advances_directives fun _ => .pure rfl

theorem records_enumValue : Records (fun v : EnumValue => [v.position]) enumValue :=
  .here fun _ => .pass advances_description fun _ => .first takes_name fun _ =>
    .pass advances_directives fun _ => .pure rfl

theorem Parser.RecordsAfter.items {α : Type} {ps : α → List Position} {item : Parser α}
    (hitem : Records ps item) : Records (List.flatMap ps) (items item) :=
  .pass advances_nextIs fun _ => .ite (hitem.some.between _ _) (.pure rfl)

/-! ### Definitions -/

theorem records_typeDef (description : Option String) :
    Records TypeDef.places (typeDef description) :=
  .here fun _ =>
  .accept (.pass advances_name fun _ => .pass advances_directives fun _ => .pure rfl) <|
  .accept (.pass advances_name fun _ => .pass advances_interfaces fun _ =>
    .pass advances_directives fun _ => .bind records_field.items fun _ => .pure rfl) <|
  .accept (.pass advances_name fun _ => .pass advances_interfaces fun _ =>
    .pass advances_directives fun _ => .bind records_field.items fun _ => .pure rfl) <|
  .accept (.pass advances_name fun _ => .pass advances_directives fun _ =>
    .pass advances_members fun _ => .pure rfl) <|
  .accept (.pass advances_name fun _ => .pass advances_directives fun _ =>
    .bind records_enumValue.items.mapped fun _ => .pure rfl) <|
  .accept (.pass advances_name fun _ => .pass advances_directives fun _ =>
    .bind records_inputValue.items.mapped fun _ => .pure rfl)
  .unexpected

theorem records_extensionDef : Records TypeDef.places extensionDef :=
  .pass advances_take fun _ => .bind (records_typeDef none) fun d =>
    .ite (.pure rfl) (recordsAfter_malformed d.position)

theorem records_schemaDef : Records (fun d : SchemaDef => [d.position]) schemaDef :=
  .here fun position => .first takes_take fun _ => .pass advances_directives fun _ =>
    .pass (advances_operation.many.between _ _) fun _ =>
    .ite (.pure rfl) (recordsAfter_malformed position)

theorem records_directiveDef (description : Option String) :
    Records DirectiveDef.places (directiveDef description) :=
  .here fun _ => .first takes_take fun _ => .pass (advances_punct _) fun _ =>
    .pass advances_name fun _ => .bind records_argumentDefs fun _ =>
    .pass advances_accept fun _ => .pass advances_take fun _ =>
    .pass advances_directiveTargets fun _ => .pure rfl

theorem records_definition : Records Definition.places definition :=
  .pass advances_nextIs fun _ => .ite (records_schemaDef.map fun _ => rfl) <|
  .pass advances_nextIs fun _ => .ite (records_extensionDef.map fun _ => rfl) <|
  .pass advances_description fun d => .pass advances_nextIs fun _ =>
    .ite ((records_directiveDef d).map fun _ => rfl) ((records_typeDef d).map fun _ => rfl)

/-! ## Documents -/

theorem sublist_of_wholeDocument {α : Type} {ps : α → List Position} {m : Parser α}
    (hm : Records ps m) {ts : Tokens} {as : List α} (h : wholeDocument m ts = .ok as) :
    (as.flatMap ps).Sublist ts.places := by
  unfold wholeDocument at h
  split at h
  · cases h
  · next as' position hsome =>
    cases h
    obtain ⟨passed, added, hts, has, hadded⟩ := hm.some hsome
    rw [hts, has]
    exact hadded.trans (List.sublist_append_left _ _)
  · cases h

/-- The positions in a schema are positions of lexemes of its text, in their order. -/
theorem places_of_parse {text : String} {s : Schema} (h : Schema.parse text = .ok s) :
    s.places.Sublist (Lexer.tokens text.toList).places :=
  sublist_of_wholeDocument records_definition h

end SchemaBridge.Sdl
