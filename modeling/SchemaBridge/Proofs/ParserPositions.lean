import SchemaBridge.Sdl.Parser
/-!
# Positions play no part in parsing

A parser hands the positions of lexemes on to what it builds, and to the fault if there is one. It
decides nothing by them: if the positions of all lexemes are mapped, what comes out is the same with
its positions mapped.

Results:
* `Maps.bind`, `Maps.manyWithin`: how parsers that hand positions on are put together.
* `maps_definition`: the parser of definitions hands positions on.
* `wholeDocument_mapPosition`: and so does a parser of documents.
-/
namespace SchemaBridge.Sdl

open Text (Position)

/-! ## Positions mapped -/

section
variable (f : Position → Position)

def Lexeme.mapPosition (l : Lexeme) : Lexeme := { l with position := f l.position }

def Tokens.mapPosition : Tokens → Tokens
  | lexeme l ts => lexeme (l.mapPosition f) ts.mapPosition
  | finish p => finish (f p)
  | unreadable p => unreadable (f p)

def Fault.mapPosition : Fault → Fault
  | unexpected p found => unexpected (f p) (found.map (Lexeme.mapPosition f))
  | malformed p => malformed (f p)
  | splitCharacter => splitCharacter

def InputValue.mapPosition (v : InputValue) : InputValue := { v with position := f v.position }

def Field.mapPosition (d : Field) : Field :=
  { d with position := f d.position, arguments := d.arguments.map (InputValue.mapPosition f) }

def EnumValue.mapPosition (v : EnumValue) : EnumValue := { v with position := f v.position }

def TypeBody.mapPosition : TypeBody → TypeBody
  | scalar => scalar
  | object interfaces fields => object interfaces (fields.map (Field.mapPosition f))
  | interface interfaces fields => interface interfaces (fields.map (Field.mapPosition f))
  | union members => union members
  | enum values => enum (values.map (EnumValue.mapPosition f))
  | input fields => input (fields.map (InputValue.mapPosition f))

def TypeDef.mapPosition (d : TypeDef) : TypeDef :=
  { d with position := f d.position, body := d.body.mapPosition f }

def SchemaDef.mapPosition (d : SchemaDef) : SchemaDef := { d with position := f d.position }

def DirectiveDef.mapPosition (d : DirectiveDef) : DirectiveDef :=
  { d with position := f d.position, arguments := d.arguments.map (InputValue.mapPosition f) }

def Definition.mapPosition : Definition → Definition
  | schema d => schema (d.mapPosition f)
  | type d => type (d.mapPosition f)
  | extension d => extension (d.mapPosition f)
  | directive d => directive (d.mapPosition f)

end

section
variable {f : Position → Position}

theorem Tokens.position_mapPosition (ts : Tokens) :
    (ts.mapPosition f).position = f ts.position := by
  cases ts <;> rfl

theorem Tokens.head?_mapPosition (ts : Tokens) :
    (ts.mapPosition f).head? = ts.head?.map (Lexeme.mapPosition f) := by
  cases ts <;> rfl

theorem TypeDef.extendsSomething_mapPosition (d : TypeDef) :
    (d.mapPosition f).extendsSomething = d.extendsSomething := by
  obtain ⟨position, description, name, directives, body⟩ := d
  cases body <;> simp [extendsSomething, mapPosition, TypeBody.mapPosition]

/-! ## Parsers that hand positions on -/

namespace Parser
variable {α β γ δ : Type} {g : α → β} {h : γ → δ} {p : Parser α} {q : Parser β}
variable {test : Lexeme → Bool}

/-- With the positions of all lexemes mapped, `q` does what `p` does without: its result is mapped as
a result, and the positions in the tokens that are left and in a fault are mapped too. -/
def Maps (f : Position → Position) (g : α → β) (p : Parser α) (q : Parser β) : Prop :=
  ∀ ts : Tokens, q (ts.mapPosition f)
    = ((p ts).mapError (Fault.mapPosition f)).map fun r => (g r.1, r.2.mapPosition f)

/-- The parser does the same wherever the lexemes are. -/
abbrev Unplaced (f : Position → Position) (p : Parser α) : Prop := Maps f id p p

theorem Maps.pure {a : α} {b : β} (hab : g a = b) : Maps f g (pure a) (pure b) := by
  intro ts
  rw [← hab]
  rfl

theorem Maps.bind {k : α → Parser γ} {k' : β → Parser δ} (hp : Maps f g p q)
    (hk : ∀ a, Maps f h (k a) (k' (g a))) : Maps f h (p >>= k) (q >>= k') := by
  intro ts
  show (q (ts.mapPosition f)).bind (fun r => k' r.1 r.2) = _
  rw [hp ts]
  show _ = (((p ts).bind fun r => k r.1 r.2).mapError _).map _
  cases p ts with
  | error e => rfl
  | ok r => exact hk r.1 r.2

theorem Maps.map {k : α → γ} {k' : β → δ} (hp : Maps f g p q) (hk : ∀ a, h (k a) = k' (g a)) :
    Maps f h (k <$> p) (k' <$> q) := by
  rw [map_eq_pure_bind, map_eq_pure_bind]
  exact hp.bind fun a => .pure (hk a)

theorem Maps.ite {c : Prop} [Decidable c] {p' : Parser α} {q' : Parser β} (hp : Maps f g p q)
    (hp' : Maps f g p' q') : Maps f g (if c then p else p') (if c then q else q') := by
  split
  · exact hp
  · exact hp'

theorem maps_unexpected : Maps f g unexpected unexpected := by
  intro ts
  show Except.error (Fault.unexpected (ts.mapPosition f).position (ts.mapPosition f).head?) = _
  rw [Tokens.position_mapPosition, Tokens.head?_mapPosition]
  rfl

theorem maps_malformed (position : Position) :
    Maps f g (malformed position) (malformed (f position)) := fun _ => rfl

theorem maps_here : Maps f f here here := by
  intro ts
  show Except.ok ((ts.mapPosition f).position, ts.mapPosition f) = _
  rw [Tokens.position_mapPosition]
  rfl

theorem maps_remaining : Maps f (Tokens.mapPosition f) remaining remaining := fun _ => rfl

/-! ### Lexemes by their kind and text -/

/-- A test that a position plays no part in. -/
def IgnoresPosition (f : Position → Position) (test : Lexeme → Bool) : Prop :=
  ∀ l : Lexeme, test (l.mapPosition f) = test l

theorem maps_nextIs (ht : IgnoresPosition f test) : Unplaced f (nextIs test) := by
  intro ts
  have hnext : (ts.mapPosition f).head?.map test = ts.head?.map test := by
    rw [Tokens.head?_mapPosition, Option.map_map]
    exact congrArg (Option.map · ts.head?) (funext ht)
  show Except.ok (((ts.mapPosition f).head?.map test).getD false, ts.mapPosition f) = _
  rw [hnext]
  rfl

theorem maps_take (ht : IgnoresPosition f test) :
    Maps f (Lexeme.mapPosition f) (take test) (take test) := by
  intro ts
  cases ts with
  | finish position | unreadable position => rfl
  | lexeme l rest =>
    rw [Tokens.mapPosition, take, ht l, take]
    cases test l <;> rfl

theorem maps_accept (ht : IgnoresPosition f test) : Unplaced f (accept test) :=
  .bind (maps_nextIs ht) fun _ => .ite (.bind (maps_take ht) fun _ => .pure rfl) (.pure rfl)

/-! ### Optional and repeated parts -/

theorem Maps.optional (ht : IgnoresPosition f test) (hp : Maps f g p q) :
    Maps f (Option.map g) (optional test p) (optional test q) :=
  .bind (maps_nextIs ht) fun _ => .ite (hp.map fun _ => rfl) (.pure rfl)

theorem Maps.manyWithin (ht : IgnoresPosition f test) (hp : Maps f g p q) (bound : Tokens) :
    Maps f (List.map g) (manyWithin test p bound) (manyWithin test q (bound.mapPosition f)) := by
  induction bound with
  | finish position | unreadable position => exact .pure rfl
  | lexeme l rest ih =>
    exact .bind (maps_nextIs ht) fun _ =>
      .ite (.bind hp fun _ => .bind ih fun _ => .pure rfl) (.pure rfl)

theorem Maps.many (ht : IgnoresPosition f test) (hp : Maps f g p q) :
    Maps f (List.map g) (many test p) (many test q) :=
  .bind maps_remaining fun bound => hp.manyWithin ht bound

theorem Maps.some (ht : IgnoresPosition f test) (hp : Maps f g p q) :
    Maps f (List.map g) (Parser.some test p) (Parser.some test q) :=
  .bind hp fun _ => .bind (hp.many ht) fun _ => .pure rfl

end Parser

open SchemaBridge.Sdl.Parser

/-! ### Names, brackets and strings -/

theorem ignores_punctuator (c : String) : IgnoresPosition f (punctuator c) := fun _ => rfl

theorem ignores_word (w : String) : IgnoresPosition f (word w) := fun _ => rfl

theorem ignores_isName : IgnoresPosition f Lexeme.isName := fun _ => rfl

theorem ignores_isString : IgnoresPosition f Lexeme.isString := fun _ => rfl

theorem ignores_startsItem : IgnoresPosition f startsItem := fun _ => rfl

theorem ignores_startsValue (constant : Bool) : IgnoresPosition f (startsValue constant) :=
  fun _ => rfl

theorem maps_punct (c : String) : Unplaced f (punct c) :=
  .bind (maps_take (ignores_punctuator c)) fun _ => .pure rfl

/-- A list of parts without positions is without positions. -/
theorem Parser.Maps.unplaced_list {α : Type} {p q : Parser (List α)}
    (hp : Maps f (List.map id) p q) : Maps f id p q := by
  rwa [List.map_id_fun] at hp

theorem maps_name : Unplaced f name := .bind (maps_take ignores_isName) fun _ => .pure rfl

theorem Parser.Maps.between {α β : Type} {g : α → β} {p : Parser α} {q : Parser β}
    (opener closer : String) (hp : Maps f g p q) : Maps f g (between opener closer p) (between opener closer q) :=
  .bind (maps_punct opener) fun _ => .bind hp fun _ => .bind (maps_punct closer) fun _ => .pure rfl

theorem maps_stringLiteral : Unplaced f stringLiteral := by
  refine .bind (maps_take ignores_isString) fun l => ?_
  have hvalue : Literal.string? (l.mapPosition f) = Literal.string? l := rfl
  rw [hvalue]
  match Literal.string? l with
  | .ok s => exact .pure rfl
  | .error .malformed => exact maps_malformed l.position
  | .error .splitCharacter => exact fun _ => rfl

theorem maps_description : Unplaced f description := by
  have := maps_stringLiteral.optional (f := f) ignores_isString
  rwa [Option.map_id] at this

/-! ### Types and values -/

theorem maps_typeRefWithin (bound : Tokens) :
    Maps f id (typeRefWithin bound) (typeRefWithin (bound.mapPosition f)) := by
  induction bound with
  | finish position | unreadable position => exact maps_unexpected
  | lexeme l rest ih =>
    have hend : ∀ t : TypeRef, Unplaced f (do
        if ← accept (punctuator "!") then pure t.nonNull else pure t) := fun _ =>
      .bind (maps_accept (ignores_punctuator _)) fun _ => .ite (.pure rfl) (.pure rfl)
    exact .bind (maps_nextIs (ignores_punctuator _)) fun _ =>
      .ite (.bind ((ih.between _ _).map fun _ => rfl) hend) (.bind (maps_name.map fun _ => rfl) hend)

theorem maps_typeRef : Unplaced f typeRef :=
  .bind maps_remaining fun bound => maps_typeRefWithin bound

theorem maps_number : Unplaced f number := by
  refine .bind (maps_take fun _ => rfl) fun l => ?_
  have hkind : (l.mapPosition f).kind = l.kind := rfl
  have htext : (l.mapPosition f).text = l.text := rfl
  simp only [hkind, htext]
  split
  · exact maps_malformed l.position
  · exact .pure rfl

theorem maps_valueWithin (constant : Bool) (bound : Tokens) :
    Maps f id (valueWithin constant bound) (valueWithin constant (bound.mapPosition f)) := by
  induction bound with
  | finish position | unreadable position => exact maps_unexpected
  | lexeme l rest ih =>
    have helements := (ih.many (ignores_startsValue constant)).unplaced_list.between "[" "]"
    have hmember : Maps f id (do
        let key ← name
        punct ":"
        let v ← valueWithin constant rest
        pure (key, v)) (do
        let key ← name
        punct ":"
        let v ← valueWithin constant (rest.mapPosition f)
        pure (key, v)) :=
      .bind maps_name fun _ => .bind (maps_punct _) fun _ => .bind ih fun _ => .pure rfl
    have hmembers := (hmember.many ignores_isName).unplaced_list.between openBrace closeBrace
    exact .bind (maps_nextIs ignores_isName) fun _ => .ite (maps_name.map fun _ => rfl) <|
      .bind (maps_nextIs ignores_isString) fun _ => .ite (maps_stringLiteral.map fun _ => rfl) <|
      .bind (maps_nextIs fun _ => rfl) fun _ => .ite maps_number <|
      .bind (maps_nextIs (ignores_punctuator _)) fun _ => .ite (helements.map fun _ => rfl) <|
      .bind (maps_nextIs (ignores_punctuator _)) fun _ => .ite (hmembers.map fun _ => rfl) <|
      .bind (maps_nextIs fun _ => rfl) fun _ =>
        .ite (.bind (maps_punct _) fun _ => maps_name.map fun _ => rfl) maps_unexpected

theorem maps_value : Unplaced f value :=
  .bind maps_remaining fun bound => maps_valueWithin false bound

theorem maps_constant : Unplaced f constant :=
  .bind maps_remaining fun bound => maps_valueWithin true bound

theorem maps_argument : Unplaced f argument :=
  .bind maps_name fun _ => .bind (maps_punct _) fun _ => .bind maps_value fun _ => .pure rfl

theorem maps_arguments : Unplaced f arguments :=
  .bind (maps_nextIs (ignores_punctuator _)) fun _ =>
    .ite (.unplaced_list (.between _ _ (maps_argument.some ignores_isName))) (.pure rfl)

theorem maps_directive : Unplaced f directive :=
  .bind (maps_punct _) fun _ => .bind maps_name fun _ => .bind maps_arguments fun _ => .pure rfl

theorem maps_directives : Unplaced f directives :=
  .unplaced_list (maps_directive.many (ignores_punctuator _))

/-! ### Fields -/

theorem maps_inputValue : Maps f (InputValue.mapPosition f) inputValue inputValue := by
  have hvalue : Unplaced f (do punct "="; constant) := .bind (maps_punct _) fun _ => maps_constant
  have hdefault := hvalue.optional (ignores_punctuator "=")
  rw [Option.map_id] at hdefault
  exact .bind maps_here fun _ => .bind maps_description fun _ => .bind maps_name fun _ =>
    .bind (maps_punct _) fun _ => .bind maps_typeRef fun _ => .bind hdefault fun _ =>
    .bind maps_directives fun _ => .pure rfl

theorem maps_argumentDefs :
    Maps f (List.map (InputValue.mapPosition f)) argumentDefs argumentDefs :=
  .bind (maps_nextIs (ignores_punctuator _)) fun _ =>
    .ite (.between _ _ (maps_inputValue.some ignores_startsItem)) (.pure rfl)

theorem maps_field : Maps f (Field.mapPosition f) field field :=
  .bind maps_here fun _ => .bind maps_description fun _ => .bind maps_name fun _ =>
    .bind maps_argumentDefs fun _ => .bind (maps_punct _) fun _ => .bind maps_typeRef fun _ =>
    .bind maps_directives fun _ => .pure rfl

theorem maps_enumValue : Maps f (EnumValue.mapPosition f) enumValue enumValue :=
  .bind maps_here fun _ => .bind maps_description fun _ => .bind maps_name fun _ =>
    .bind maps_directives fun _ => .pure rfl

theorem Parser.Maps.items {α : Type} {g : α → α} {item : Parser α} (hitem : Maps f g item item) :
    Maps f (List.map g) (items item) (items item) :=
  .bind (maps_nextIs (ignores_punctuator _)) fun _ =>
    .ite (.between _ _ (hitem.some ignores_startsItem)) (.pure rfl)

theorem maps_separated (separator : String) : Unplaced f (separated separator) :=
  .bind (maps_accept (ignores_punctuator _)) fun _ => .bind maps_name fun _ =>
    .bind (.unplaced_list (.many (ignores_punctuator _) (.bind (maps_punct _) fun _ => maps_name)))
    fun _ => .pure rfl

theorem maps_interfaces : Unplaced f interfaces :=
  .bind (maps_accept (ignores_word _)) fun _ => .ite (maps_separated _) (.pure rfl)

theorem maps_members : Unplaced f members :=
  .bind (maps_accept (ignores_punctuator _)) fun _ => .ite (maps_separated _) (.pure rfl)

/-! ### Definitions -/

theorem maps_typeDef (description : Option String) :
    Maps f (TypeDef.mapPosition f) (typeDef description) (typeDef description) :=
  .bind maps_here fun _ =>
  .bind (maps_accept (ignores_word _)) fun _ => .ite
    (.bind maps_name fun _ => .bind maps_directives fun _ => .pure rfl) <|
  .bind (maps_accept (ignores_word _)) fun _ => .ite
    (.bind maps_name fun _ => .bind maps_interfaces fun _ => .bind maps_directives fun _ =>
      .bind maps_field.items fun _ => .pure rfl) <|
  .bind (maps_accept (ignores_word _)) fun _ => .ite
    (.bind maps_name fun _ => .bind maps_interfaces fun _ => .bind maps_directives fun _ =>
      .bind maps_field.items fun _ => .pure rfl) <|
  .bind (maps_accept (ignores_word _)) fun _ => .ite
    (.bind maps_name fun _ => .bind maps_directives fun _ => .bind maps_members fun _ => .pure rfl) <|
  .bind (maps_accept (ignores_word _)) fun _ => .ite
    (.bind maps_name fun _ => .bind maps_directives fun _ => .bind maps_enumValue.items fun _ =>
      .pure rfl) <|
  .bind (maps_accept (ignores_word _)) fun _ => .ite
    (.bind maps_name fun _ => .bind maps_directives fun _ => .bind maps_inputValue.items fun _ =>
      .pure rfl)
    maps_unexpected

theorem maps_extensionDef : Maps f (TypeDef.mapPosition f) extensionDef extensionDef := by
  refine .bind (maps_take (ignores_word _)) fun _ => .bind (maps_typeDef none) fun d => ?_
  rw [TypeDef.extendsSomething_mapPosition]
  exact .ite (.pure rfl) (maps_malformed d.position)

theorem maps_schemaDef : Maps f (SchemaDef.mapPosition f) schemaDef schemaDef := by
  have hoperations : Unplaced f (many Lexeme.isName do
      let operation ← name
      punct ":"
      let type ← name
      pure (operation, type)) :=
    .unplaced_list (.many ignores_isName (.bind maps_name fun _ => .bind (maps_punct _) fun _ =>
      .bind maps_name fun _ => .pure rfl))
  exact .bind maps_here fun position => .bind (maps_take (ignores_word _)) fun _ =>
    .bind maps_directives fun _ => .bind (hoperations.between _ _) fun _ =>
    .ite (.pure rfl) (maps_malformed position)

theorem maps_directiveLocation : Unplaced f directiveLocation :=
  .bind (maps_take ignores_isName) fun l => .ite (.pure rfl) (maps_malformed l.position)

theorem maps_directiveTargets : Unplaced f directiveTargets := by
  have hothers : Unplaced f (many (punctuator "|") (do punct "|"; directiveLocation)) :=
    .unplaced_list <| .many (ignores_punctuator _) <|
      .bind (maps_punct _) fun _ => maps_directiveLocation
  exact .bind (maps_nextIs fun _ => rfl) fun _ =>
    .ite (.bind (maps_accept (ignores_punctuator _)) fun _ => .bind maps_directiveLocation fun _ =>
      .bind hothers fun _ => .pure rfl) (.pure rfl)

theorem maps_directiveDef (description : Option String) :
    Maps f (DirectiveDef.mapPosition f) (directiveDef description) (directiveDef description) :=
  .bind maps_here fun _ => .bind (maps_take (ignores_word _)) fun _ => .bind (maps_punct _) fun _ =>
    .bind maps_name fun _ => .bind maps_argumentDefs fun _ =>
    .bind (maps_accept (ignores_word _)) fun _ => .bind (maps_take (ignores_word _)) fun _ =>
    .bind maps_directiveTargets fun _ => .pure rfl

theorem maps_definition : Maps f (Definition.mapPosition f) definition definition :=
  .bind (maps_nextIs (ignores_word _)) fun _ => .ite (maps_schemaDef.map fun _ => rfl) <|
  .bind (maps_nextIs (ignores_word _)) fun _ => .ite (maps_extensionDef.map fun _ => rfl) <|
  .bind maps_description fun d => .bind (maps_nextIs (ignores_word _)) fun _ =>
    .ite ((maps_directiveDef d).map fun _ => rfl) ((maps_typeDef d).map fun _ => rfl)

/-! ## Documents -/

/-- A document is the same wherever it stands, if every part of it is. -/
theorem wholeDocument_mapPosition {α : Type} {g : α → α} {p : Parser α} (hp : Maps f g p p)
    (ts : Tokens) : wholeDocument p (ts.mapPosition f)
      = ((wholeDocument p ts).mapError (Fault.mapPosition f)).map (List.map g) := by
  have hany : IgnoresPosition f fun _ => true := fun _ => rfl
  have hall := hp.some hany ts
  unfold wholeDocument
  rw [hall]
  match Parser.some (fun _ => true) p ts with
  | .error e => rfl
  | .ok (as, .finish _) => rfl
  | .ok (as, .unreadable _) => rfl
  | .ok (as, .lexeme l rest) => rfl

end

end SchemaBridge.Sdl
