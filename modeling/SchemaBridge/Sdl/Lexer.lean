import SchemaBridge.Sdl.Token
/-!
# From source text to tokens

Between lexemes stand blanks, commas and comments. A tab takes eight columns; a carriage return and
a byte order mark take none. A comment runs up to and including the next carriage return or newline,
which begins a line; a comment that the end of the text closes leaves the position at its `#`.

At most fifty brackets may be open at once: each opener takes a credit and each closer gives it back.

Results:
* `length_skip`: skipping never lengthens the text.
* `measure?_pos`: every lexeme has a character.
-/
namespace SchemaBridge.Sdl.Lexer

open Text (Position)

/-! ## What stands between lexemes -/

mutual

/-- The first place at or after a position that is not passed over. -/
def skip (p : Position) : List Char → Position × List Char
  | [] => (p, [])
  | c :: cs =>
    if c = '#' then skipComment p cs
    else if c = '\n' then skip p.nextLine cs
    else if c = '\t' then skip (p.right 8) cs
    else if c = ' ' ∨ c = ',' then skip (p.right 1) cs
    else if c = '\r' ∨ c = '\uFEFF' then skip p cs
    else (p, c :: cs)
termination_by structural cs => cs

/-- As `skip`, inside a comment that starts at a position. -/
def skipComment (p : Position) : List Char → Position × List Char
  | [] => (p, [])
  | c :: cs => if c = '\n' ∨ c = '\r' then skip p.nextLine cs else skipComment p cs
termination_by structural cs => cs

end

/-! ## Names and numbers -/

def isNameStart (c : Char) : Bool := c.isAlpha || c = '_'

def isNameChar (c : Char) : Bool := c.isAlphanum || c = '_'

/-- The characters that end a number; all others belong to it, well-formed or not. -/
def endsNumber (c : Char) : Bool :=
  c ∈ [' ', '\n', '\r', '\t', ',', '#', '!', '$', ':', '=', '@', '|', '&', '(', ')', '[', ']',
    '{', '}']

def word (cs : List Char) : List Char := cs.takeWhile isNameChar

def allDigits (t : List Char) : Bool := t.all Char.isDigit

/-- Zero, or digits that do not start with zero, after an optional minus. -/
def isInteger (t : List Char) : Bool :=
  let ds := match t with
    | '-' :: cs => cs
    | cs => cs
  match ds with
  | [] => false
  | ['0'] => true
  | c :: cs => c.isDigit && c ≠ '0' && allDigits cs

/-- The digits behind a point. -/
def isFraction (t : List Char) : Bool := !t.isEmpty && allDigits t

/-- What stands behind the mark of an exponent. Its first character is a sign or a digit from one
to eight, and a sign alone is enough. -/
def isExponent : List Char → Bool
  | [] => false
  | c :: cs => (c = '+' || c = '-' || ('1' ≤ c && c ≤ '8')) && allDigits cs

/-- The text before and after the last place where a character satisfies a test. -/
def splitLast? (test : Char → Bool) : List Char → Option (List Char × List Char)
  | [] => none
  | c :: cs =>
    match splitLast? test cs with
    | some (before, after) => some (c :: before, after)
    | none => if test c then some ([], cs) else none

def isExponentMark (c : Char) : Bool := c = 'e' || c = 'E'

/-- The kind of a number, if it is one. A mark counts only behind the first character. -/
def numberKind? : List Char → Option TokenKind
  | [] => none
  | first :: t =>
    match splitLast? isExponentMark t, splitLast? (· = '.') t with
    | none, none => if isInteger (first :: t) then some .int else none
    | none, some (whole, fraction) =>
      if isInteger (first :: whole) && isFraction fraction then some .float else none
    | some (whole, exponent), none =>
      if isInteger (first :: whole) && isExponent exponent then some .float else none
    | some (mantissa, exponent), some (whole, _) =>
      if mantissa.length < whole.length then none
      else
        let fraction := mantissa.drop (whole.length + 1)
        if isInteger (first :: whole) && isFraction fraction && isExponent exponent then some .float
        else none

/-! ## Strings -/

/-- The length of a string up to and including its closing quotation mark, which no odd run of
backslashes precedes; the string ends on its line. -/
def stringLength? (escaped : Bool) : List Char → Option Nat
  | [] => none
  | c :: cs =>
    if c = '\n' then none
    else if c = '"' && !escaped then some 1
    else (stringLength? (c = '\\' && !escaped) cs).map (· + 1)

/-- The length of a block string up to and including its three closing quotation marks. Three
quotation marks behind a backslash belong to the string. -/
def blockLength? (backslash : Bool) : List Char → Option Nat
  | [] => none
  | '"' :: '"' :: '"' :: cs =>
    if backslash then (blockLength? false cs).map (· + 3) else some 3
  | c :: cs => (blockLength? (c = '\\') cs).map (· + 1)

/-! ## Lexemes -/

def openers : List Char := ['(', '[', '{']

def closers : List Char := [')', ']', '}']

def otherPunctuators : List Char := ['!', '$', ':', '=', '@', '|', '&']

/-- The kind and the length of the lexeme at the front of a text. -/
def measure? : List Char → Option (TokenKind × Nat)
  | [] => none
  | '.' :: '.' :: '.' :: _ => some (.punctuator, 3)
  | '"' :: '"' :: '"' :: cs => (blockLength? false cs).map fun n => (.blockString, n + 3)
  | c :: cs =>
    if c ∈ openers ++ closers ++ otherPunctuators then some (.punctuator, 1)
    else if isNameStart c then some (.name, (word cs).length + 1)
    else if c.isDigit || c = '-' then
      let t := c :: cs.takeWhile fun d => !endsNumber d
      (numberKind? t).map fun k => (k, t.length)
    else if c = '"' then (stringLength? false cs).map fun n => (.string, n + 1)
    else none

/-- The brackets that may be opened after a lexeme, if it may stand where it does. -/
def credits? (credits : Nat) (l : Lexeme) : Option Nat :=
  if l.kind = .punctuator then
    match l.text with
    | [c] =>
      if c ∈ openers then (if credits = 0 then none else some (credits - 1))
      else if c ∈ closers then some (credits + 1)
      else some credits
    | _ => some credits
  else some credits

/-- The tokens from a position on. Every lexeme takes a character, so that the number of
characters is fuel enough. -/
def tokensFrom : Nat → Nat → Position → List Char → Tokens
  | 0, _, p, _ => .unreadable p
  | fuel + 1, credits, p, t =>
    let (p, t) := skip p t
    if t.isEmpty then .finish p
    else match measure? t with
      | none => .unreadable p
      | some (kind, n) =>
        let l : Lexeme := ⟨kind, t.take n, p⟩
        match credits? credits l with
        | none => .unreadable p
        | some credits => .lexeme l (tokensFrom fuel credits (p.after l.text) (t.drop n))

/-- How many brackets may be open at once. -/
def maxOpen : Nat := 50

/-- The tokens of a text. -/
def tokens (t : List Char) : Tokens := tokensFrom (t.length + 1) maxOpen .start t

mutual

theorem length_skip (p : Position) : ∀ cs, (skip p cs).2.length ≤ cs.length
  | [] => by simp [skip]
  | c :: cs => by
    rw [skip]
    repeat' split
    all_goals first
      | exact Nat.le_succ_of_le (length_skip _ cs)
      | exact Nat.le_succ_of_le (length_skipComment _ cs)
      | simp

theorem length_skipComment (p : Position) : ∀ cs, (skipComment p cs).2.length ≤ cs.length
  | [] => by simp [skipComment]
  | c :: cs => by
    rw [skipComment]
    split
    · exact Nat.le_succ_of_le (length_skip _ cs)
    · exact Nat.le_succ_of_le (length_skipComment _ cs)

end

/-- A lexeme has a character. -/
theorem measure?_pos {t : List Char} {kind : TokenKind} {n : Nat} (h : measure? t = some (kind, n)) :
    0 < n := by
  unfold measure? at h
  split at h
  · cases h
  · cases h
    decide
  · obtain ⟨m, -, hm⟩ := Option.map_eq_some_iff.mp h
    cases hm
    omega
  · split at h
    · cases h
      decide
    · split at h
      · cases h
        omega
      · split at h
        · obtain ⟨m, -, hm⟩ := Option.map_eq_some_iff.mp h
          cases hm
          simp
        · split at h
          · obtain ⟨m, -, hm⟩ := Option.map_eq_some_iff.mp h
            cases hm
            omega
          · cases h

end SchemaBridge.Sdl.Lexer
