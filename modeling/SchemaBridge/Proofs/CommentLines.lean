import SchemaBridge.Proofs.ParserPositions
import SchemaBridge.Text.Lines
/-!
# Comments in front of a schema

Lines that are empty or comments can stand in front of a text without a change to what is read: the
tokens are those of the text, so many lines further down. A carriage return ends a comment, and may
not be in the lines.

Results:
* `tokensFrom_down`: tokens from a position further down are further down.
* `skip_comments`: lines of comments are skipped.
* `tokens_comments`, `parse_comments`: what is read behind lines of comments.
-/
namespace SchemaBridge

open Text (Line unlines unlines_append joinWith_cons)

/-! ## Positions further down -/

namespace Text.Position

/-- The position so many lines further down. -/
def down (n : Nat) (p : Position) : Position := ⟨p.line + n, p.column⟩

theorem nextLine_down (n : Nat) (p : Position) : (p.down n).nextLine = p.nextLine.down n := by
  simp only [nextLine, down, Position.mk.injEq, and_true]
  omega

theorem right_down (n m : Nat) (p : Position) : (p.down n).right m = (p.right m).down n := rfl

theorem nextLine_start_down (n : Nat) : (start.down n).nextLine = start.down (n + 1) := rfl

theorem after_down (n : Nat) (p : Position) (t : List Char) :
    (p.down n).after t = (p.after t).down n := by
  induction t generalizing p with
  | nil => rfl
  | cons c cs ih =>
    rw [after, after, nextLine_down, right_down, ih, ih]
    split <;> rfl

end Text.Position

namespace Sdl.Lexer

open Text (Position)

mutual

theorem skip_down (n : Nat) (p : Position) :
    ∀ cs, skip (p.down n) cs = ((skip p cs).1.down n, (skip p cs).2)
  | [] => rfl
  | c :: cs => by
    rw [skip, skip]
    split
    · exact skipComment_down n p cs
    · rw [Position.nextLine_down, Position.right_down, Position.right_down]
      repeat' split
      all_goals first
        | exact skip_down n _ cs
        | rfl

theorem skipComment_down (n : Nat) (p : Position) :
    ∀ cs, skipComment (p.down n) cs = ((skipComment p cs).1.down n, (skipComment p cs).2)
  | [] => rfl
  | c :: cs => by
    rw [skipComment, skipComment, Position.nextLine_down]
    split
    · exact skip_down n _ cs
    · exact skipComment_down n p cs

end

/-- Tokens from a position further down are further down. -/
theorem tokensFrom_down (n fuel credits : Nat) (p : Position) (t : List Char) :
    tokensFrom fuel credits (p.down n) t = (tokensFrom fuel credits p t).mapPosition (.down n) := by
  induction fuel generalizing credits p t with
  | zero => rfl
  | succ fuel ih =>
    rw [tokensFrom, tokensFrom, skip_down]
    generalize skip p t = next
    obtain ⟨p, t⟩ := next
    simp only
    split
    · rfl
    · cases hm : measure? t with
      | none => rfl
      | some m =>
        obtain ⟨kind, length⟩ := m
        have hcredits : credits? credits ⟨kind, t.take length, p.down n⟩
            = credits? credits ⟨kind, t.take length, p⟩ := rfl
        simp only [hcredits]
        cases credits? credits ⟨kind, t.take length, p⟩ with
        | none => rfl
        | some credits =>
          simp only [Position.after_down, ih]
          rfl

/-- With fuel for every character, it does not matter how much there is. -/
theorem tokensFrom_of_fuel {fuel fuel' : Nat} (credits : Nat) (p : Position) {t : List Char}
    (h : t.length < fuel) (h' : t.length < fuel') :
    tokensFrom fuel credits p t = tokensFrom fuel' credits p t := by
  induction fuel generalizing fuel' credits p t with
  | zero => cases h
  | succ fuel ih =>
    obtain ⟨fuel', rfl⟩ := Nat.exists_eq_add_one.mpr (Nat.zero_lt_of_lt h')
    have hlength := length_skip p t
    rw [tokensFrom, tokensFrom]
    generalize skip p t = next at hlength
    obtain ⟨p, t⟩ := next
    simp only at hlength ⊢
    split
    · rfl
    · next hne =>
      cases hm : measure? t with
      | none => rfl
      | some m =>
        obtain ⟨kind, n⟩ := m
        have hpos := measure?_pos hm
        have hrest : ∀ credits p, tokensFrom fuel credits p (t.drop n)
            = tokensFrom fuel' credits p (t.drop n) := by
          intro credits p
          have hnonempty : t.length ≠ 0 := fun h => hne (List.isEmpty_iff_length_eq_zero.mpr h)
          apply ih credits p <;> rw [List.length_drop] <;> omega
        simp only [hrest]

/-! ## Comments -/

/-- A line that holds nothing but a comment, or nothing at all. -/
structure IsComment (l : Line) : Prop where
  head : l = [] ∨ l.head? = some '#'
  noNewline : '\n' ∉ l
  noReturn : '\r' ∉ l

theorem skipComment_append (p : Position) {cs : List Char} (hnewline : '\n' ∉ cs)
    (hreturn : '\r' ∉ cs) (t : List Char) : skipComment p (cs ++ '\n' :: t) = skip p.nextLine t := by
  induction cs with
  | nil => rfl
  | cons c cs ih =>
    simp only [List.mem_cons, not_or] at hnewline hreturn
    have hc : ¬(c = '\n' ∨ c = '\r') := not_or.mpr ⟨Ne.symm hnewline.1, Ne.symm hreturn.1⟩
    rw [List.cons_append, skipComment, if_neg hc, ih hnewline.2 hreturn.2]

theorem skip_comment (p : Position) {l : Line} (h : IsComment l) (t : List Char) :
    skip p (l ++ '\n' :: t) = skip p.nextLine t := by
  cases l with
  | nil => rfl
  | cons c cs =>
    obtain rfl : c = '#' := by simpa using h.head
    rw [List.cons_append, skip, if_pos rfl]
    exact skipComment_append p (fun hcs => h.noNewline (List.mem_cons_of_mem _ hcs))
      (fun hcs => h.noReturn (List.mem_cons_of_mem _ hcs)) t

/-- Lines of comments in front of a text are skipped. -/
theorem skip_comments {ls : List Line} (h : ∀ l ∈ ls, IsComment l) (n : Nat) (t : List Char) :
    skip (Position.start.down n) (unlines (ls ++ [t]))
      = skip (Position.start.down (n + ls.length)) t := by
  induction ls generalizing n with
  | nil => rfl
  | cons l ls ih =>
    have hl := h l List.mem_cons_self
    have hls := ih (fun l hl => h l (List.mem_cons_of_mem _ hl)) (n + 1)
    rw [List.cons_append, unlines, joinWith_cons _ _ (by simp), List.append_assoc,
      List.singleton_append, skip_comment _ hl, Position.nextLine_start_down, ← unlines, hls]
    congr 2
    simp only [List.length_cons]
    omega

/-- The tokens behind lines of comments are those of the text, further down. -/
theorem tokens_comments {ls : List Line} (h : ∀ l ∈ ls, IsComment l) (t : List Char) :
    tokens (unlines (ls ++ [t])) = (tokens t).mapPosition (.down ls.length) := by
  have hskip := skip_comments h 0 t
  rw [Nat.zero_add] at hskip
  have hlength : t.length ≤ (unlines (ls ++ [t])).length := by
    cases ls with
    | nil => exact Nat.le_refl _
    | cons l ls =>
      have hlast : unlines [t] = t := rfl
      rw [unlines_append (List.cons_ne_nil l ls) (List.cons_ne_nil t []), hlast, List.length_append,
        List.length_cons]
      omega
  calc tokens (unlines (ls ++ [t]))
      = tokensFrom ((unlines (ls ++ [t])).length + 1) maxOpen (Position.start.down ls.length) t := by
        rw [tokens, tokensFrom, tokensFrom, ← hskip]
        rfl
    _ = tokensFrom (t.length + 1) maxOpen (Position.start.down ls.length) t :=
        tokensFrom_of_fuel _ _ (Nat.lt_succ_of_le hlength) (Nat.lt_succ_self _)
    _ = (tokens t).mapPosition (.down ls.length) := tokensFrom_down _ _ _ _ _

end Sdl.Lexer

namespace Sdl

/-- **Comments in front of a schema change nothing.** The schema, or the fault that there is none, is
that of the text without them, further down by as many lines. -/
theorem parse_comments {ls : List Line} (h : ∀ l ∈ ls, Lexer.IsComment l) (t : String) :
    Schema.parse (String.ofList (unlines (ls ++ [t.toList])))
      = ((Schema.parse t).mapError (Fault.mapPosition (.down ls.length))).map
        (List.map (Definition.mapPosition (.down ls.length))) := by
  unfold Schema.parse
  rw [String.toList_ofList, Lexer.tokens_comments h]
  exact wholeDocument_mapPosition maps_definition _

end Sdl

end SchemaBridge
