import SchemaBridge.Proofs.TextPositions
import SchemaBridge.Sdl.Lexer
/-!
# Where lexemes stand

The positions of the lexemes of a text go up in the order of positions. They need not point into the
text: a tab counts as eight columns, and a comment that ends with a carriage return and a newline as
two lines. In a text without tabs that has no comments or no carriage returns, every lexeme is on its
line, and no further along it than its first character, so that its position points into the text.

Results:
* `lexemes_tokensFrom_succ`: what one step of the lexer adds to the lexemes.
* `places_tokens_increasing`: the positions of lexemes go up.
* `pointsInto_of_mem_places`: they point into a text without tabs that has no comments or no carriage
  returns.
-/
namespace SchemaBridge

open Text (Position)
open Text.Position (start)

namespace Sdl

namespace Tokens

/-- The lexemes, in order. -/
def lexemes : Tokens → List Lexeme
  | lexeme l rest => l :: rest.lexemes
  | finish _ | unreadable _ => []

/-- The positions of the lexemes, in order. -/
def places : Tokens → List Position
  | lexeme l rest => l.position :: rest.places
  | finish _ | unreadable _ => []

theorem places_eq_map (ts : Tokens) : ts.places = ts.lexemes.map Lexeme.position := by
  induction ts with
  | lexeme l rest ih => rw [places, lexemes, List.map_cons, ih]
  | finish position | unreadable position => rfl

end Tokens

namespace Lexer

/-- A step of the lexer ends the tokens, or it skips to a lexeme and goes on behind that. -/
theorem lexemes_tokensFrom_succ (fuel credits : Nat) (p : Position) (t : List Char) :
    (tokensFrom (fuel + 1) credits p t).lexemes = [] ∨
    ∃ kind n credits', measure? (skip p t).2 = some (kind, n) ∧
      (tokensFrom (fuel + 1) credits p t).lexemes = ⟨kind, (skip p t).2.take n, (skip p t).1⟩ ::
        (tokensFrom fuel credits' ((skip p t).1.after ((skip p t).2.take n))
          ((skip p t).2.drop n)).lexemes := by
  rw [tokensFrom]
  generalize skip p t = next
  obtain ⟨p, t⟩ := next
  simp only
  split
  · exact .inl rfl
  · cases hm : measure? t with
    | none => exact .inl rfl
    | some m =>
      obtain ⟨kind, n⟩ := m
      cases hc : credits? credits ⟨kind, t.take n, p⟩ with
      | none => simp only [hc]; exact .inl rfl
      | some credits' => simp only [hc]; exact .inr ⟨kind, n, credits', rfl, rfl⟩

theorem places_tokensFrom_succ (fuel credits : Nat) (p : Position) (t : List Char) :
    (tokensFrom (fuel + 1) credits p t).places = [] ∨
    ∃ kind n credits', measure? (skip p t).2 = some (kind, n) ∧
      (tokensFrom (fuel + 1) credits p t).places = (skip p t).1 ::
        (tokensFrom fuel credits' ((skip p t).1.after ((skip p t).2.take n))
          ((skip p t).2.drop n)).places := by
  simp only [Tokens.places_eq_map]
  rcases lexemes_tokensFrom_succ fuel credits p t with h | ⟨kind, n, credits', hm, h⟩
  · exact .inl (congrArg (List.map Lexeme.position) h)
  · exact .inr ⟨kind, n, credits', hm, congrArg (List.map Lexeme.position) h⟩

theorem take_ne_nil_of_measure? {t : List Char} {kind : TokenKind} {n : Nat}
    (h : measure? t = some (kind, n)) : t.take n ≠ [] := by
  have hpos := measure?_pos h
  cases t with
  | nil => cases h
  | cons c t =>
    obtain ⟨m, rfl⟩ := Nat.exists_eq_add_one.mpr hpos
    exact List.cons_ne_nil _ _

/-! ## The order of lexemes -/

mutual

theorem le_skip (p : Position) : ∀ t, p ≤ (skip p t).1
  | [] => le_rfl
  | c :: t => by
    rw [skip]
    split
    · exact le_skipComment p t
    · split
      · exact p.lt_nextLine.le.trans (le_skip _ t)
      · split
        · exact (p.le_right 8).trans (le_skip _ t)
        · split
          · exact (p.le_right 1).trans (le_skip _ t)
          · split
            · exact le_skip p t
            · exact le_rfl

theorem le_skipComment (p : Position) : ∀ t, p ≤ (skipComment p t).1
  | [] => le_rfl
  | c :: t => by
    rw [skipComment]
    split
    · exact p.lt_nextLine.le.trans (le_skip _ t)
    · exact le_skipComment p t

end

theorem places_tokensFrom_increasing (fuel credits : Nat) (p : Position) (t : List Char) :
    (∀ q ∈ (tokensFrom fuel credits p t).places, p ≤ q) ∧
      (tokensFrom fuel credits p t).places.Pairwise (· < ·) := by
  induction fuel generalizing credits p t with
  | zero => exact ⟨fun q hq => absurd hq List.not_mem_nil, .nil⟩
  | succ fuel ih =>
    rcases places_tokensFrom_succ fuel credits p t with h | ⟨kind, n, credits', hm, h⟩
    · rw [h]
      exact ⟨fun q hq => absurd hq List.not_mem_nil, .nil⟩
    · have hskip := le_skip p t
      have hlt := Position.lt_after (skip p t).1 (take_ne_nil_of_measure? hm)
      obtain ⟨hle, hpairwise⟩ :=
        ih credits' ((skip p t).1.after ((skip p t).2.take n)) ((skip p t).2.drop n)
      rw [h]
      refine ⟨List.forall_mem_cons.mpr ⟨hskip, fun q hq => ?_⟩,
        .cons (fun q hq => hlt.trans_le (hle q hq)) hpairwise⟩
      exact (hskip.trans hlt.le).trans (hle q hq)

/-- The positions of the lexemes of a text go up. -/
theorem places_tokens_increasing (t : List Char) : (tokens t).places.Pairwise (· < ·) :=
  (places_tokensFrom_increasing _ _ _ t).2

/-! ## Lexemes on their lines -/

/-- A position on the line that a text leads to, and no further along it. -/
structure Reaches (s : List Char) (p : Position) : Prop where
  line : p.line = (start.after s).line
  pos : 1 ≤ p.column
  le : p.column ≤ (start.after s).column

section
variable {s : List Char} {p : Position}

theorem Reaches.stay (h : Reaches s p) {c : Char} (hc : c ≠ '\n') : Reaches (s ++ [c]) p := by
  obtain ⟨hline, hpos, hle⟩ := h
  refine ⟨?_, hpos, ?_⟩ <;> rw [Position.after_append, Position.after, if_neg hc]
  · exact hline
  · exact Nat.le_succ_of_le hle

theorem Reaches.right (h : Reaches s p) {c : Char} (hc : c ≠ '\n') :
    Reaches (s ++ [c]) (p.right 1) := by
  obtain ⟨hline, hpos, hle⟩ := h
  refine ⟨?_, Nat.le_succ_of_le hpos, ?_⟩ <;> rw [Position.after_append, Position.after, if_neg hc]
  · exact hline
  · exact Nat.succ_le_succ hle

theorem Reaches.nextLine (h : Reaches s p) : Reaches (s ++ ['\n']) p.nextLine := by
  refine ⟨?_, Nat.le_refl 1, ?_⟩ <;> rw [Position.after_append]
  · exact congrArg (· + 1) h.line
  · exact Nat.le_refl 1

theorem Reaches.after (h : Reaches s p) (u : List Char) : Reaches (s ++ u) (p.after u) := by
  induction u generalizing s p with
  | nil => rwa [List.append_nil]
  | cons c u ih =>
    rw [Position.after, List.append_cons]
    split
    · next hc => exact ih (hc ▸ h.nextLine)
    · next hc => exact ih (h.right hc)

/-- The line of a character that the text leads to is long enough. -/
theorem Reaches.pointsInto (h : Reaches s p) {c : Char} (hc : c ≠ '\n') (r : List Char) :
    p.PointsInto (s ++ c :: r) := by
  obtain ⟨hline, -, l, hl, hlength⟩ : (start.after s).PointsInto (s ++ c :: r) :=
    Position.pointsInto_iff.mpr ⟨s, c, r, rfl, hc, rfl⟩
  exact ⟨h.line ▸ hline, h.pos, l, h.line ▸ hl, Nat.le_trans h.le hlength⟩

end

/-- Behind `s`, what is skipped of a text leads to a position that it reaches. -/
def SkipsTo (s t : List Char) (next : Position × List Char) : Prop :=
  ∃ u, t = u ++ next.2 ∧ Reaches (s ++ u) next.1

theorem SkipsTo.cons {s t : List Char} {c : Char} {next : Position × List Char}
    (h : SkipsTo (s ++ [c]) t next) : SkipsTo s (c :: t) next := by
  obtain ⟨u, ht, hreaches⟩ := h
  exact ⟨c :: u, congrArg (c :: ·) ht, by rwa [List.append_cons]⟩

mutual

theorem skip_reaches {s : List Char} {p : Position} (h : Reaches s p) :
    ∀ t, '\t' ∉ t → '#' ∉ t ∨ '\r' ∉ t → SkipsTo s t (skip p t)
  | [], _, _ => ⟨[], rfl, by rwa [List.append_nil]⟩
  | c :: t, htab, hcomment => by
    simp only [List.mem_cons, not_or] at htab hcomment
    have hrest : '#' ∉ t ∨ '\r' ∉ t := hcomment.imp And.right And.right
    rw [skip]
    split
    · next hc =>
      have hreturn := hcomment.resolve_left fun hno => hno.1 hc.symm
      exact (skipComment_reaches (h.stay (by rw [hc]; decide)) t htab.2 hreturn.2).cons
    · split
      · next hc => exact .cons (hc ▸ skip_reaches h.nextLine t htab.2 hrest)
      · next hnewline =>
        rw [if_neg (Ne.symm htab.1)]
        split
        · exact (skip_reaches (h.right hnewline) t htab.2 hrest).cons
        · split
          · exact (skip_reaches (h.stay hnewline) t htab.2 hrest).cons
          · exact ⟨[], rfl, by rwa [List.append_nil]⟩

theorem skipComment_reaches {s : List Char} {p : Position} (h : Reaches s p) :
    ∀ t, '\t' ∉ t → '\r' ∉ t → SkipsTo s t (skipComment p t)
  | [], _, _ => ⟨[], rfl, by rwa [List.append_nil]⟩
  | c :: t, htab, hreturn => by
    simp only [List.mem_cons, not_or] at htab hreturn
    rw [skipComment]
    split
    · next hc =>
      obtain rfl := hc.resolve_right (Ne.symm hreturn.1)
      exact (skip_reaches h.nextLine t htab.2 (.inr hreturn.2)).cons
    · next hc =>
      exact (skipComment_reaches (h.stay (not_or.mp hc).1) t htab.2 hreturn.2).cons

end

theorem ne_newline_of_measure? {c : Char} {t : List Char} {m : TokenKind × Nat}
    (h : measure? (c :: t) = some m) : c ≠ '\n' := by
  rintro rfl
  cases h

theorem pointsInto_of_mem_tokensFrom {s : List Char} {p : Position} (h : Reaches s p)
    (fuel credits : Nat) {t : List Char} (htab : '\t' ∉ t)
    (hcomment : '#' ∉ t ∨ '\r' ∉ t) :
    ∀ q ∈ (tokensFrom fuel credits p t).places, q.PointsInto (s ++ t) := by
  induction fuel generalizing credits s p t with
  | zero => exact fun q hq => absurd hq List.not_mem_nil
  | succ fuel ih =>
    rcases places_tokensFrom_succ fuel credits p t with hplaces | ⟨kind, n, credits', hm, hplaces⟩
    · rw [hplaces]
      exact fun q hq => absurd hq List.not_mem_nil
    · obtain ⟨u, ht, hreaches⟩ := skip_reaches h t htab hcomment
      rw [hplaces]
      generalize skip p t = next at *
      obtain ⟨p, r⟩ := next
      subst ht
      simp only [List.mem_append, not_or] at htab hcomment
      rw [← List.append_assoc]
      refine List.forall_mem_cons.mpr ⟨?_, ?_⟩
      · cases r with
        | nil => cases hm
        | cons c r => exact hreaches.pointsInto (ne_newline_of_measure? hm) r
      · have hrest := ih (hreaches.after (r.take n)) credits' (t := r.drop n)
          (mt List.mem_of_mem_drop htab.2)
          (hcomment.imp (mt List.mem_of_mem_drop ·.2) (mt List.mem_of_mem_drop ·.2))
        rwa [List.append_assoc, List.take_append_drop] at hrest

/-- Without tabs, and without comments or carriage returns, the positions of lexemes point into the
text. -/
theorem pointsInto_of_mem_places {t : List Char} (htab : '\t' ∉ t)
    (hcomment : '#' ∉ t ∨ '\r' ∉ t) : ∀ q ∈ (tokens t).places, q.PointsInto t := by
  have hstart : Reaches [] start := ⟨rfl, Nat.le_refl 1, Nat.le_refl 1⟩
  exact pointsInto_of_mem_tokensFrom hstart _ _ htab hcomment

end Lexer

end Sdl

end SchemaBridge
