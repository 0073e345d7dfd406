/-!
# Lines of a text

Texts are handled as `List Char` wherever a rule speaks about single characters. `lines` cuts
at every newline, so a text with `n` newlines has `n + 1` lines, and `unlines` puts the newlines back.

Results:
* `lines_ne_nil`: there is always a line, also in the empty text.
* `unlines_lines`: cutting loses nothing.
* `lines_unlines_texts`, `lines_unlines`: nor does putting newlines back, unless a line holds one.
* `lines_append_newline`: a newline separates the lines before it from the lines after it.
* `lines_append`: without one, the last line before and the first line after become one line.
* `newline_not_mem_of_mem_lines`: no line holds a newline.
-/
namespace SchemaBridge.Text

/-- One line, without its newline. -/
abbrev Line := List Char

/-- The pieces of a text between its newlines. -/
def lines : List Char → List Line
  | [] => [[]]
  | c :: cs =>
    if c = '\n' then [] :: lines cs
    else match lines cs with
      | [] => [[c]]
      | l :: ls => (c :: l) :: ls

/-- The number of bytes of a text in UTF-8. -/
def byteLength : List Char → Nat
  | [] => 0
  | c :: cs => c.utf8Size + byteLength cs

/-- Texts written one after the other with a separator between neighbours. -/
def joinWith (separator : List Char) : List (List Char) → List Char
  | [] => []
  | [t] => t
  | t :: u :: ts => t ++ separator ++ joinWith separator (u :: ts)

/-- Lines with a newline between neighbours. -/
def unlines (ls : List Line) : List Char := joinWith ['\n'] ls

@[simp] theorem lines_nil : lines [] = [[]] := rfl

theorem lines_ne_nil (t : List Char) : lines t ≠ [] := by
  cases t with
  | nil => simp
  | cons c cs => rw [lines]; split; · simp
                 split <;> simp

theorem lines_newline (cs : List Char) : lines ('\n' :: cs) = [] :: lines cs := by
  simp [lines]

/-- A character other than a newline goes to the front of the first line. -/
theorem lines_cons {c : Char} (hc : c ≠ '\n') (cs : List Char) :
    ∃ l ls, lines cs = l :: ls ∧ lines (c :: cs) = (c :: l) :: ls := by
  rw [lines, if_neg hc]
  cases h : lines cs with
  | nil => exact absurd h (lines_ne_nil cs)
  | cons l ls => exact ⟨l, ls, rfl, rfl⟩

@[simp] theorem joinWith_singleton (sep t : List Char) : joinWith sep [t] = t := rfl

theorem joinWith_cons (sep t : List Char) {ts : List (List Char)} (h : ts ≠ []) :
    joinWith sep (t :: ts) = t ++ sep ++ joinWith sep ts := by
  cases ts with
  | nil => exact absurd rfl h
  | cons u us => rfl

theorem unlines_lines (t : List Char) : unlines (lines t) = t := by
  induction t with
  | nil => rfl
  | cons c cs ih =>
    by_cases hc : c = '\n'
    · subst hc
      rw [lines_newline, unlines, joinWith_cons _ _ (lines_ne_nil cs)]
      simpa [unlines] using ih
    · obtain ⟨l, ls, h, h'⟩ := lines_cons hc cs
      rw [h']; rw [h] at ih
      cases ls with
      | nil => simpa [unlines] using ih
      | cons m ms =>
        rw [unlines, joinWith_cons _ _ (by simp)] at ih ⊢
        simp only [List.cons_append, ih]

theorem lines_append_newline (s t : List Char) :
    lines (s ++ '\n' :: t) = lines s ++ lines t := by
  induction s with
  | nil => simp [lines_newline]
  | cons c cs ih =>
    by_cases hc : c = '\n'
    · subst hc; simp [lines_newline, ih]
    · obtain ⟨l, ls, h, h'⟩ := lines_cons hc cs
      obtain ⟨l₂, ls₂, h₂, h₂'⟩ := lines_cons hc (cs ++ '\n' :: t)
      rw [List.cons_append, h₂', h']
      rw [ih, h, List.cons_append] at h₂
      simp only [List.cons.injEq] at h₂
      simp [← h₂.1, ← h₂.2]

theorem newline_not_mem_of_mem_lines {t l : List Char} (h : l ∈ lines t) : '\n' ∉ l := by
  induction t generalizing l with
  | nil => simp_all
  | cons c cs ih =>
    by_cases hc : c = '\n'
    · subst hc
      rw [lines_newline, List.mem_cons] at h
      rcases h with rfl | h
      · simp
      · exact ih h
    · obtain ⟨m, ms, hm, hm'⟩ := lines_cons hc cs
      rw [hm', List.mem_cons] at h
      rcases h with rfl | h
      · have := ih (l := m) (by simp [hm])
        simp [Ne.symm hc, this]
      · exact ih (by simp [hm, h])

theorem lines_of_not_mem {t : List Char} (h : '\n' ∉ t) : lines t = [t] := by
  induction t with
  | nil => rfl
  | cons c cs ih =>
    have hc : c ≠ '\n' := fun hc => h (hc ▸ List.mem_cons_self)
    have hcs : '\n' ∉ cs := fun hcs => h (List.mem_cons_of_mem c hcs)
    rw [lines, if_neg hc, ih hcs]

/-- The lines of texts on lines of their own are the lines of each. -/
theorem lines_unlines_texts {ts : List (List Char)} (hne : ts ≠ []) :
    lines (unlines ts) = ts.flatMap lines := by
  induction ts with
  | nil => exact absurd rfl hne
  | cons t ts ih =>
    cases ts with
    | nil => simp [unlines]
    | cons u us =>
      rw [unlines, joinWith_cons _ _ (by simp), List.append_assoc, List.singleton_append,
        lines_append_newline, List.flatMap_cons, ← ih (by simp)]
      rfl

theorem lines_unlines {ls : List Line} (hne : ls ≠ []) (h : ∀ l ∈ ls, '\n' ∉ l) :
    lines (unlines ls) = ls := by
  have hlines : ls.map lines = ls.map fun l => [l] :=
    List.map_congr_left fun l hl => lines_of_not_mem (h l hl)
  rw [lines_unlines_texts hne, List.flatMap_def, hlines, ← List.flatMap_def, List.flatMap_singleton']

/-- The last line of a text and the first line of the text behind it become one line. -/
theorem lines_append (s t : List Char) :
    ∃ ls l m ms, lines s = ls ++ [l] ∧ lines t = m :: ms ∧ lines (s ++ t) = ls ++ (l ++ m) :: ms := by
  induction s with
  | nil =>
    obtain ⟨m, ms, ht⟩ := List.exists_cons_of_ne_nil (lines_ne_nil t)
    exact ⟨[], [], m, ms, rfl, ht, ht⟩
  | cons c cs ih =>
    obtain ⟨ls, l, m, ms, hcs, ht, happend⟩ := ih
    by_cases hc : c = '\n'
    · subst hc
      refine ⟨[] :: ls, l, m, ms, ?_, ht, ?_⟩
      · rw [lines_newline, hcs]; rfl
      · rw [List.cons_append, lines_newline, happend]; rfl
    · obtain ⟨k, ks, hk, hk'⟩ := lines_cons hc cs
      obtain ⟨k₂, ks₂, hk₂, hk₂'⟩ := lines_cons hc (cs ++ t)
      rw [hcs] at hk
      rw [happend] at hk₂
      cases ls with
      | nil =>
        obtain ⟨rfl, rfl⟩ := List.cons.inj hk
        obtain ⟨rfl, rfl⟩ := List.cons.inj hk₂
        exact ⟨[], c :: l, m, ms, hk', ht, hk₂'⟩
      | cons n ns =>
        obtain ⟨rfl, rfl⟩ := List.cons.inj hk
        obtain ⟨rfl, rfl⟩ := List.cons.inj hk₂
        exact ⟨(c :: n) :: ns, l, m, ms, hk', ht, hk₂'⟩

/-- Every line of a text begins a line of any text that goes on from there. -/
theorem exists_line_append {s l : List Char} (h : l ∈ lines s) (t : List Char) :
    ∃ m ∈ lines (s ++ t), l <+: m := by
  obtain ⟨ls, k, m, ms, hs, -, happend⟩ := lines_append s t
  rw [hs, List.mem_append, List.mem_singleton] at h
  rw [happend]
  rcases h with h | rfl
  · exact ⟨l, List.mem_append_left _ h, List.prefix_rfl⟩
  · exact ⟨l ++ m, List.mem_append_right _ List.mem_cons_self, List.prefix_append l m⟩

theorem mem_iff_exists_line {c : Char} (hc : c ≠ '\n') {t : List Char} :
    c ∈ t ↔ ∃ l ∈ lines t, c ∈ l := by
  induction t with
  | nil => simp
  | cons d ds ih =>
    by_cases hd : d = '\n'
    · subst hd
      simp [lines_newline, hc, ih]
    · obtain ⟨l, ls, h, h'⟩ := lines_cons hd ds
      rw [h] at ih
      rw [h', List.mem_cons, ih]
      simp [or_assoc]

theorem mem_unlines {c : Char} {l : Line} {ls : List Line} (hl : l ∈ ls) (hc : c ∈ l) :
    c ∈ unlines ls := by
  induction ls with
  | nil => cases hl
  | cons k ks ih =>
    cases ks with
    | nil =>
      obtain rfl := List.mem_singleton.mp hl
      exact hc
    | cons m ms =>
      rw [unlines, joinWith_cons _ _ (by simp)]
      rcases List.mem_cons.mp hl with rfl | hl
      · exact List.mem_append_left _ (List.mem_append_left _ hc)
      · exact List.mem_append_right _ (ih hl)

theorem unlines_append {ls ms : List Line} (hls : ls ≠ []) (hms : ms ≠ []) :
    unlines (ls ++ ms) = unlines ls ++ '\n' :: unlines ms := by
  induction ls with
  | nil => exact absurd rfl hls
  | cons l ls ih =>
    cases ls with
    | nil => simp [unlines, joinWith_cons _ _ hms]
    | cons k ks =>
      have hks : unlines (k :: (ks ++ ms)) = unlines (k :: ks) ++ '\n' :: unlines ms := ih (by simp)
      calc unlines (l :: k :: ks ++ ms) = l ++ ['\n'] ++ unlines (k :: (ks ++ ms)) := rfl
        _ = unlines (l :: k :: ks) ++ '\n' :: unlines ms := by
          rw [hks, ← List.append_assoc]; rfl

end SchemaBridge.Text
