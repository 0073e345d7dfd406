/-!
# Maps with an order

A map from names to values that remembers the order in which its names came, as a list of entries.
`put` keeps the place of a name that is there and appends one that is not.

Results:
* `lookup?_eq_find?`: looking up is finding the first entry.
* `lookup?_append`, `lookup?_map`, `lookup?_eq_none_iff`: looking up in entries that are put together.
* `occurrences_le_one`: entries whose names differ have no name twice.
* `lookup?_put_self`, `lookup?_put_of_ne`: what a name holds after `put`.
* `mem_keys_put`, `keys_put_nodup`: the names after `put`.
* `mem_put_self`, `mem_put_of_ne`, `mem_of_mem_put`: the entries after `put`.
* `put_of_not_mem`, `put_append_cons`: the place that `put` gives to a name.
* `keys_ofEntries_nodup`: putting entries one after the other leaves every name once.
* `ofEntries_of_nodup`: entries whose names differ are a map as they stand.
* `mem_iff_lookup?`: the entries of a map are what its names hold.
-/
namespace SchemaBridge

/-- Entries by name, in the order in which the names came. -/
abbrev Keyed (α : Type) := List (String × α)

namespace Keyed
variable {α : Type}

/-- What a key holds, the first entry counting. -/
def lookup? : Keyed α → String → Option α
  | [], _ => none
  | m :: ms, key => if m.1 = key then some m.2 else lookup? ms key

def keys (ms : Keyed α) : List String := ms.map Prod.fst

/-- Gives a key a value: in its place if the key is there, at the end otherwise. -/
def put (key : String) (a : α) : Keyed α → Keyed α
  | [] => [(key, a)]
  | m :: ms => if m.1 = key then (key, a) :: ms else m :: put key a ms

/-- The entries put one after the other: the last value of a key in the place of the first. -/
def ofEntries (ms : List (String × α)) : Keyed α := ms.foldl (fun acc m => put m.1 m.2 acc) []

/-- The number of entries under a key. -/
def occurrences (ms : Keyed α) (key : String) : Nat := ms.countP (·.1 = key)

theorem lookup?_eq_find? (ms : Keyed α) (key : String) :
    lookup? ms key = (ms.find? fun m => m.1 = key).map Prod.snd := by
  induction ms with
  | nil => rfl
  | cons m ms ih =>
    rw [lookup?, List.find?_cons]
    by_cases hkey : m.1 = key
    · simp [hkey]
    · simp [hkey, ih]

theorem lookup?_append (ms ms' : Keyed α) (key : String) :
    lookup? (ms ++ ms') key = (lookup? ms key).or (lookup? ms' key) := by
  simp [lookup?_eq_find?, List.find?_append, Option.map_or]

theorem lookup?_map {β : Type} (f : α → β) (ms : Keyed α) (key : String) :
    lookup? (ms.map fun m => (m.1, f m.2)) key = (lookup? ms key).map f := by
  induction ms with
  | nil => rfl
  | cons m ms ih =>
    rw [List.map_cons, lookup?, lookup?, ih]
    split
    · rfl
    · rfl

theorem lookup?_eq_none_iff {ms : Keyed α} {key : String} :
    lookup? ms key = none ↔ key ∉ keys ms := by
  induction ms with
  | nil => simp [lookup?, keys]
  | cons m ms ih =>
    rw [lookup?, keys, List.map_cons, List.mem_cons, not_or, ← keys, ← ih]
    by_cases hkey : m.1 = key
    · simp [hkey]
    · simp [hkey, Ne.symm hkey]

theorem occurrences_le_one {ms : Keyed α} (h : (keys ms).Nodup) (key : String) :
    ms.occurrences key ≤ 1 := by
  have hcount : ms.occurrences key = (keys ms).count key := by
    rw [occurrences, keys, List.count, List.countP_map]
    rfl
  rw [hcount]
  exact List.nodup_iff_count.mp h key

theorem lookup?_put_self (key : String) (a : α) (ms : Keyed α) :
    lookup? (put key a ms) key = some a := by
  induction ms with
  | nil => simp [put, lookup?]
  | cons m ms ih =>
    rw [put]; split
    · simp [lookup?]
    · next h => rw [lookup?, if_neg h]; exact ih

theorem lookup?_put_of_ne {key other : String} (h : other ≠ key) (a : α) (ms : Keyed α) :
    lookup? (put key a ms) other = lookup? ms other := by
  induction ms with
  | nil => simp [put, lookup?, Ne.symm h]
  | cons m ms ih =>
    rw [put]; split
    · next hm => rw [lookup?, lookup?, if_neg (Ne.symm h), if_neg (by rw [hm]; exact Ne.symm h)]
    · rw [lookup?, lookup?, ih]

theorem mem_keys_put {key k : String} {a : α} {ms : Keyed α} :
    k ∈ keys (put key a ms) ↔ k = key ∨ k ∈ keys ms := by
  induction ms with
  | nil => simp [put, keys]
  | cons m ms ih =>
    rw [put]; split
    · next hm => simp [keys, hm]
    · simp only [keys, List.map_cons, List.mem_cons] at ih ⊢
      rw [ih]; grind

theorem keys_put_nodup {key : String} {a : α} {ms : Keyed α} (h : (keys ms).Nodup) :
    (keys (put key a ms)).Nodup := by
  induction ms with
  | nil => simp [put, keys]
  | cons m ms ih =>
    rw [put]; split
    · next hm => simpa [keys, ← hm] using h
    · next hm =>
      have h' : m.1 ∉ keys ms ∧ (keys ms).Nodup := by simpa [keys] using h
      have : m.1 ∉ keys (put key a ms) := by rw [mem_keys_put]; simp [hm, h'.1]
      exact List.nodup_cons.mpr ⟨this, ih h'.2⟩

theorem keys_ofEntries_nodup (ms : List (String × α)) : (keys (ofEntries ms)).Nodup := by
  suffices ∀ acc : Keyed α, (keys acc).Nodup →
      (keys (ms.foldl (fun acc m => put m.1 m.2 acc) acc)).Nodup from this [] (by simp [keys])
  induction ms with
  | nil => exact fun _ h => h
  | cons m ms ih => exact fun acc h => ih _ (keys_put_nodup h)

theorem mem_of_mem_put {m : String × α} {key : String} {a : α} {ms : Keyed α}
    (h : m ∈ put key a ms) : m = (key, a) ∨ m ∈ ms := by
  induction ms with
  | nil => exact .inl (by simpa [put] using h)
  | cons n ns ih =>
    rw [put] at h
    split at h
    · rcases List.mem_cons.mp h with rfl | h
      · exact .inl rfl
      · exact .inr (List.mem_cons_of_mem n h)
    · rcases List.mem_cons.mp h with rfl | h
      · exact .inr List.mem_cons_self
      · exact (ih h).imp_right (List.mem_cons_of_mem n)

theorem mem_put_self (key : String) (a : α) (ms : Keyed α) : (key, a) ∈ put key a ms := by
  induction ms with
  | nil => exact List.mem_singleton_self _
  | cons m ms ih =>
    rw [put]
    split
    · exact List.mem_cons_self
    · exact List.mem_cons_of_mem _ ih

/-- Other keys keep their entries. -/
theorem mem_put_of_ne {m : String × α} {key : String} (hne : m.1 ≠ key) (a : α) {ms : Keyed α}
    (h : m ∈ ms) : m ∈ put key a ms := by
  induction ms with
  | nil => cases h
  | cons n ns ih =>
    rw [put]
    rcases List.mem_cons.mp h with rfl | h
    · rw [if_neg hne]
      exact List.mem_cons_self
    · split
      · exact List.mem_cons_of_mem _ h
      · exact List.mem_cons_of_mem _ (ih h)

theorem mem_of_mem_ofEntries {m : String × α} {ms : List (String × α)} (h : m ∈ ofEntries ms) :
    m ∈ ms := by
  suffices ∀ acc : Keyed α, m ∈ ms.foldl (fun acc m => put m.1 m.2 acc) acc → m ∈ acc ∨ m ∈ ms from
    (this [] h).resolve_left List.not_mem_nil
  clear h
  induction ms with
  | nil => exact fun _ h => .inl h
  | cons n ns ih =>
    intro acc h
    rcases ih _ h with h | h
    · rcases mem_of_mem_put h with rfl | h
      · exact .inr List.mem_cons_self
      · exact .inl h
    · exact .inr (List.mem_cons_of_mem n h)

theorem put_of_not_mem {key : String} {a : α} {ms : Keyed α} (h : key ∉ keys ms) :
    put key a ms = ms ++ [(key, a)] := by
  induction ms with
  | nil => rfl
  | cons m ms ih =>
    have h' : m.1 ≠ key ∧ key ∉ keys ms := by
      simpa [keys, eq_comm] using h
    rw [put, if_neg h'.1, ih h'.2, List.cons_append]

/-- A key that comes for the first time is found in its place. -/
theorem put_append_cons {key : String} {ms : Keyed α} (h : key ∉ keys ms) (a b : α)
    (ms' : Keyed α) : put key a (ms ++ (key, b) :: ms') = ms ++ (key, a) :: ms' := by
  induction ms with
  | nil => exact if_pos rfl
  | cons m ms ih =>
    have h' : m.1 ≠ key ∧ key ∉ keys ms := by
      simpa [keys, eq_comm] using h
    rw [List.cons_append, put, if_neg h'.1, ih h'.2, List.cons_append]

theorem ofEntries_of_nodup {ms : Keyed α} (h : (keys ms).Nodup) : ofEntries ms = ms := by
  suffices ∀ acc : Keyed α, (keys (acc ++ ms)).Nodup →
      ms.foldl (fun acc m => put m.1 m.2 acc) acc = acc ++ ms from this [] h
  clear h
  induction ms with
  | nil => simp
  | cons m ms ih =>
    intro acc h
    have hm : m.1 ∉ keys acc := by
      rw [keys, List.map_append, List.nodup_append] at h
      intro hmem
      exact h.2.2 m.1 hmem m.1 (by simp) rfl
    rw [List.foldl_cons, put_of_not_mem hm, ih _ (by simpa using h), List.append_assoc]
    rfl

theorem ofEntries_concat (ms : List (String × α)) (m : String × α) :
    ofEntries (ms ++ [m]) = put m.1 m.2 (ofEntries ms) := by
  simp [ofEntries, List.foldl_append]

theorem mem_iff_lookup? {ms : Keyed α} (h : (keys ms).Nodup) {m : String × α} :
    m ∈ ms ↔ lookup? ms m.1 = some m.2 := by
  induction ms with
  | nil => simp [lookup?]
  | cons n ns ih =>
    have h' : n.1 ∉ keys ns ∧ (keys ns).Nodup := by simpa [keys] using h
    rw [lookup?, List.mem_cons]
    split
    · next hkey =>
      have hnot : m ∉ ns := by
        intro hm
        apply h'.1
        rw [hkey]
        exact List.mem_map_of_mem hm
      rw [Option.some.injEq]
      constructor
      · intro hm
        rw [hm.resolve_right hnot]
      · intro hval
        exact .inl (Prod.ext hkey.symm hval.symm)
    · next hkey =>
      rw [ih h'.2]
      constructor
      · rintro (rfl | hm)
        · exact absurd rfl hkey
        · exact hm
      · exact .inr

end Keyed

end SchemaBridge
