import CustomProperties.Entries
import Mathlib.Data.List.Induction

/-!
# Entries as tables

Entries whose keys are pairwise different are a table: the key of each row stands there once, and
putting a value under it changes that row and no other.

* `put_map_of_mem`, `get?_map_of_mem`: writing and reading one row of a table.
* `get?_ofPairs`, `keys_ofPairs`: pairs put in one after the other leave each key at its first place
  with its last value.
* `ofPairs_of_nodup`: pairs with different keys are put in as they come.
-/

namespace CustomProperties.Entries

variable {ι κ α : Type} [DecidableEq κ]

/-! ## One value put in -/

theorem get?_put (entries : Entries κ α) (key : κ) (value : α) (k : κ) :
    get? (put entries key value) k = if key = k then some value else get? entries k := by
  induction entries with
  | nil => rfl
  | cons entry rest ih =>
    obtain ⟨k', a⟩ := entry
    rw [put]
    by_cases h : k' = key
    · subst h
      rw [if_pos rfl, get?, get?]
      by_cases hk : k' = k
      · rw [if_pos hk, if_pos hk]
      · rw [if_neg hk, if_neg hk, if_neg hk]
    · rw [if_neg h, get?, get?, ih]
      by_cases hk : k' = k
      · rw [if_pos hk, if_pos hk, if_neg fun hKey => h (hk.trans hKey.symm)]
      · rw [if_neg hk, if_neg hk]

theorem keys_put (entries : Entries κ α) (key : κ) (value : α) :
    (put entries key value).map Prod.fst = if key ∈ entries.map Prod.fst then entries.map Prod.fst
      else entries.map Prod.fst ++ [key] := by
  induction entries with
  | nil => rfl
  | cons entry rest ih =>
    obtain ⟨k, a⟩ := entry
    rw [put]
    by_cases h : k = key
    · simp [h]
    · by_cases hMem : key ∈ rest.map Prod.fst
      · simp [h, ih, hMem]
      · simp [h, ih, hMem, Ne.symm h]

theorem put_put (entries : Entries κ α) (key : κ) (a b : α) :
    put (put entries key a) key b = put entries key b := by
  induction entries with
  | nil => simp [put]
  | cons entry rest ih =>
    obtain ⟨k, c⟩ := entry
    by_cases h : k = key
    · simp [put, h]
    · simp [put, h, ih]

/-- Values under two keys can be put in in either order, once the place of one is taken. -/
theorem put_comm {entries : Entries κ α} {key k : κ} (hMem : key ∈ entries.map Prod.fst)
    (hne : k ≠ key) (a b : α) :
    put (put entries key a) k b = put (put entries k b) key a := by
  induction entries with
  | nil => cases hMem
  | cons entry rest ih =>
    obtain ⟨k', c⟩ := entry
    by_cases h : k' = key
    · subst h
      simp [put, Ne.symm hne]
    · by_cases hk : k' = k
      · subst hk
        simp [put, h]
      · have hRest : key ∈ rest.map Prod.fst := by simpa [Ne.symm h] using hMem
        simp [put, h, hk, ih hRest]

theorem put_of_not_mem {entries : Entries κ α} {key : κ} (h : key ∉ entries.map Prod.fst)
    (value : α) : put entries key value = entries ++ [(key, value)] := by
  induction entries with
  | nil => rfl
  | cons entry rest ih =>
    obtain ⟨k, a⟩ := entry
    rw [List.map_cons, List.mem_cons, not_or] at h
    rw [put, if_neg (Ne.symm h.1), ih h.2, List.cons_append]

theorem get?_of_not_mem {entries : Entries κ α} {key : κ} (h : key ∉ entries.map Prod.fst) :
    get? entries key = none := by
  induction entries with
  | nil => rfl
  | cons entry rest ih =>
    obtain ⟨k, a⟩ := entry
    rw [List.map_cons, List.mem_cons, not_or] at h
    rw [get?, if_neg (Ne.symm h.1), ih h.2]

theorem get?_eq_some_iff {entries : Entries κ α} (h : (entries.map Prod.fst).Nodup) {key : κ}
    {value : α} : get? entries key = some value ↔ (key, value) ∈ entries := by
  induction entries with
  | nil => simp [get?]
  | cons entry rest ih =>
    obtain ⟨k, a⟩ := entry
    rw [List.map_cons, List.nodup_cons] at h
    by_cases hk : k = key
    · subst hk
      have hNew : (k, value) ∉ rest := fun hMem =>
        h.1 (List.mem_map.mpr ⟨(k, value), hMem, rfl⟩)
      simp [get?, hNew, eq_comm]
    · simp [get?, hk, Ne.symm hk, ih h.2]

/-! ## Pairs put in one after the other -/

def last? (pairs : List (κ × α)) (key : κ) : Option α :=
  (pairs.reverse.find? fun pair => pair.1 = key).map Prod.snd

theorem last?_append (pairs later : List (κ × α)) (key : κ) :
    last? (pairs ++ later) key = (last? later key).or (last? pairs key) := by
  rw [last?, List.reverse_append, List.find?_append, Option.map_or]
  rfl

theorem mem_of_last? {pairs : List (κ × α)} {key : κ} {a : α} (h : last? pairs key = some a) :
    (key, a) ∈ pairs := by
  obtain ⟨pair, hFind, rfl⟩ := Option.map_eq_some_iff.mp h
  have hKey : pair.1 = key := by simpa using List.find?_some hFind
  rw [← hKey]
  exact List.mem_reverse.mp (List.mem_of_find?_eq_some hFind)

theorem exists_last?_of_mem {pairs : List (κ × α)} {pair : κ × α} (h : pair ∈ pairs) :
    ∃ a, last? pairs pair.1 = some a := by
  rw [← Option.ne_none_iff_exists', last?, ne_eq, Option.map_eq_none_iff, List.find?_eq_none]
  intro hNone
  exact hNone pair (List.mem_reverse.mpr h) (decide_eq_true rfl)

theorem ofPairs_append_singleton (pairs : List (κ × α)) (pair : κ × α) :
    ofPairs (pairs ++ [pair]) = put (ofPairs pairs) pair.1 pair.2 := by
  rw [ofPairs, putAll, List.foldl_append]
  rfl

/-- **Each key has its last value**, -/
theorem get?_ofPairs (pairs : List (κ × α)) (key : κ) :
    get? (ofPairs pairs) key = last? pairs key := by
  induction pairs using List.reverseRecOn with
  | nil => rfl
  | append_singleton pairs pair ih =>
    rw [ofPairs_append_singleton, get?_put, ih, last?_append]
    by_cases h : pair.1 = key
    · simp [last?, h]
    · simp [last?, h]

/-- and **each key stands at its first place**. -/
theorem keys_ofPairs [BEq κ] [LawfulBEq κ] (pairs : List (κ × α)) :
    (ofPairs pairs).map Prod.fst = (pairs.map Prod.fst).eraseDups := by
  induction pairs using List.reverseRecOn with
  | nil => rfl
  | append_singleton pairs pair ih =>
    rw [ofPairs_append_singleton, keys_put, ih, List.map_append, List.eraseDups_append]
    by_cases h : pair.1 ∈ pairs.map Prod.fst
    · rw [if_pos (List.mem_eraseDups.mpr h)]
      simp [List.removeAll, h]
    · rw [if_neg fun hMem => h (List.mem_eraseDups.mp hMem)]
      simp [List.removeAll, h, List.eraseDups_cons]

theorem nodup_keys_ofPairs (pairs : List (κ × α)) : ((ofPairs pairs).map Prod.fst).Nodup := by
  induction pairs using List.reverseRecOn with
  | nil => exact List.nodup_nil
  | append_singleton pairs pair ih =>
    rw [ofPairs_append_singleton, keys_put]
    split
    · exact ih
    · rename_i hNew
      refine List.nodup_append.mpr ⟨ih, by simp, ?_⟩
      rintro key hKey _ hPair rfl
      rw [List.mem_singleton] at hPair
      exact hNew (hPair ▸ hKey)

theorem putAll_put {entries : Entries κ α} {key : κ} (hMem : key ∈ entries.map Prod.fst)
    {pairs : List (κ × α)} (hNew : key ∉ pairs.map Prod.fst) (value : α) :
    putAll (put entries key value) pairs = put (putAll entries pairs) key value := by
  induction pairs generalizing entries with
  | nil => rfl
  | cons pair pairs ih =>
    rw [List.map_cons, List.mem_cons, not_or] at hNew
    have hStill : key ∈ (put entries pair.1 pair.2).map Prod.fst := by
      rw [keys_put]
      split
      · exact hMem
      · exact List.mem_append_left _ hMem
    show putAll (put (put entries key value) pair.1 pair.2) pairs = _
    rw [put_comm hMem (Ne.symm hNew.1), ih hStill hNew.2]
    rfl

theorem putAll_put_right (entries : Entries κ α) {table : Entries κ α}
    (hTable : (table.map Prod.fst).Nodup) (key : κ) (value : α) :
    putAll entries (put table key value) = put (putAll entries table) key value := by
  induction table generalizing entries with
  | nil => rfl
  | cons row table ih =>
    obtain ⟨k, a⟩ := row
    rw [List.map_cons, List.nodup_cons] at hTable
    rw [put]
    by_cases h : k = key
    · subst h
      have hMem : k ∈ (put entries k a).map Prod.fst := by
        rw [keys_put]
        split
        · assumption
        · exact List.mem_append_right _ (List.mem_singleton_self k)
      have hPut := putAll_put hMem hTable.1 value
      rw [put_put] at hPut
      rw [if_pos rfl]
      exact hPut
    · rw [if_neg h]
      exact ih (put entries k a) hTable.2

theorem putAll_ofPairs (entries : Entries κ α) (pairs : List (κ × α)) :
    putAll entries (ofPairs pairs) = putAll entries pairs := by
  induction pairs using List.reverseRecOn with
  | nil => rfl
  | append_singleton pairs pair ih =>
    rw [ofPairs_append_singleton, putAll_put_right entries (nodup_keys_ofPairs pairs), ih, putAll,
      putAll, List.foldl_append]
    rfl

theorem putAll_of_nodup {entries : Entries κ α} {pairs : List (κ × α)}
    (h : ((entries ++ pairs).map Prod.fst).Nodup) : putAll entries pairs = entries ++ pairs := by
  induction pairs generalizing entries with
  | nil => rw [List.append_nil]; rfl
  | cons pair pairs ih =>
    have hNew : pair.1 ∉ entries.map Prod.fst := by
      rw [List.map_append, List.nodup_append] at h
      intro hMem
      exact h.2.2 _ hMem _ List.mem_cons_self rfl
    have hPut : putAll entries (pair :: pairs) = putAll (entries ++ [pair]) pairs := by
      rw [putAll, List.foldl_cons, put_of_not_mem hNew]
      rfl
    have hSplit : entries ++ pair :: pairs = entries ++ [pair] ++ pairs := by simp
    rw [hPut, hSplit]
    rw [hSplit] at h
    exact ih h

theorem ofPairs_of_nodup {pairs : List (κ × α)} (h : (pairs.map Prod.fst).Nodup) :
    ofPairs pairs = pairs := by
  show putAll [] pairs = [] ++ pairs
  exact putAll_of_nodup h

/-! ## Rows of a table -/

variable {key : ι → κ} {rows : List ι}

theorem put_map_of_mem (hKeys : (rows.map key).Nodup) {k : κ} (hk : k ∈ rows.map key)
    (f : ι → α) (value : α) : put (rows.map fun i => (key i, f i)) k value
      = rows.map fun i => (key i, if key i = k then value else f i) := by
  induction rows with
  | nil => cases hk
  | cons i rows ih =>
    rw [List.map_cons, List.nodup_cons] at hKeys
    rw [List.map_cons, List.map_cons, put]
    by_cases hi : key i = k
    · rw [if_pos hi, if_pos hi]
      congr 1
      refine List.map_congr_left fun j hj => ?_
      have hne : key j ≠ k := by
        rintro rfl
        exact hKeys.1 (hi ▸ List.mem_map_of_mem hj)
      rw [if_neg hne]
    · rw [if_neg hi, if_neg hi]
      rcases List.mem_cons.mp hk with rfl | hk
      · exact absurd rfl hi
      · rw [ih hKeys.2 hk]

theorem get?_map_of_mem (hKeys : (rows.map key).Nodup) (f : ι → α) {i : ι} (hi : i ∈ rows) :
    get? (rows.map fun i => (key i, f i)) (key i) = some (f i) := by
  induction rows with
  | nil => cases hi
  | cons j rows ih =>
    rw [List.map_cons, List.nodup_cons] at hKeys
    rw [List.map_cons, get?]
    rcases List.mem_cons.mp hi with rfl | hi
    · rw [if_pos rfl]
    · have hne : key j ≠ key i := by
        intro h
        exact hKeys.1 (h ▸ List.mem_map_of_mem hi)
      rw [if_neg hne, ih hKeys.2 hi]

end CustomProperties.Entries
