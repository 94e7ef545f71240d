import Mathlib.Data.List.AList

/-!
# Tables with a unique key

Rows of a table, or fields of a hash, each under its own key. What is counted over all rows
changes with an insert by what the new row and the one it replaces count.
-/

universe u v

/-- Rows with values in `ν` under unique keys in `κ`. -/
abbrev Table (κ : Type u) (ν : Type v) := AList fun _ : κ => ν

namespace Table

variable {κ : Type u} {ν : Type v} [DecidableEq κ]

/-- How many rows have a value with the property, which is what `count(*)` with a condition
gives. -/
def count (p : ν → Bool) (t : Table κ ν) : Nat := t.entries.countP fun row => p row.2

/-- An update of the row with a key, if there is one. -/
def update (k : κ) (v : ν) (t : Table κ ν) : Table κ ν := if k ∈ t then t.insert k v else t

/-- The same value under several keys. -/
def insertAll (ks : List κ) (v : ν) (t : Table κ ν) : Table κ ν :=
  ks.foldl (fun t k => t.insert k v) t

/-- The rows whose value has the property. -/
def select (p : ν → Bool) (t : Table κ ν) : Table κ ν :=
  ⟨t.entries.filter fun row => p row.2, t.nodupKeys.sublist List.filter_sublist⟩

variable {p : ν → Bool} {t : Table κ ν} {k k' : κ} {v w : ν}

theorem countP_kerase (p : ν → Bool) (k : κ) (rows : List (Σ _ : κ, ν)) :
    (rows.kerase k).countP (fun row => p row.2) + (if (rows.dlookup k).any p then 1 else 0) =
      rows.countP fun row => p row.2 := by
  induction rows with
  | nil => rfl
  | cons row rows ih =>
    by_cases hk : k = row.1
    · obtain ⟨k', v⟩ := row
      obtain rfl : k = k' := hk
      have herase : List.kerase k (⟨k, v⟩ :: rows) = rows := List.kerase_cons_eq rfl
      have hlookup : List.dlookup k (⟨k, v⟩ :: rows) = some v := List.dlookup_cons_eq ..
      rw [herase, hlookup, List.countP_cons]
      rfl
    · rw [List.kerase_cons_ne hk, List.dlookup_cons_ne _ _ hk]
      simp only [List.countP_cons]
      omega

/-- The new row counts, and the one that had its key does not any more. -/
theorem count_insert (p : ν → Bool) (t : Table κ ν) (k : κ) (v : ν) :
    count p (t.insert k v) + (if (t.lookup k).any p then 1 else 0) =
      count p t + if p v then 1 else 0 := by
  have herase : (t.entries.kerase k).countP (fun row => p row.2) +
      (if (t.lookup k).any p then 1 else 0) = count p t := countP_kerase p k t.entries
  have hentries : count p (t.insert k v) =
      (t.entries.kerase k).countP (fun row => p row.2) + if p v then 1 else 0 := by
    rw [count, AList.entries_insert, List.countP_cons]
  omega

theorem count_pos (h : t.lookup k = some v) (hv : p v = true) : 0 < count p t := by
  have herase : (t.entries.kerase k).countP (fun row => p row.2) +
      (if (t.lookup k).any p then 1 else 0) = count p t := countP_kerase p k t.entries
  rw [h, Option.any_some, if_pos hv] at herase
  omega

omit [DecidableEq κ] in
theorem eq_empty (h : t.entries.length = 0) : t = ∅ :=
  AList.ext (List.eq_nil_of_length_eq_zero h)

omit [DecidableEq κ] in
theorem select_eq_empty_iff : t.select p = ∅ ↔ count p t = 0 := by
  rw [AList.ext_iff]
  exact List.filter_eq_nil_iff.trans List.countP_eq_zero.symm

theorem lookup_update : (t.update k v).lookup k' =
    if k' = k then (t.lookup k).map fun _ => v else t.lookup k' := by
  unfold update
  by_cases hmem : k ∈ t
  · rw [if_pos hmem]
    by_cases hk : k' = k
    · subst hk
      obtain ⟨w, hw⟩ := Option.isSome_iff_exists.mp (AList.lookup_isSome.mpr hmem)
      simp [hw]
    · simp [hk]
  · rw [if_neg hmem]
    split
    · next hk =>
      subst hk
      simp [AList.lookup_eq_none.mpr hmem]
    · rfl

theorem update_of_lookup (h : t.lookup k = some w) (v : ν) : t.update k v = t.insert k v :=
  if_pos (AList.lookup_isSome.mp (h ▸ rfl))

theorem lookup_insertAll (ks : List κ) (v : ν) (t : Table κ ν) :
    (t.insertAll ks v).lookup k = if k ∈ ks then some v else t.lookup k := by
  induction ks generalizing t with
  | nil => rfl
  | cons k₀ ks ih =>
    rw [insertAll, List.foldl_cons]
    refine (ih (t.insert k₀ v)).trans ?_
    by_cases hk : k = k₀
    · subst hk
      simp
    · simp [hk]

theorem count_insertAll {ks : List κ} (hnodup : ks.Nodup) (hv : p v = true)
    (hnew : ∀ k ∈ ks, (t.lookup k).any p = false) :
    count p (t.insertAll ks v) = count p t + ks.length := by
  induction ks generalizing t with
  | nil => rfl
  | cons k ks ih =>
    obtain ⟨hk, hnodup⟩ := List.nodup_cons.mp hnodup
    have hcount : count p (t.insert k v) = count p t + 1 := by
      have hcount := count_insert p t k v
      rwa [hnew k List.mem_cons_self, hv] at hcount
    have hrest : ∀ k' ∈ ks, (AList.lookup k' (t.insert k v)).any p = false := by
      intro k' hk'
      have hne : k' ≠ k := by
        rintro rfl
        exact hk hk'
      rw [AList.lookup_insert_ne hne]
      exact hnew k' (List.mem_cons_of_mem _ hk')
    have hih := ih hnodup hrest
    simp only [insertAll, List.foldl_cons, List.length_cons] at hih ⊢
    omega

theorem dlookup_filter {rows : List (Σ _ : κ, ν)} (hnodup : rows.NodupKeys) :
    (rows.filter fun row => p row.2).dlookup k = (rows.dlookup k).filter p := by
  induction rows with
  | nil => rfl
  | cons row rows ih =>
    obtain ⟨hnot, hrows⟩ := List.nodupKeys_cons.mp hnodup
    have ih := ih hrows
    by_cases hk : k = row.1
    · obtain ⟨k', v⟩ := row
      obtain rfl : k = k' := hk
      have hlookup : List.dlookup k (⟨k, v⟩ :: rows) = some v := List.dlookup_cons_eq ..
      cases hp : p v with
      | true =>
        rw [List.filter_cons_of_pos (by exact hp), hlookup, Option.filter_some_pos hp]
        exact List.dlookup_cons_eq ..
      | false =>
        have hnone : rows.dlookup k = none := List.dlookup_eq_none.mpr hnot
        rw [List.filter_cons_of_neg (by simp [hp]), ih, hnone, hlookup]
        exact (Option.filter_some_neg (by simp [hp])).symm
    · rw [List.dlookup_cons_ne _ _ hk, ← ih]
      cases hp : p row.2 with
      | true => rw [List.filter_cons_of_pos (by exact hp), List.dlookup_cons_ne _ _ hk]
      | false => rw [List.filter_cons_of_neg (by simp [hp])]

theorem lookup_select : (t.select p).lookup k = (t.lookup k).filter p :=
  dlookup_filter t.nodupKeys

end Table
