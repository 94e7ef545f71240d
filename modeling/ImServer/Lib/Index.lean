import Mathlib.Logic.Function.Basic

/-!
# Partial maps that index items by a key

A map with keys of any type is a function to options; inserting and erasing are
`Function.update`. Such a map indexes a family of items when it finds each item
under the key that the item has, and nothing else. An operation that changes the
map and the key of one item together keeps the agreement.
-/

namespace Index

variable {κ : Type*} {ι : Type*} {find : κ → Option ι} {key : ι → Option κ} {k k' : κ} {i j : ι}

/-- What an entry of a changed map says about the map before. -/
theorem update_none_eq_some [DecidableEq κ] :
    Function.update find k none k' = some i ↔ k' ≠ k ∧ find k' = some i := by
  rw [Function.update_apply]
  split
  · next h => simp [h]
  · next h => simp [h]

theorem update_some_eq_some [DecidableEq κ] :
    Function.update find k (some j) k' = some i ↔ (k' = k ∧ j = i) ∨ (k' ≠ k ∧ find k' = some i) := by
  rw [Function.update_apply]
  split
  · next h => simp [h]
  · next h => simp [h]

/-- Every item is found exactly under its key, so that no two items have one key. -/
def Agrees (find : κ → Option ι) (key : ι → Option κ) : Prop :=
  ∀ k i, find k = some i ↔ key i = some k

namespace Agrees

theorem find_eq_none (agreed : Agrees find key) (unused : ∀ i, key i ≠ some k) : find k = none := by
  refine Option.eq_none_iff_forall_ne_some.mpr fun i hi => ?_
  exact unused i ((agreed k i).mp hi)

theorem eq_of_key (agreed : Agrees find key) (hi : key i = some k) (hj : key j = some k) : i = j :=
  Option.some.inj (((agreed k i).mpr hi).symm.trans ((agreed k j).mpr hj))

variable [DecidableEq ι]

theorem remove (agreed : Agrees find key) {find' : κ → Option ι}
    (exact : ∀ k, find' k = if find k = some i then none else find k) :
    Agrees find' (Function.update key i none) := by
  intro k' i'
  rw [exact, Function.update_apply]
  by_cases hi' : i' = i
  · subst hi'
    rw [if_pos rfl]
    split
    · simp
    · next hk' => simp [hk']
  · rw [if_neg hi']
    split
    · next hk' =>
      simp only [reduceCtorEq, false_iff]
      intro heq
      exact hi' (agreed.eq_of_key heq ((agreed k' i).mp hk'))
    · exact agreed k' i'

theorem of_key_eq (agreed : Agrees find key) {key' : Option κ} (same : key' = key i) :
    Agrees find (Function.update key i key') := by
  rwa [same, Function.update_eq_self]

variable [DecidableEq κ]

theorem insert (agreed : Agrees find key) (hk : find k = none) (hi : key i = none) :
    Agrees (Function.update find k (some i)) (Function.update key i (some k)) := by
  intro k' i'
  by_cases hk' : k' = k
  · subst hk'
    by_cases hi' : i' = i
    · subst hi'
      simp only [Function.update_self]
    · rw [Function.update_self, Function.update_of_ne hi', ← agreed, hk]
      simp [Ne.symm hi']
  · by_cases hi' : i' = i
    · subst hi'
      rw [Function.update_self, Function.update_of_ne hk', agreed, hi]
      simp [Ne.symm hk']
    · rw [Function.update_of_ne hk', Function.update_of_ne hi']
      exact agreed k' i'

/-- Erasing the key of an item is erasing every entry that refers to it. -/
theorem update_none_eq_ite (agreed : Agrees find key) (hi : key i = some k) (k' : κ) :
    Function.update find k none k' = if find k' = some i then none else find k' := by
  by_cases hk' : k' = k
  · rw [hk', Function.update_self, if_pos ((agreed k i).mpr hi)]
  · rw [Function.update_of_ne hk', if_neg]
    intro hfound
    rw [agreed, hi] at hfound
    exact hk' (Option.some.inj hfound).symm

/-- The item moves to a key that is free, also if that is its old one. -/
theorem move (agreed : Agrees find key) (hi : key i = some k) (hk' : find k' = none ∨ k' = k) :
    Agrees (Function.update (Function.update find k none) k' (some i))
      (Function.update key i (some k')) := by
  have hfree : Function.update find k none k' = none := by
    rcases hk' with hnone | rfl
    · rw [Function.update_apply, hnone, ite_self]
    · exact Function.update_self ..
  have hmoved := (agreed.remove (agreed.update_none_eq_ite hi)).insert hfree (Function.update_self ..)
  rwa [Function.update_idem] at hmoved

theorem assign (agreed : Agrees find key) (hk : find k = none ∨ find k = some i)
    (hi : key i = none ∨ key i = some k) :
    Agrees (Function.update find k (some i)) (Function.update key i (some k)) := by
  rcases hi with hnone | hsame
  · have hfree : find k = none := by
      refine hk.resolve_right fun hfound => ?_
      rw [agreed, hnone] at hfound
      cases hfound
    exact agreed.insert hfree hnone
  · have hmoved := agreed.move hsame (.inr rfl)
    rwa [Function.update_idem] at hmoved

end Agrees

/-- Whatever is found is found under its key. An item need not be found at all. -/
def Sound (find : κ → Option ι) (key : ι → Option κ) : Prop :=
  ∀ k i, find k = some i → key i = some k

namespace Sound

theorem find_ne (sound : Sound find key) (hi : key i = none) (k : κ) : find k ≠ some i := by
  intro hfound
  rw [sound k i hfound] at hi
  cases hi

theorem erase [DecidableEq κ] (sound : Sound find key) (k : κ) :
    Sound (Function.update find k none) key := by
  intro k' i hfound
  exact sound k' i (update_none_eq_some.mp hfound).2

variable [DecidableEq ι]

theorem rekey (sound : Sound find key) (unfound : ∀ k, find k ≠ some i) (k : Option κ) :
    Sound find (Function.update key i k) := by
  intro k' i' hfound
  have hne : i' ≠ i := by
    rintro rfl
    exact unfound k' hfound
  rw [Function.update_of_ne hne]
  exact sound k' i' hfound

/-- A new entry and key for an item that is found under no other key. -/
theorem assign [DecidableEq κ] (sound : Sound find key) (unfound : ∀ k' ≠ k, find k' ≠ some i) :
    Sound (Function.update find k (some i)) (Function.update key i (some k)) := by
  intro k' i' hfound
  obtain ⟨rfl, rfl⟩ | ⟨hk, hother⟩ := update_some_eq_some.mp hfound
  · exact Function.update_self ..
  · have hne : i' ≠ i := by
      rintro rfl
      exact unfound k' hk hother
    rw [Function.update_of_ne hne]
    exact sound k' i' hother

/-- Taking the key of an item away and erasing one entry: the item must not be found
elsewhere. -/
theorem remove_iff [DecidableEq κ] (sound : Sound find key) :
    Sound (Function.update find k none) (Function.update key i none) ↔
      ∀ k', key i = some k' → k' ≠ k → find k' ≠ some i := by
  constructor
  · intro hsound k' _ hk' hfound
    have hkey := hsound k' i (update_none_eq_some.mpr ⟨hk', hfound⟩)
    rw [Function.update_self] at hkey
    cases hkey
  · intro hother
    refine (sound.erase k).rekey ?_ none
    intro k' hfound
    obtain ⟨hk', hfound⟩ := update_none_eq_some.mp hfound
    exact hother k' (sound k' i hfound) hk' hfound

end Sound

end Index
