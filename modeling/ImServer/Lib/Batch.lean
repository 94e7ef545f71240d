import Mathlib.Data.List.Basic

/-!
# Cutting a list into batches

Items are collected until there are `n` of them, which go out together, and what is left goes out
at the end. Nothing is lost, repeated or moved at a cut.
-/

namespace Batch

universe u

variable {α : Type u}

/-- The batches of the items, the first of which has been begun. -/
def cut (n : Nat) : List α → List α → List (List α)
  | [], kept => if 0 < kept.length then [kept] else []
  | item :: items, kept =>
    let kept := kept ++ [item]
    if n ≤ kept.length then kept :: cut n items [] else cut n items kept

variable {n : Nat}

theorem flatten_cut (n : Nat) (items kept : List α) : (cut n items kept).flatten = kept ++ items := by
  induction items generalizing kept with
  | nil =>
    cases kept with
    | nil => rfl
    | cons item kept => simp [cut]
  | cons item items ih =>
    simp only [cut]
    split
    · rw [List.flatten_cons, ih, List.nil_append, List.append_assoc, List.singleton_append]
    · rw [ih, List.append_assoc, List.singleton_append]

theorem length_of_mem_cut {items kept batch : List α} (hkept : kept.length < n)
    (h : batch ∈ cut n items kept) : 0 < batch.length ∧ batch.length ≤ n := by
  induction items generalizing kept with
  | nil =>
    obtain ⟨hpos, hbatch⟩ := List.mem_ite_nil_right.mp h
    obtain rfl := List.mem_singleton.mp hbatch
    exact ⟨hpos, Nat.le_of_lt hkept⟩
  | cons item items ih =>
    have hlength : (kept ++ [item]).length = kept.length + 1 := List.length_append
    simp only [cut] at h
    split at h
    · obtain rfl | h := List.mem_cons.mp h
      · omega
      · have hempty : ([] : List α).length < n := Nat.zero_lt_of_lt hkept
        exact ih hempty h
    · exact ih (by omega) h

/-- The batches are the stretches of `n` items, the last of which may be shorter. -/
theorem mem_cut_append_iff {items kept batch : List α} (hkept : kept.length < n) :
    batch ∈ cut n items kept ↔
      ∃ k, n * k < (kept ++ items).length ∧ batch = ((kept ++ items).drop (n * k)).take n := by
  induction items generalizing kept with
  | nil =>
    simp only [cut, List.mem_ite_nil_right, List.mem_singleton, List.append_nil]
    constructor
    · rintro ⟨hpos, rfl⟩
      refine ⟨0, hpos, ?_⟩
      rw [Nat.mul_zero, List.drop_zero, List.take_of_length_le (Nat.le_of_lt hkept)]
    · rintro ⟨k, hk, rfl⟩
      have hzero : k = 0 := by
        by_contra hpos
        have := Nat.le_mul_of_pos_right n (Nat.pos_of_ne_zero hpos)
        omega
      subst hzero
      rw [Nat.mul_zero] at hk
      rw [Nat.mul_zero, List.drop_zero, List.take_of_length_le (Nat.le_of_lt hkept)]
      exact ⟨hk, rfl⟩
  | cons item items ih =>
    have happend : kept ++ item :: items = (kept ++ [item]) ++ items := by
      rw [List.append_assoc, List.singleton_append]
    have hlength : (kept ++ [item]).length = kept.length + 1 := List.length_append
    rw [happend]
    simp only [cut]
    split
    · have hfull : (kept ++ [item]).length = n := by omega
      have hempty : ([] : List α).length < n := Nat.zero_lt_of_lt hkept
      have hdrop : ∀ k, ((kept ++ [item]) ++ items).drop (n * (k + 1)) = items.drop (n * k) := by
        intro k
        rw [Nat.mul_succ, Nat.add_comm, ← List.drop_drop, List.drop_left' hfull]
      rw [List.mem_cons, ih hempty, List.nil_append]
      constructor
      · rintro (rfl | ⟨k, hk, rfl⟩)
        · refine ⟨0, ?_, ?_⟩
          · rw [Nat.mul_zero, List.length_append]
            omega
          · rw [Nat.mul_zero, List.drop_zero, List.take_left' hfull]
        · refine ⟨k + 1, ?_, ?_⟩
          · rw [Nat.mul_succ, List.length_append]
            omega
          · rw [hdrop]
      · rintro ⟨k, hk, rfl⟩
        cases k with
        | zero =>
          rw [Nat.mul_zero, List.drop_zero, List.take_left' hfull]
          exact .inl rfl
        | succ k =>
          rw [Nat.mul_succ, List.length_append] at hk
          refine .inr ⟨k, by omega, ?_⟩
          rw [hdrop]
    · exact ih (by omega)

theorem mem_cut_iff {items batch : List α} (hn : 0 < n) :
    batch ∈ cut n items [] ↔ ∃ k, n * k < items.length ∧ batch = (items.drop (n * k)).take n :=
  have hempty : ([] : List α).length < n := hn
  mem_cut_append_iff hempty

/-- Each batch is gone through with a value of its own. As no item comes up twice, this is the same
as going through the items, each with the value of its batch. -/
theorem exists_seen {β γ : Type*} [Inhabited γ] (f : γ → α → Option β)
    {looks : List (List α × γ)} (h : (looks.flatMap Prod.fst).Nodup) :
    ∃ seen : α → γ, (∀ look ∈ looks, ∀ a ∈ look.1, seen a = look.2) ∧
      looks.flatMap (fun look => look.1.filterMap (f look.2)) =
        (looks.flatMap Prod.fst).filterMap fun a => f (seen a) a := by
  classical
  induction looks with
  | nil => exact ⟨fun _ => default, nofun, rfl⟩
  | cons look looks ih =>
    rw [List.flatMap_cons, List.nodup_append] at h
    obtain ⟨-, hlooks, hdisjoint⟩ := h
    obtain ⟨seen, hseen, heq⟩ := ih hlooks
    have hother {a : α} (ha : a ∈ looks.flatMap Prod.fst) : a ∉ look.1 := fun hmem =>
      hdisjoint a hmem a ha rfl
    refine ⟨fun a => if a ∈ look.1 then look.2 else seen a, ?_, ?_⟩
    · refine List.forall_mem_cons.mpr ⟨fun a ha => if_pos ha, fun other hmem a ha => ?_⟩
      have hne : a ∉ look.1 := hother (List.mem_flatMap.mpr ⟨other, hmem, ha⟩)
      exact (if_neg hne).trans (hseen other hmem a ha)
    · rw [List.flatMap_cons, List.flatMap_cons, List.filterMap_append, heq]
      congr 1
      · exact List.filterMap_congr fun a ha => congrArg (f · a) (if_pos ha).symm
      · exact List.filterMap_congr fun a ha => congrArg (f · a) (if_neg (hother ha)).symm

end Batch
