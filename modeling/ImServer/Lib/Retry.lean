import Mathlib.Data.Nat.Notation

/-!
# Repeated attempts

An operation is repeated while its outcome asks for it, and at most a given number of times. The
outcomes of the attempts are given with their numbers, and what is followed is the number of the
last attempt.
-/

namespace Retry

variable {α : Type*} (again : α → Bool) (attempt : ℕ → α)

/-- The last attempt from `n` on, if `left` repetitions are left. -/
def last : ℕ → ℕ → ℕ
  | 0, n => n
  | left + 1, n => if again (attempt n) then last left (n + 1) else n

variable {again attempt} {left n : ℕ}

theorem last_le : last again attempt left n ≤ n + left := by
  induction left generalizing n with
  | zero => exact Nat.le_refl n
  | succ left ih =>
    rw [last]
    split
    · exact Nat.le_trans ih (Nat.le_of_eq (by rw [Nat.add_right_comm, Nat.add_assoc]))
    · exact Nat.le_add_right n _

theorem again_of_lt_last {m : ℕ} (hm : n ≤ m) (hlt : m < last again attempt left n) :
    again (attempt m) = true := by
  induction left generalizing n with
  | zero => exact absurd hm (Nat.not_le.mpr hlt)
  | succ left ih =>
    rw [last] at hlt
    split at hlt
    · next hagain =>
      obtain rfl | hlater := Nat.eq_or_lt_of_le hm
      · exact hagain
      · exact ih hlater hlt
    · exact absurd hm (Nat.not_le.mpr hlt)

/-- The last repetition is reached if all earlier outcomes ask for the next one. -/
theorem last_eq (h : ∀ m, n ≤ m → m < n + left → again (attempt m) = true) :
    last again attempt left n = n + left := by
  induction left generalizing n with
  | zero => rfl
  | succ left ih =>
    rw [last, if_pos (h n (Nat.le_refl n) (Nat.lt_add_of_pos_right (Nat.succ_pos left)))]
    refine (ih fun m hm hlt => h m (Nat.le_of_succ_le hm) ?_).trans ?_
    · rwa [Nat.add_right_comm n 1 left] at hlt
    · exact Nat.add_right_comm n 1 left

theorem last_eq_iff :
    last again attempt left n = n + left ↔ ∀ m, n ≤ m → m < n + left → again (attempt m) = true :=
  ⟨fun h _ hm hlt => again_of_lt_last hm (h ▸ hlt), last_eq⟩

end Retry
