import Mathlib.Algebra.Group.Nat.Defs

/-!
# Hexadecimal digits

Numbers are written with `Nat.toDigits 16`, padded to a width with zeros on the left, and
read back digit by digit. Digits of both cases are read, lower case ones are written.
-/

namespace Hex

/-- The value of a digit. -/
def value? (c : Char) : Option Nat :=
  if '0' ≤ c ∧ c ≤ '9' then some (c.toNat - '0'.toNat)
  else if 'a' ≤ c ∧ c ≤ 'f' then some (c.toNat - 'a'.toNat + 10)
  else if 'A' ≤ c ∧ c ≤ 'F' then some (c.toNat - 'A'.toNat + 10)
  else none

def isDigit (c : Char) : Bool := (value? c).isSome

/-- The number that digits stand for, the highest digit first. -/
def ofDigits (digits : List Char) : Nat :=
  digits.foldl (fun n c => 16 * n + (value? c).getD 0) 0

/-- The digits of a number, with zeros on the left up to the width `w`. -/
def padded (w n : Nat) : List Char :=
  List.replicate (w - (Nat.toDigits 16 n).length) '0' ++ Nat.toDigits 16 n

theorem value?_digitChar {d : Nat} (h : d < 16) : value? d.digitChar = some d := by
  revert d
  decide

/-- A decimal or lower case digit is none of the other characters of a number. -/
theorem digitChar_ne {d : Nat} (h : d < 16) :
    d.digitChar ≠ '-' ∧ d.digitChar ≠ '+' ∧ d.digitChar ≠ 'x' ∧ d.digitChar ≠ 'X' := by
  revert d
  decide

theorem foldl_replicate_zero (k : Nat) :
    (List.replicate k '0').foldl (fun n c => 16 * n + (value? c).getD 0) 0 = 0 := by
  induction k with
  | zero => rfl
  | succ k ih => exact ih

theorem ofDigits_toDigits (n : Nat) : ofDigits (Nat.toDigits 16 n) = n := by
  induction n using Nat.base_induction 16 (by decide) with
  | single m hm =>
    rw [Nat.toDigits_of_lt_base hm]
    simp [ofDigits, value?_digitChar hm]
  | digit m k hk hm ih =>
    rw [← Nat.toDigits_append_toDigits (by decide) hm hk, ofDigits, List.foldl_append]
    rw [ofDigits] at ih
    rw [ih, Nat.toDigits_of_lt_base hk]
    simp [value?_digitChar hk]

theorem ofDigits_padded (w n : Nat) : ofDigits (padded w n) = n := by
  rw [ofDigits, padded, List.foldl_append, foldl_replicate_zero]
  exact ofDigits_toDigits n

theorem length_padded {w n : Nat} (hw : 0 < w) (hn : n < 16 ^ w) : (padded w n).length = w := by
  have hle : (Nat.toDigits 16 n).length ≤ w := (Nat.length_toDigits_le_iff (by decide) hw).mpr hn
  rw [padded, List.length_append, List.length_replicate]
  exact Nat.sub_add_cancel hle

theorem mem_toDigits {c : Char} {n : Nat} (hc : c ∈ Nat.toDigits 16 n) :
    ∃ d, d < 16 ∧ c = d.digitChar := by
  induction n using Nat.base_induction 16 (by decide) with
  | single m hm =>
    rw [Nat.toDigits_of_lt_base hm, List.mem_singleton] at hc
    exact ⟨m, hm, hc⟩
  | digit m k hk hm ih =>
    rw [← Nat.toDigits_append_toDigits (by decide) hm hk, List.mem_append] at hc
    rcases hc with hc | hc
    · exact ih hc
    · rw [Nat.toDigits_of_lt_base hk, List.mem_singleton] at hc
      exact ⟨k, hk, hc⟩

theorem mem_padded {c : Char} {w n : Nat} (hc : c ∈ padded w n) :
    ∃ d, d < 16 ∧ c = d.digitChar := by
  rcases List.mem_append.mp hc with hc | hc
  · exact ⟨0, by decide, List.eq_of_mem_replicate hc⟩
  · exact mem_toDigits hc

theorem isDigit_padded {c : Char} {w n : Nat} (hc : c ∈ padded w n) : isDigit c = true := by
  obtain ⟨d, hd, rfl⟩ := mem_padded hc
  rw [isDigit, value?_digitChar hd]
  rfl

end Hex
