import Mathlib.Algebra.Order.Ring.Nat

/-!
# Base64

The encoding of bytes as a text over an alphabet of 64 characters. Three bytes are four digits, and
one or two bytes at the end are two or three digits and padding.

A register that bits are shifted into keeps the last of them: what was shifted in before does not
change a digit that is taken from the bits that are pending.
-/

namespace Base64

/-- The digits are the letters, the decimal digits, the plus and the slash. -/
def digit (n : ℕ) : UInt8 :=
  if n < 26 then UInt8.ofNat (65 + n)
  else if n < 52 then UInt8.ofNat (97 + (n - 26))
  else if n < 62 then UInt8.ofNat (48 + (n - 52))
  else if n = 62 then 43
  else 47

/-- What fills up the last group. -/
def padding : UInt8 := 61

def encode : List UInt8 → List UInt8
  | [] => []
  | [a] => [digit (a.toNat / 4), digit (a.toNat % 4 * 16), padding, padding]
  | [a, b] =>
    [digit (a.toNat / 4), digit (a.toNat % 4 * 16 + b.toNat / 16), digit (b.toNat % 16 * 4),
      padding]
  | a :: b :: c :: rest =>
    digit (a.toNat / 4) :: digit (a.toNat % 4 * 16 + b.toNat / 16) ::
      digit (b.toNat % 16 * 4 + c.toNat / 64) :: digit (c.toNat % 64) :: encode rest

theorem length_encode (bytes : List UInt8) :
    (encode bytes).length = (bytes.length + 2) / 3 * 4 := by
  induction bytes using encode.induct with
  | case1 => rfl
  | case2 a => simp [encode]
  | case3 a b => simp [encode]
  | case4 a b c rest ih =>
    simp only [encode, List.length_cons, ih]
    omega

theorem shiftIn_mod (acc : ℕ) {v bits k w : ℕ} (hv : v < 2 ^ k) (hw : bits + k ≤ w) :
    ((acc <<< k) % 2 ^ w ||| v) % 2 ^ (bits + k) = acc % 2 ^ bits * 2 ^ k + v := by
  obtain ⟨more, rfl⟩ := Nat.exists_eq_add_of_le hw
  have hmask : (acc <<< k) % 2 ^ (bits + k + more) = (acc % 2 ^ (bits + more)) <<< k := by
    rw [Nat.shiftLeft_eq, Nat.shiftLeft_eq, Nat.add_right_comm bits k more, Nat.pow_add,
      Nat.mul_mod_mul_right]
  have hlow : acc % 2 ^ (bits + more) % 2 ^ bits = acc % 2 ^ bits :=
    Nat.mod_mod_of_dvd _ (Nat.pow_dvd_pow 2 (Nat.le_add_right bits more))
  have hquot : (acc % 2 ^ (bits + more) * 2 ^ k + v) / 2 ^ k = acc % 2 ^ (bits + more) := by
    rw [Nat.mul_comm, Nat.mul_add_div (Nat.two_pow_pos k), Nat.div_eq_of_lt hv, Nat.add_zero]
  rw [hmask, ← Nat.shiftLeft_add_eq_or_of_lt hv, Nat.shiftLeft_eq, Nat.add_comm bits k,
    Nat.pow_add 2 k bits, Nat.mod_mul, Nat.mul_add_mod_of_lt hv, hquot, hlow, Nat.add_comm v,
    Nat.mul_comm]

theorem shiftOut_eq (acc j k : ℕ) :
    (acc >>> j) &&& (2 ^ k - 1) = acc % 2 ^ (j + k) / 2 ^ j := by
  rw [Nat.and_two_pow_sub_one_eq_mod, Nat.shiftRight_eq_div_pow, Nat.pow_add,
    Nat.mod_mul_right_div_self]

end Base64
