import Mathlib.Algebra.Order.Ring.Nat

/-!
# Base64url

The encoding of bytes as a text over an alphabet of 64 characters that may stand in a URL, without
padding. Three bytes are four digits, and one or two bytes at the end are two or three.
-/

namespace Base64url

/-- The digits are the letters, the decimal digits, the minus and the underscore. -/
def digit (n : ℕ) : UInt8 :=
  if n < 26 then UInt8.ofNat (65 + n)
  else if n < 52 then UInt8.ofNat (97 + (n - 26))
  else if n < 62 then UInt8.ofNat (48 + (n - 52))
  else if n = 62 then 45
  else 95

def encode : List UInt8 → List UInt8
  | [] => []
  | [a] => [digit (a.toNat / 4), digit (a.toNat % 4 * 16)]
  | [a, b] =>
    [digit (a.toNat / 4), digit (a.toNat % 4 * 16 + b.toNat / 16), digit (b.toNat % 16 * 4)]
  | a :: b :: c :: rest =>
    digit (a.toNat / 4) :: digit (a.toNat % 4 * 16 + b.toNat / 16) ::
      digit (b.toNat % 16 * 4 + c.toNat / 64) :: digit (c.toNat % 64) :: encode rest

/-- A text of `n` bytes has `4 * n / 3` digits, rounded up. -/
theorem length_encode (bytes : List UInt8) :
    (encode bytes).length = (4 * bytes.length + 2) / 3 := by
  induction bytes using encode.induct with
  | case1 => rfl
  | case2 a => simp [encode]
  | case3 a b => simp [encode]
  | case4 a b c rest ih =>
    simp only [encode, List.length_cons, ih]
    omega

theorem length_encode_lt {bytes bytes' : List UInt8} (h : bytes.length < bytes'.length) :
    (encode bytes).length < (encode bytes').length := by
  rw [length_encode, length_encode]
  omega

theorem exists_digit_of_mem {bytes : List UInt8} {c : UInt8} (hc : c ∈ encode bytes) :
    ∃ n, c = digit n := by
  induction bytes using encode.induct with
  | case1 => cases hc
  | case2 a =>
    simp only [encode, List.mem_cons, List.not_mem_nil, or_false] at hc
    obtain rfl | rfl := hc
    · exact ⟨_, rfl⟩
    · exact ⟨_, rfl⟩
  | case3 a b =>
    simp only [encode, List.mem_cons, List.not_mem_nil, or_false] at hc
    obtain rfl | rfl | rfl := hc
    · exact ⟨_, rfl⟩
    · exact ⟨_, rfl⟩
    · exact ⟨_, rfl⟩
  | case4 a b c' rest ih =>
    simp only [encode, List.mem_cons] at hc
    obtain rfl | rfl | rfl | rfl | hc := hc
    · exact ⟨_, rfl⟩
    · exact ⟨_, rfl⟩
    · exact ⟨_, rfl⟩
    · exact ⟨_, rfl⟩
    · exact ih hc

/-- A character below the first digit but the minus does not occur. -/
theorem not_mem_encode {bytes : List UInt8} {c : UInt8} (hlt : c < 48) (hne : c ≠ 45) :
    c ∉ encode bytes := by
  intro hmem
  obtain ⟨n, rfl⟩ := exists_digit_of_mem hmem
  rw [UInt8.lt_iff_toNat_lt] at hlt
  have hfortyEight : (48 : UInt8).toNat = 48 := rfl
  simp only [digit] at hlt hne
  split at hlt
  · rw [UInt8.toNat_ofNat'] at hlt
    omega
  split at hlt
  · rw [UInt8.toNat_ofNat'] at hlt
    omega
  split at hlt
  · rw [UInt8.toNat_ofNat'] at hlt
    omega
  split at hlt
  · next h26 h52 h62 hn => simp [hn] at hne
  · exact absurd hlt (by decide)

end Base64url
