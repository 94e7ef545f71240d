import ImServer.Base.JsonReader
import ImServer.Lib.JsonText
import Mathlib.Data.Bool.AllAny

/-!
# The literals of JSON

What `Json::Reader` makes of the numbers and strings that JSON has. A string is read for what its
escapes stand for. An integer that fits 64 bits is read for itself, and any other number is left to
`sscanf`.
-/

namespace ImServer

namespace Json

open JsonText (Chars IntLiteral RealLiteral Numeric)

theorem length_mul_le_ofDigitChars (chars : List Char) (value : ℕ) :
    10 ^ chars.length * value ≤ Nat.ofDigitChars 10 chars value := by
  rw [Nat.ofDigitChars_eq_ofDigitChars_zero]
  exact Nat.le_add_right _ _

theorem decodeDigits_digits {maxIntegerValue : ℕ} (hmax : 10 ≤ maxIntegerValue) {chars : List Char}
    (hdigits : ∀ c ∈ chars, c.isDigit = true) {value : ℕ}
    (h : Nat.ofDigitChars 10 chars value ≤ maxIntegerValue) :
    decodeDigits maxIntegerValue value (chars.flatMap String.utf8EncodeChar) =
      .value (Nat.ofDigitChars 10 chars value) := by
  induction chars generalizing value with
  | nil => rfl
  | cons c chars ih =>
    obtain ⟨hc, hchars⟩ := List.forall_mem_cons.mp hdigits
    obtain ⟨b, hb, hlow, hhigh, rfl⟩ := CText.utf8EncodeChar_of_isDigit hc
    have hdigit : isDigit b = true := by simp [isDigit, hlow, hhigh]
    have hvalue : (Char.ofNat b.toNat).toNat - '0'.toNat = (b - 48).toNat := by
      have hall : ∀ n ≤ 57, 48 ≤ n →
          (Char.ofNat n).toNat - '0'.toNat = (UInt8.ofNat n - 48).toNat := by decide
      have hbyte := hall b.toNat hhigh hlow
      rwa [UInt8.ofNat_toNat] at hbyte
    rw [Nat.ofDigitChars_cons, hvalue, Nat.mul_comm] at h ⊢
    have hnext := length_mul_le_ofDigitChars chars (value * 10 + (b - 48).toNat)
    rw [List.flatMap_cons, hb, List.singleton_append, decodeDigits, if_pos hdigit, if_neg,
      ih hchars h]
    rintro ⟨hthreshold, hlarge⟩
    have hone : value * 10 + (b - 48).toNat ≤ maxIntegerValue :=
      (Nat.le_mul_of_pos_left _ (by positivity)).trans (hnext.trans h)
    rcases hlarge with hlarge | hrest | hlarge
    · omega
    · have hne : chars ≠ [] := by
        rintro rfl
        exact hrest rfl
      have hten : 10 ^ 1 ≤ 10 ^ chars.length :=
        Nat.pow_le_pow_right (by decide) (List.length_pos_iff.mpr hne)
      have htwo := (Nat.mul_le_mul_right (value * 10 + (b - 48).toNat) hten).trans (hnext.trans h)
      omega
    · omega

theorem decodeDigits_toString {maxIntegerValue n : ℕ} (hmax : 10 ≤ maxIntegerValue)
    (h : n ≤ maxIntegerValue) :
    decodeDigits maxIntegerValue 0 (CText.bytes (toString n)) = .value n := by
  have hvalue : Nat.ofDigitChars 10 (Nat.toDigits 10 n) 0 = n := Nat.ofDigitChars_ten_toDigits
  rw [CText.bytes, Nat.toString_eq_repr, Nat.toList_repr, decodeDigits_digits hmax
    (fun c => CText.isDigit_of_mem_toDigits) (hvalue.trans_le h), hvalue]

theorem isDouble_eq_false {text : List UInt8} (h : ∀ b ∈ text, b = 45 ∨ (48 ≤ b ∧ b ≤ 57))
    (htail : 45 ∉ text.tail) : isDouble text = false := by
  have hchar : ∀ b : UInt8, b = 45 ∨ (48 ≤ b ∧ b ≤ 57) →
      (b = 46 || b = 101 || b = 69 || b = 43) = false := by
    rintro b (rfl | ⟨hlow, hhigh⟩)
    · decide
    · have hne : ∀ c : UInt8, c < 48 ∨ 57 < c → b ≠ c := by
        rintro c hc rfl
        exact hc.elim (fun hlt => absurd hlow (UInt8.not_le.mpr hlt))
          fun hlt => absurd hhigh (UInt8.not_le.mpr hlt)
      simp [hne 46 (by decide), hne 101 (by decide), hne 69 (by decide), hne 43 (by decide)]
  rw [isDouble, Bool.or_eq_false_iff, List.any_eq_false, List.any_eq_false]
  refine ⟨fun b hb => ?_, fun b hb => ?_⟩
  · rw [hchar b (h b hb)]
    exact Bool.false_ne_true
  · rw [decide_eq_true_eq]
    rintro rfl
    exact htail hb

theorem forty_five_not_mem_toString (n : ℕ) : 45 ∉ CText.bytes (toString n) := fun hmem =>
  absurd (CText.mem_bytes_toString hmem).1 (by decide)

/-- What is read from an integer that fits 64 bits: an `int` if it is no larger than one, and else
an unsigned number. -/
def ofInt (n : ℤ) : Node := if n ≤ 2 ^ 31 - 1 then .int n else .uint n.toNat

theorem decodeNumber_natCast (scan : Scan) {n : ℕ} (h : n < 2 ^ 64) :
    decodeNumber scan (CText.bytes (toString n)) = some (ofInt n) := by
  have hdouble : isDouble (CText.bytes (toString n)) = false :=
    isDouble_eq_false (fun b hb => .inr (CText.mem_bytes_toString hb)) fun hmem =>
      forty_five_not_mem_toString n (List.mem_of_mem_tail hmem)
  have hhead : (CText.bytes (toString n)).head? ≠ some 45 := fun heq =>
    forty_five_not_mem_toString n (List.mem_of_head? heq)
  have hdigits : decodeDigits (2 ^ 64 - 1) 0 (CText.bytes (toString n)) = .value n :=
    decodeDigits_toString (by decide) (Nat.le_sub_one_of_lt h)
  rw [decodeNumber, hdouble, if_neg Bool.false_ne_true, if_neg hhead, hdigits, ofInt]
  exact congrArg some (if_congr (by omega) rfl rfl)

theorem decodeNumber_negSucc (scan : Scan) {n : ℕ} (h : n < 2 ^ 63) :
    decodeNumber scan (CText.bytes (toString (Int.negSucc n))) = some (ofInt (Int.negSucc n)) := by
  have hdouble : isDouble (45 :: CText.bytes (toString (n + 1))) = false :=
    isDouble_eq_false
      (List.forall_mem_cons.mpr ⟨.inl rfl, fun b hb => .inr (CText.mem_bytes_toString hb)⟩)
      (forty_five_not_mem_toString (n + 1))
  have hdigits : decodeDigits (2 ^ 63) 0 (CText.bytes (toString (n + 1))) = .value (n + 1) :=
    decodeDigits_toString (by decide) h
  rw [CText.bytes_toString_negSucc, decodeNumber, hdouble, if_neg Bool.false_ne_true, List.head?_cons,
    if_pos rfl, List.tail_cons, hdigits, ofInt, if_pos (by omega)]
  rfl

theorem decodeNumber_toString (scan : Scan) {n : ℤ} (hlow : -2 ^ 63 ≤ n) (hhigh : n < 2 ^ 64) :
    decodeNumber scan (CText.bytes (toString n)) = some (ofInt n) := by
  cases n with
  | ofNat n => exact decodeNumber_natCast scan (Int.ofNat_lt.mp hhigh)
  | negSucc n => exact decodeNumber_negSucc scan (by omega)

theorem readString_cons {c : UInt8} (hquote : c ≠ 34) (hbackslash : c ≠ 92) (rest : List UInt8) :
    readString (c :: rest) = (readString rest).map fun (raw, rest) => (c :: raw, rest) := by
  cases rest with
  | nil => simp [readString, hquote]
  | cons d rest => rw [readString, if_neg hquote, if_neg hbackslash]

theorem readString_backslash (d : UInt8) (rest : List UInt8) :
    readString (92 :: d :: rest) =
      (readString rest).map fun (raw, rest) => (92 :: d :: raw, rest) :=
  rfl

theorem decodeString_cons {c : UInt8} (hquote : c ≠ 34) (hbackslash : c ≠ 92) (raw : List UInt8) :
    decodeString (c :: raw) = (decodeString raw).map (c :: ·) := by
  rw [decodeString, if_neg hquote, if_neg hbackslash]

theorem decodeString_backslash {raw rest decoded : List UInt8}
    (h : decodeEscape raw = some (decoded, rest)) :
    decodeString (92 :: raw) = (decodeString rest).map (decoded ++ ·) := by
  rw [decodeString, if_neg (by decide), if_pos rfl]
  split
  · next hnone =>
    rw [h] at hnone
    cases hnone
  · next hsome =>
    rw [h] at hsome
    cases hsome
    rfl

section Texts

variable {a b c d : UInt8} {n m : ℕ} {text s rest : List UInt8}

theorem shortEscape_eq_some (h : (d, c) ∈ JsonText.shortEscapes) : shortEscape d = some c := by
  have hall : ∀ p ∈ JsonText.shortEscapes, shortEscape p.1 = some p.2 :=
    List.all_iff_forall_prop.mp (by decide)
  exact hall _ h

theorem toNat_ofNat {n : ℕ} (h : n < 2 ^ 32) : (UInt32.ofNat n).toNat = n :=
  UInt32.toNat_ofNat_of_lt' h

theorem toUInt32_letter (h : d ≤ c) (hlt : c.toNat < d.toNat + 6) :
    (c - d + 10).toUInt32 = UInt32.ofNat (c.toNat - d.toNat + 10) := by
  have hsub := UInt8.toNat_sub_of_le _ _ h
  rw [← UInt32.toNat_inj, UInt8.toNat_toUInt32, UInt8.toNat_add, hsub,
    toNat_ofNat (by omega)]
  exact Nat.mod_eq_of_lt (by simp only [UInt8.reduceToNat]; omega)

theorem hexValue_eq_some (h : JsonText.hexValue c = some n) :
    hexValue c = some (UInt32.ofNat n) ∧ n < 16 ∧ c ≠ 34 ∧ c ≠ 92 := by
  have hquote : c ≠ 34 := by
    rintro rfl
    cases h
  have hbackslash : c ≠ 92 := by
    rintro rfl
    cases h
  rw [JsonText.hexValue] at h
  rw [hexValue]
  have hdigit : isDigit c = true ↔ 48 ≤ c ∧ c ≤ 57 := by simp [isDigit]
  split at h
  · next hc =>
    have hhigh : c.toNat ≤ 57 := hc.2
    have hsub : (c - 48).toUInt32 = UInt32.ofNat (c.toNat - 48) := by
      rw [← UInt32.toNat_inj, UInt8.toNat_toUInt32, UInt8.toNat_sub_of_le _ _ hc.1,
        toNat_ofNat (by omega)]
      rfl
    cases h
    rw [if_pos (hdigit.mpr hc), hsub]
    exact ⟨rfl, by omega, hquote, hbackslash⟩
  · next hc =>
    rw [if_neg (fun h => hc (hdigit.mp h))]
    split at h
    · next hlower =>
      have hhigh : c.toNat ≤ 102 := hlower.2
      have hlow : 97 ≤ c.toNat := hlower.1
      cases h
      rw [if_pos hlower, toUInt32_letter hlower.1 (by simp only [UInt8.reduceToNat]; omega)]
      refine ⟨?_, by omega, hquote, hbackslash⟩
      rw [show c.toNat - (97 : UInt8).toNat + 10 = c.toNat - 87 by
        simp only [UInt8.reduceToNat]; omega]
    · next hlower =>
      split at h
      · next hupper =>
        have hhigh : c.toNat ≤ 70 := hupper.2
        have hlow : 65 ≤ c.toNat := hupper.1
        cases h
        rw [if_neg hlower, if_pos hupper,
          toUInt32_letter hupper.1 (by simp only [UInt8.reduceToNat]; omega)]
        refine ⟨?_, by omega, hquote, hbackslash⟩
        rw [show c.toNat - (65 : UInt8).toNat + 10 = c.toNat - 55 by
          simp only [UInt8.reduceToNat]; omega]
      · cases h

/-- What is known of four digits. -/
structure Code (a b c d : UInt8) (n : ℕ) : Prop where
  decode : ∀ rest,
    decodeUnicodeEscapeSequence (a :: b :: c :: d :: rest) = some (UInt32.ofNat n, rest)
  lt : n < 65536
  plain : ∀ x ∈ [a, b, c, d], x ≠ 34 ∧ x ≠ 92

theorem code_of_hexCode (h : JsonText.hexCode a b c d = some n) : Code a b c d n := by
  simp only [JsonText.hexCode, bind, Option.bind_eq_some_iff, Option.some.injEq] at h
  obtain ⟨i, hi, j, hj, k, hk, l, hl, rfl⟩ := h
  obtain ⟨hi', hi16, hi34⟩ := hexValue_eq_some hi
  obtain ⟨hj', hj16, hj34⟩ := hexValue_eq_some hj
  obtain ⟨hk', hk16, hk34⟩ := hexValue_eq_some hk
  obtain ⟨hl', hl16, hl34⟩ := hexValue_eq_some hl
  refine ⟨fun rest => ?_, by omega, ?_⟩
  · rw [decodeUnicodeEscapeSequence, hi', hj', hk', hl']
    simp only [bind, Option.bind_some, UInt32.ofNat_add, UInt32.ofNat_mul]
    rfl
  · simp only [List.forall_mem_cons]
    exact ⟨hi34, hj34, hk34, hl34, fun x hx => absurd hx List.not_mem_nil⟩

theorem Code.readString (h : Code a b c d n) (text : List UInt8) :
    readString (92 :: 117 :: a :: b :: c :: d :: text) =
      (readString text).map fun (raw, rest) => (92 :: 117 :: a :: b :: c :: d :: raw, rest) := by
  have hplain := h.plain
  simp only [List.forall_mem_cons] at hplain
  obtain ⟨ha, hb, hc, hd, -⟩ := hplain
  rw [readString_backslash, readString_cons ha.1 ha.2, readString_cons hb.1 hb.2,
    readString_cons hc.1 hc.2, readString_cons hd.1 hd.2]
  simp only [Option.map_map]
  rfl

theorem codePointToUTF8_eq (h : n.isValidChar) :
    codePointToUTF8 (UInt32.ofNat n) = JsonText.utf8 n := by
  have hlt : n < 0x110000 := by
    obtain hlt | ⟨-, hlt⟩ := h
    · omega
    · exact hlt
  have hval : (Char.ofNat n).val = UInt32.ofNat n := by
    rw [← UInt32.toNat_inj, toNat_ofNat (by omega), Char.ofNat, dif_pos h]
    rfl
  have hle : UInt32.ofNat n ≤ 0x10FFFF := by
    rw [UInt32.le_iff_toNat_le, toNat_ofNat (by omega)]
    exact Nat.le_of_lt_succ hlt
  rw [JsonText.utf8, String.utf8EncodeChar_eq_utf8EncodeCharFast, String.utf8EncodeCharFast, hval,
    codePointToUTF8]
  simp only [if_pos hle, UInt8.or_comm, UInt8.and_comm, UInt32.shiftRight_zero]

theorem decodeEscape_code (h : Code a b c d n) (hscalar : n < 0xD800 ∨ 0xE000 ≤ n)
    (rest : List UInt8) :
    decodeEscape (117 :: a :: b :: c :: d :: rest) = some (JsonText.utf8 n, rest) := by
  have hlt := h.lt
  have hshort : shortEscape 117 = none := by decide
  have hvalid : n.isValidChar := by
    rw [Nat.isValidChar]
    omega
  have hpoint : ¬(0xD800 ≤ UInt32.ofNat n ∧ UInt32.ofNat n ≤ 0xDBFF) := by
    rw [UInt32.le_iff_toNat_le, UInt32.le_iff_toNat_le, toNat_ofNat (by omega)]
    simp only [UInt32.reduceToNat]
    omega
  rw [decodeEscape, hshort]
  simp only [if_true, decodeUnicodeCodePoint, h.decode, bind, Option.bind_some, if_neg hpoint,
    Option.map_some, codePointToUTF8_eq hvalid]

theorem surrogates_eq (hhigh : 0xD800 ≤ n ∧ n < 0xDC00) (hlow : 0xDC00 ≤ m ∧ m < 0xE000) :
    (0x10000 : UInt32) + ((UInt32.ofNat n &&& 0x3FF) <<< 10) + (UInt32.ofNat m &&& 0x3FF) =
      UInt32.ofNat (0x10000 + (n - 0xD800) * 0x400 + (m - 0xDC00)) := by
  have hten (k : ℕ) (hk : k < 2 ^ 32) : (UInt32.ofNat k &&& 0x3FF).toNat = k % 1024 := by
    rw [UInt32.toNat_and, toNat_ofNat hk]
    exact Nat.and_two_pow_sub_one_eq_mod k 10
  rw [← UInt32.toNat_inj, UInt32.toNat_add, UInt32.toNat_add, UInt32.toNat_shiftLeft,
    hten n (by omega), hten m (by omega), toNat_ofNat (by omega)]
  simp only [UInt32.reduceToNat, Nat.shiftLeft_eq, Nat.reduceMod, Nat.reducePow]
  omega

theorem decodeEscape_pair {a' b' c' d' : UInt8} (h : Code a b c d n) (h' : Code a' b' c' d' m)
    (hhigh : 0xD800 ≤ n ∧ n < 0xDC00) (hlow : 0xDC00 ≤ m ∧ m < 0xE000) (rest : List UInt8) :
    decodeEscape (117 :: a :: b :: c :: d :: 92 :: 117 :: a' :: b' :: c' :: d' :: rest) =
      some (JsonText.utf8 (0x10000 + (n - 0xD800) * 0x400 + (m - 0xDC00)), rest) := by
  have hshort : shortEscape 117 = none := by decide
  have hvalid : (0x10000 + (n - 0xD800) * 0x400 + (m - 0xDC00)).isValidChar := by
    rw [Nat.isValidChar]
    omega
  have hpoint : 0xD800 ≤ UInt32.ofNat n ∧ UInt32.ofNat n ≤ 0xDBFF := by
    rw [UInt32.le_iff_toNat_le, UInt32.le_iff_toNat_le, toNat_ofNat (by omega)]
    simp only [UInt32.reduceToNat]
    omega
  have hmarker : [92, 117] <+: 92 :: 117 :: a' :: b' :: c' :: d' :: rest := ⟨_, rfl⟩
  rw [decodeEscape, hshort]
  simp only [if_true, decodeUnicodeCodePoint, h.decode, bind, Option.bind_some, if_pos hpoint,
    if_pos hmarker, List.drop_succ_cons, List.drop_zero, h'.decode, surrogates_eq hhigh hlow,
    Option.map_some, codePointToUTF8_eq hvalid]

/-- What stands between two quotes is read for the string that it is. -/
theorem exists_raw (h : Chars text s rest) :
    ∃ raw, readString text = some (raw, rest) ∧ decodeString raw = some s := by
  induction h with
  | @close rest =>
    refine ⟨[], ?_, by rw [decodeString]⟩
    cases rest <;> rfl
  | @char c _ s _ _ hquote hbackslash _ ih =>
    obtain ⟨raw, hread, hdecode⟩ := ih
    refine ⟨c :: raw, ?_, ?_⟩
    · rw [readString_cons hquote hbackslash, hread, Option.map_some]
    · rw [decodeString_cons hquote hbackslash, hdecode, Option.map_some]
  | @escape d c _ s _ hd _ ih =>
    obtain ⟨raw, hread, hdecode⟩ := ih
    have hescape : decodeEscape (d :: raw) = some ([c], raw) := by
      rw [decodeEscape, shortEscape_eq_some hd]
    refine ⟨92 :: d :: raw, ?_, ?_⟩
    · rw [readString_backslash, hread, Option.map_some]
    · rw [decodeString_backslash hescape, hdecode, Option.map_some]
      rfl
  | @code a b c d n _ s _ hcode hscalar _ ih =>
    obtain ⟨raw, hread, hdecode⟩ := ih
    have hcode := code_of_hexCode hcode
    refine ⟨92 :: 117 :: a :: b :: c :: d :: raw, ?_, ?_⟩
    · rw [hcode.readString, hread, Option.map_some]
    · rw [decodeString_backslash (decodeEscape_code hcode hscalar raw), hdecode, Option.map_some]
  | @pair a b c d a' b' c' d' n m _ s _ hcode hhigh hcode' hlow _ ih =>
    obtain ⟨raw, hread, hdecode⟩ := ih
    have hcode := code_of_hexCode hcode
    have hcode' := code_of_hexCode hcode'
    refine ⟨92 :: 117 :: a :: b :: c :: d :: 92 :: 117 :: a' :: b' :: c' :: d' :: raw, ?_, ?_⟩
    · rw [hcode.readString, hcode'.readString, hread, Option.map_some, Option.map_some]
    · rw [decodeString_backslash (decodeEscape_pair hcode hcode' hhigh hlow raw), hdecode,
        Option.map_some]

end Texts

/-- `sscanf`, which reads every number of JSON. What it makes of it is left open, and so is what it
does with other texts. -/
structure Sscanf where
  scan : Scan
  reads : ∀ literal, (∃ n, IntLiteral literal n) ∨ RealLiteral literal → (scan literal).isSome

section Numbers

variable {c : UInt8} {literal rest : List UInt8} {n : ℤ} (sscanf : Sscanf)

theorem isNumberChar_of_numeric (h : Numeric c) : isNumberChar c = true := by
  obtain ⟨hlow, hhigh⟩ | hmark := h
  · simp [isNumberChar, isDigit, hlow, hhigh]
  · simp only [List.mem_cons, List.not_mem_nil, or_false] at hmark
    obtain rfl | rfl | rfl | rfl | rfl := hmark <;> decide

theorem decodeDigits_ne_notANumber {maxIntegerValue value : ℕ} {text : List UInt8}
    (h : ∀ c ∈ text, isDigit c = true) :
    decodeDigits maxIntegerValue value text ≠ .notANumber := by
  induction text generalizing value with
  | nil => exact Digits.noConfusion
  | cons c text ih =>
    obtain ⟨hc, htext⟩ := List.forall_mem_cons.mp h
    rw [decodeDigits, if_pos hc]
    dsimp only
    split
    · exact Digits.noConfusion
    · exact ih htext

theorem isSome_decodeNumber_int (n : ℤ) :
    (decodeNumber sscanf.scan (CText.bytes (toString n))).isSome := by
  have hscan : (decodeDouble sscanf.scan (CText.bytes (toString n))).isSome := by
    rw [decodeDouble, Option.isSome_map]
    exact sscanf.reads _ (.inl ⟨n, .inl rfl⟩)
  have hdigits (k : ℕ) : ∀ c ∈ CText.bytes (toString k), isDigit c = true := fun c hc => by
    obtain ⟨hlow, hhigh⟩ := CText.mem_bytes_toString hc
    simp [isDigit, hlow, hhigh]
  rw [decodeNumber]
  split
  · exact hscan
  · split
    · next hminus =>
      cases n with
      | ofNat n =>
        exact absurd (List.mem_of_head? hminus) (forty_five_not_mem_toString n)
      | negSucc n =>
        have hne := @decodeDigits_ne_notANumber (2 ^ 63) 0 _ (hdigits (n + 1))
        rw [CText.bytes_toString_negSucc, List.tail_cons]
        rw [CText.bytes_toString_negSucc] at hscan
        split
        · next hnone => exact absurd hnone hne
        · exact hscan
        · rfl
    · next hminus =>
      cases n with
      | ofNat n =>
        have hne := @decodeDigits_ne_notANumber (2 ^ 64 - 1) 0 _ (hdigits n)
        split
        · next hnone => exact absurd hnone hne
        · exact hscan
        · rfl
      | negSucc n =>
        rw [CText.bytes_toString_negSucc] at hminus
        exact absurd rfl hminus

theorem decodeNumber_eq_decodeDouble (scan : Scan) (h : RealLiteral literal) :
    decodeNumber scan literal = decodeDouble scan literal := by
  obtain ⟨c, hc, hmark⟩ := h.exists_mark
  have hdouble : isDouble literal = true := by
    rw [isDouble, Bool.or_eq_true]
    refine .inl (List.any_eq_true.mpr ⟨c, hc, ?_⟩)
    simp only [List.mem_cons, List.not_mem_nil, or_false] at hmark
    obtain rfl | rfl | rfl := hmark <;> decide
  rw [decodeNumber, if_pos hdouble]

theorem isSome_decodeNumber_real (h : RealLiteral literal) :
    (decodeNumber sscanf.scan literal).isSome := by
  rw [decodeNumber_eq_decodeDouble sscanf.scan h, decodeDouble, Option.isSome_map]
  exact sscanf.reads _ (.inr h)

theorem foldl_of_decodeDigits {maxIntegerValue value v : ℕ} {text : List UInt8}
    (hvalue : value ≤ maxIntegerValue) (h : decodeDigits maxIntegerValue value text = .value v) :
    v ≤ maxIntegerValue ∧ text.foldl (fun n b => 10 * n + (b.toNat - 48)) value = v := by
  induction text generalizing value with
  | nil =>
    cases h
    exact ⟨hvalue, rfl⟩
  | cons c text ih =>
    rw [decodeDigits] at h
    split at h
    · next hdigit =>
      simp only [isDigit, Bool.and_eq_true, decide_eq_true_eq] at hdigit
      have hlow : 48 ≤ c.toNat := hdigit.1
      have hhigh : c.toNat ≤ 57 := hdigit.2
      have hsub : (c - 48).toNat = c.toNat - 48 := UInt8.toNat_sub_of_le _ _ hdigit.1
      dsimp only at h
      split at h
      · cases h
      · next hsmall =>
        rw [List.foldl_cons, Nat.mul_comm, ← hsub]
        exact ih (by omega) h
    · cases h

theorem decodeNumber_large (scan : Scan) (h : n < -2 ^ 63 ∨ 2 ^ 64 ≤ n) :
    decodeNumber scan (CText.bytes (toString n)) =
      decodeDouble scan (CText.bytes (toString n)) := by
  have hdigits (k m : ℕ) (hk : m < k) :
      decodeDigits m 0 (CText.bytes (toString k)) = .large := by
    have hne := @decodeDigits_ne_notANumber m 0 (CText.bytes (toString k)) fun c hc => by
      obtain ⟨hlow, hhigh⟩ := CText.mem_bytes_toString hc
      simp [isDigit, hlow, hhigh]
    cases heq : decodeDigits m 0 (CText.bytes (toString k)) with
    | notANumber => exact absurd heq hne
    | large => rfl
    | value v =>
      obtain ⟨hle, hfold⟩ := foldl_of_decodeDigits (Nat.zero_le m) heq
      rw [CText.foldl_bytes_toString] at hfold
      omega
  rw [decodeNumber]
  split
  · rfl
  · cases n with
    | ofNat n =>
      have hhead : (CText.bytes (toString (Int.ofNat n))).head? ≠ some 45 := fun heq =>
        forty_five_not_mem_toString n (List.mem_of_head? heq)
      have hn : 2 ^ 64 - 1 < n := by
        rw [Int.ofNat_eq_natCast] at h
        omega
      have hlarge : decodeDigits (2 ^ 64 - 1) 0 (CText.bytes (toString (Int.ofNat n))) = .large :=
        hdigits n _ hn
      rw [if_neg hhead, hlarge]
    | negSucc n =>
      rw [CText.bytes_toString_negSucc, List.head?_cons, if_pos rfl, List.tail_cons,
        hdigits (n + 1) (2 ^ 63) (by omega)]

end Numbers

end Json

end ImServer
