import ImServer.Lib.Base64url
import ImServer.Lib.CText
import Mathlib.Data.Nat.Digits.Lemmas

/-!
# Encoding and signing of the provider token

`jwk_base64_encode`, `jwt_base64must` and `jwt_encode_str` of ipush/jwkencodesign.cpp. The base64
text is turned into base64url in place, and the string keeps its size: where there was padding, a
NUL stands behind the digits. The 64 bytes of a signature are read as a C text, with whatever lies
behind their buffer.
-/

namespace ImServer

namespace JwkEncode

def toB64Tab : List UInt8 :=
  CText.bytes "ABCDEFGHIJKLMNOPQRSTUVWXYZabcdefghijklmnopqrstuvwxyz0123456789+/"

def toB64 (n : ℕ) : UInt8 := toB64Tab.getD n 0

/-- The loop of `jwk_base64_encode` over the bytes that are left. -/
def encodeLoop : List UInt8 → List UInt8
  | [] => []
  | [x] =>
    [toB64 ((x.toNat >>> 2) &&& 63), toB64 ((x.toNat <<< 4) &&& 63), 0x3d, 0x3d]
  | [x, y] =>
    [toB64 ((x.toNat >>> 2) &&& 63),
      toB64 (((x.toNat <<< 4) ||| ((y.toNat >>> 4) &&& 15)) &&& 63),
      toB64 ((y.toNat <<< 2) &&& 63), 0x3d]
  | x :: y :: z :: rest =>
    toB64 ((x.toNat >>> 2) &&& 63) ::
      toB64 (((x.toNat <<< 4) ||| ((y.toNat >>> 4) &&& 15)) &&& 63) ::
      toB64 (((y.toNat <<< 2) ||| ((z.toNat >>> 6) &&& 3)) &&& 63) ::
      toB64 (z.toNat &&& 63) :: encodeLoop rest

/-- The size that `jwk_base64_encode` asks `malloc` for. -/
def codeSize (len : ℤ) : ℤ := 4 * (len + 2).tdiv 3 + 1

/-- The size can be computed with `int`. -/
def SizeFits (len : ℤ) : Prop := len + 2 < 2 ^ 31 ∧ -2 ^ 31 ≤ codeSize len ∧ codeSize len < 2 ^ 31

instance decidableSizeFits (len : ℤ) : Decidable (SizeFits len) :=
  inferInstanceAs (Decidable (_ ∧ _ ∧ _))

/-- `jwk_base64_encode`, if `alloc` says whether there is memory. A negative size is a huge one. -/
def jwkBase64Encode (alloc : Bool) (bytes : List UInt8) (len : ℤ) : Option (List UInt8) :=
  if alloc ∧ 0 ≤ codeSize len then some (encodeLoop (bytes.take len.toNat)) else none

/-- One turn of the loop of `jwt_base64must` over the string and the place where it writes. -/
def mustStep (st : List UInt8 × ℕ) (i : ℕ) : List UInt8 × ℕ :=
  let c := st.1.getD i 0
  if c = 0x2b then (st.1.set st.2 0x2d, st.2 + 1)
  else if c = 0x2f then (st.1.set st.2 0x5f, st.2 + 1)
  else if c = 0x3d then st
  else (st.1.set st.2 c, st.2 + 1)

/-- The loop, and the NUL behind what was written. The string keeps its size. -/
def mustLoop (stmp : List UInt8) : List UInt8 :=
  let (stmp, t) := (List.range stmp.length).foldl mustStep (stmp, 0)
  stmp.set t 0

/-- `jwt_base64must`. Where the size overflows, `undef` stands for the result. -/
def jwtBase64must (alloc : Bool) (undef src : List UInt8) : List UInt8 :=
  let text := CText.cStr src
  let len := (text.length : ℤ).bmod (2 ^ 32)
  if SizeFits len then
    match jwkBase64Encode alloc text len with
    | none => []
    | some ctmp => mustLoop (CText.cStr ctmp)
  else undef

/-- `BN_bn2bin`, the bytes of a number without leading zeros. -/
def bnBytes (n : ℕ) : List UInt8 := (Nat.digits 256 n).reverse.map UInt8.ofNat

/-- The numbers `R` and `S` of a signature, each in 32 bytes. -/
def rawBuf (r s : ℕ) : List UInt8 :=
  (List.replicate (32 - (bnBytes r).length) 0 ++ bnBytes r) ++
    (List.replicate (32 - (bnBytes s).length) 0 ++ bnBytes s)

/-- What an attempt to sign finds: the file of the key cannot be opened, a function of the library
fails, or there is a signature, and some bytes lie behind the buffer for it. -/
inductive SignAttempt where
  | noFile
  | failed
  | signed (r s : Fin (2 ^ 256)) (after : List UInt8)
  deriving DecidableEq, Repr

namespace SignAttempt

/-- `ret` of an attempt. The buffer is read as a C text. -/
def ret : SignAttempt → List UInt8
  | noFile => []
  | failed => []
  | signed r s after =>
    if 32 < (bnBytes r).length ∨ 32 < (bnBytes s).length then []
    else CText.cStr (rawBuf r s ++ after)

end SignAttempt

/-- `jwt_encode_str` from the attempt `n` on. It calls itself until the text has 65 bytes, and only
a missing file ends it otherwise. -/
def jwtEncodeStr (attempts : ℕ → SignAttempt) : ℕ → ℕ → Option (List UInt8)
  | 0, _ => none
  | fuel + 1, n =>
    if attempts n = .noFile then some []
    else if (attempts n).ret.length = 65 then some (attempts n).ret
    else jwtEncodeStr attempts fuel (n + 1)

theorem and_sixtyThree (n : ℕ) : n &&& 63 = n % 64 := Nat.and_two_pow_sub_one_eq_mod n 6

theorem firstDigit_eq (x : UInt8) : (x.toNat >>> 2) &&& 63 = x.toNat / 4 := by
  have hx := UInt8.toNat_lt x
  rw [and_sixtyThree, Nat.shiftRight_eq_div_pow]
  omega

theorem secondDigit_eq (x y : UInt8) :
    ((x.toNat <<< 4) ||| ((y.toNat >>> 4) &&& 15)) &&& 63 = x.toNat % 4 * 16 + y.toNat / 16 := by
  have hy := UInt8.toNat_lt y
  have hlow : (y.toNat >>> 4) &&& 15 = y.toNat / 16 := by
    rw [Nat.and_two_pow_sub_one_eq_mod _ 4, Nat.shiftRight_eq_div_pow]
    omega
  rw [and_sixtyThree, hlow, ← Nat.shiftLeft_add_eq_or_of_lt (by omega), Nat.shiftLeft_eq]
  omega

theorem thirdDigit_eq (y z : UInt8) :
    ((y.toNat <<< 2) ||| ((z.toNat >>> 6) &&& 3)) &&& 63 = y.toNat % 16 * 4 + z.toNat / 64 := by
  have hz := UInt8.toNat_lt z
  have hlow : (z.toNat >>> 6) &&& 3 = z.toNat / 64 := by
    rw [Nat.and_two_pow_sub_one_eq_mod _ 2, Nat.shiftRight_eq_div_pow]
    omega
  rw [and_sixtyThree, hlow, ← Nat.shiftLeft_add_eq_or_of_lt (by omega), Nat.shiftLeft_eq]
  omega

theorem secondDigit_last_eq (x : UInt8) : (x.toNat <<< 4) &&& 63 = x.toNat % 4 * 16 := by
  rw [and_sixtyThree, Nat.shiftLeft_eq]
  omega

theorem thirdDigit_last_eq (y : UInt8) : (y.toNat <<< 2) &&& 63 = y.toNat % 16 * 4 := by
  rw [and_sixtyThree, Nat.shiftLeft_eq]
  omega

/-- What the loop of `jwt_base64must` keeps of a character. -/
def must (c : UInt8) : Option UInt8 :=
  if c = 0x2b then some 0x2d else if c = 0x2f then some 0x5f else if c = 0x3d then none else some c

theorem toB64_table : ∀ n : Fin 64, must (toB64 n) = some (Base64url.digit n) ∧ toB64 n ≠ 0 := by
  decide +kernel

theorem must_toB64 {n : ℕ} (hn : n < 64) : must (toB64 n) = some (Base64url.digit n) :=
  (toB64_table ⟨n, hn⟩).1

theorem must_padding : must 0x3d = none := rfl

theorem filterMap_encodeLoop (bytes : List UInt8) :
    (encodeLoop bytes).filterMap must = Base64url.encode bytes := by
  induction bytes using encodeLoop.induct with
  | case1 => rfl
  | case2 x =>
    have hx := UInt8.toNat_lt x
    rw [encodeLoop, firstDigit_eq, secondDigit_last_eq]
    simp only [List.filterMap_cons, List.filterMap_nil, must_padding]
    rw [must_toB64 (by omega), must_toB64 (by omega), Base64url.encode]
  | case3 x y =>
    have hx := UInt8.toNat_lt x
    have hy := UInt8.toNat_lt y
    rw [encodeLoop, firstDigit_eq, secondDigit_eq, thirdDigit_last_eq]
    simp only [List.filterMap_cons, List.filterMap_nil, must_padding]
    rw [must_toB64 (by omega), must_toB64 (by omega), must_toB64 (by omega), Base64url.encode]
  | case4 x y z rest ih =>
    have hx := UInt8.toNat_lt x
    have hy := UInt8.toNat_lt y
    have hz := UInt8.toNat_lt z
    rw [encodeLoop, firstDigit_eq, secondDigit_eq, thirdDigit_eq, and_sixtyThree]
    simp only [List.filterMap_cons]
    rw [must_toB64 (by omega), must_toB64 (by omega), must_toB64 (by omega),
      must_toB64 (by omega), ih, Base64url.encode]

theorem length_encodeLoop (bytes : List UInt8) :
    (encodeLoop bytes).length = 4 * ((bytes.length + 2) / 3) := by
  induction bytes using encodeLoop.induct with
  | case1 => rfl
  | case2 x => simp [encodeLoop]
  | case3 x y => simp [encodeLoop]
  | case4 x y z rest ih =>
    simp only [encodeLoop, List.length_cons, ih]
    omega

theorem toB64_ne_zero {n : ℕ} (hn : n < 64) : toB64 n ≠ 0 :=
  (toB64_table ⟨n, hn⟩).2

theorem zero_notMem_encodeLoop (bytes : List UInt8) : 0 ∉ encodeLoop bytes := by
  have hdigit : ∀ n : ℕ, (0 : UInt8) ≠ toB64 (n &&& 63) := fun n =>
    (toB64_ne_zero (by rw [and_sixtyThree]; exact Nat.mod_lt n (by decide))).symm
  induction bytes using encodeLoop.induct with
  | case1 => simp [encodeLoop]
  | case2 x => simp [encodeLoop, hdigit]
  | case3 x y => simp [encodeLoop, hdigit]
  | case4 x y z rest ih => simp [encodeLoop, hdigit, ih]

/-- The part that has been read is written over from the front. -/
theorem foldl_mustStep (stmp : List UInt8) {n : ℕ} (hn : n ≤ stmp.length) :
    (List.range n).foldl mustStep (stmp, 0) =
      ((stmp.take n).filterMap must ++ stmp.drop ((stmp.take n).filterMap must).length,
        ((stmp.take n).filterMap must).length) := by
  induction n with
  | zero => simp
  | succ n ih =>
    have hlt : n < stmp.length := hn
    have hkept : ((stmp.take n).filterMap must).length ≤ n :=
      (List.length_filterMap_le ..).trans (List.length_take_le ..)
    rw [List.range_succ, List.foldl_append, ih hlt.le, List.take_succ_eq_append_getElem hlt,
      List.filterMap_append]
    generalize (stmp.take n).filterMap must = kept at hkept ⊢
    have hread : (kept ++ stmp.drop kept.length).getD n 0 = stmp[n] := by
      rw [List.getD_eq_getElem?_getD, List.getElem?_append_right hkept, List.getElem?_drop,
        Nat.add_sub_cancel' hkept, List.getElem?_eq_getElem hlt]
      rfl
    have hwrite : ∀ c : UInt8, (kept ++ stmp.drop kept.length).set kept.length c =
        kept ++ [c] ++ stmp.drop (kept.length + 1) := by
      intro c
      rw [List.set_append_right _ _ le_rfl, Nat.sub_self,
        List.drop_eq_getElem_cons (hkept.trans_lt hlt), List.set_cons_zero, List.append_assoc]
      rfl
    simp only [List.foldl_cons, List.foldl_nil, mustStep, hread, hwrite, List.filterMap_cons,
      List.filterMap_nil, must]
    split
    · simp
    split
    · simp
    split
    · simp
    · simp

theorem mustLoop_eq (stmp : List UInt8) :
    mustLoop stmp = stmp.filterMap must ++ (stmp.drop (stmp.filterMap must).length).set 0 0 := by
  have hloop := foldl_mustStep stmp le_rfl
  rw [List.take_length] at hloop
  rw [mustLoop, hloop]
  exact (List.set_append_right _ _ le_rfl).trans (by rw [Nat.sub_self])

/-- What `jwt_base64must` reads. The length of the text is an `int`. -/
def mustRead (src : List UInt8) : List UInt8 :=
  (CText.cStr src).take (((CText.cStr src).length : ℤ).bmod (2 ^ 32)).toNat

/-- The digits of what was read, and what the padding leaves behind a NUL. -/
theorem jwtBase64must_eq (undef : List UInt8) {src : List UInt8}
    (hsize : SizeFits (((CText.cStr src).length : ℤ).bmod (2 ^ 32)))
    (halloc : 0 ≤ codeSize (((CText.cStr src).length : ℤ).bmod (2 ^ 32))) :
    jwtBase64must true undef src = Base64url.encode (mustRead src) ++
      ((encodeLoop (mustRead src)).drop (Base64url.encode (mustRead src)).length).set 0 0 := by
  have htext : CText.cStr (encodeLoop (mustRead src)) = encodeLoop (mustRead src) :=
    CText.cStr_eq_self_iff.mpr (zero_notMem_encodeLoop _)
  have hcode : jwkBase64Encode true (CText.cStr src) (((CText.cStr src).length : ℤ).bmod (2 ^ 32)) =
      some (encodeLoop (mustRead src)) := if_pos ⟨rfl, halloc⟩
  rw [jwtBase64must]
  simp only [if_pos hsize, hcode]
  rw [htext, mustLoop_eq, filterMap_encodeLoop]

/-- The digits are whole threes of bytes, or a NUL follows them. -/
theorem drop_encodeLoop_eq_nil_iff (bytes : List UInt8) :
    ((encodeLoop bytes).drop (Base64url.encode bytes).length).set 0 0 = [] ↔
      bytes.length % 3 = 0 := by
  rw [List.set_eq_nil_iff, List.drop_eq_nil_iff, length_encodeLoop, Base64url.length_encode]
  obtain hmod | hmod | hmod : bytes.length % 3 = 0 ∨ bytes.length % 3 = 1 ∨
      bytes.length % 3 = 2 := by omega
  · omega
  · omega
  · omega

theorem cStr_jwtBase64must (undef : List UInt8) {src : List UInt8}
    (hsize : SizeFits (((CText.cStr src).length : ℤ).bmod (2 ^ 32)))
    (halloc : 0 ≤ codeSize (((CText.cStr src).length : ℤ).bmod (2 ^ 32))) :
    CText.cStr (jwtBase64must true undef src) = Base64url.encode (mustRead src) := by
  have hdigits : 0 ∉ Base64url.encode (mustRead src) :=
    Base64url.not_mem_encode (by decide) (by decide)
  have hall : ∀ c ∈ Base64url.encode (mustRead src), decide (c ≠ 0) = true := fun c hc =>
    decide_eq_true fun hzero => hdigits (hzero ▸ hc)
  rw [jwtBase64must_eq undef hsize halloc, CText.cStr, List.takeWhile_append_of_pos hall]
  cases (encodeLoop (mustRead src)).drop (Base64url.encode (mustRead src)).length with
  | nil => simp
  | cons c rest => simp

theorem bmod_length_eq {n : ℕ} (hn : n < 2 ^ 31) : (n : ℤ).bmod (2 ^ 32) = n := by
  rw [Int.bmod_def]
  omega

theorem sizeFits_natCast_iff {n : ℕ} :
    SizeFits n ↔ 4 * ((n + 2) / 3) + 1 < 2 ^ 31 := by
  have hdiv : ((n : ℤ) + 2).tdiv 3 = ((n + 2) / 3 : ℕ) := by
    rw [Int.tdiv_eq_ediv_of_nonneg (by omega)]
    norm_cast
  rw [SizeFits, codeSize, hdiv]
  omega

theorem codeSize_natCast_nonneg (n : ℕ) : 0 ≤ codeSize n := by
  have hdiv := Int.tdiv_nonneg (by omega : 0 ≤ (n : ℤ) + 2) (by decide : (0 : ℤ) ≤ 3)
  rw [codeSize]
  omega

/-- The text is exact for whole threes of bytes without a NUL, and if the size can be computed. -/
theorem jwtBase64must_iff (src : List UInt8) :
    (∀ undef, jwtBase64must true undef src = Base64url.encode src) ↔
      0 ∉ src ∧ src.length % 3 = 0 ∧ 4 * ((src.length + 2) / 3) + 1 < 2 ^ 31 := by
  constructor
  · intro h
    have hfits : SizeFits (((CText.cStr src).length : ℤ).bmod (2 ^ 32)) := by
      by_contra hnot
      have hundef : ∀ undef, undef = Base64url.encode src := by
        intro undef
        have hresult := h undef
        rw [jwtBase64must] at hresult
        simpa only [if_neg hnot] using hresult
      exact absurd ((hundef []).trans (hundef [0]).symm) (by decide)
    have hread : (mustRead src).length ≤ (CText.cStr src).length := List.length_take_le' ..
    have hcut : (CText.cStr src).length ≤ src.length := (List.takeWhile_prefix _).length_le
    by_cases halloc : 0 ≤ codeSize (((CText.cStr src).length : ℤ).bmod (2 ^ 32))
    · have hexact := h []
      rw [jwtBase64must_eq [] hfits halloc] at hexact
      have hrest : ((encodeLoop (mustRead src)).drop
          (Base64url.encode (mustRead src)).length).set 0 0 = [] := by
        cases hdrop : (encodeLoop (mustRead src)).drop (Base64url.encode (mustRead src)).length with
        | nil => rfl
        | cons c rest =>
          have hzero : 0 ∈ Base64url.encode src := by
            rw [← hexact, hdrop]
            simp
          exact absurd hzero (Base64url.not_mem_encode (by decide) (by decide))
      have hthree := (drop_encodeLoop_eq_nil_iff _).mp hrest
      rw [hrest, List.append_nil] at hexact
      have hlength : (mustRead src).length = src.length := by
        by_contra hne
        have hlt := Base64url.length_encode_lt (lt_of_le_of_ne (hread.trans hcut) hne)
        exact absurd (congrArg List.length hexact) hlt.ne
      have hsame : CText.cStr src = src :=
        (CText.cStr_eq_or_length_lt src).resolve_right (by omega)
      refine ⟨CText.cStr_eq_self_iff.mp hsame, hlength ▸ hthree, ?_⟩
      rw [mustRead, hsame, List.length_take] at hlength
      rw [hsame, Int.bmod_def] at hfits
      rw [Int.bmod_def] at hlength
      have hsmall : (src.length : ℤ) % (2 ^ 32 : ℕ) = src.length := by omega
      rw [hsmall, if_pos (by omega)] at hfits
      exact sizeFits_natCast_iff.mp hfits
    · have hcode : jwkBase64Encode true (CText.cStr src)
          (((CText.cStr src).length : ℤ).bmod (2 ^ 32)) = none := if_neg fun hand => halloc hand.2
      have hempty := h []
      rw [jwtBase64must] at hempty
      simp only [if_pos hfits, hcode] at hempty
      have hlength := congrArg List.length hempty
      rw [Base64url.length_encode, List.length_nil] at hlength
      have hzero : (CText.cStr src).length = 0 := by omega
      exact absurd (hzero ▸ codeSize_natCast_nonneg 0) halloc
  · rintro ⟨hnul, hthree, hsize⟩ undef
    have htext : CText.cStr src = src := CText.cStr_eq_self_iff.mpr hnul
    have hmod : (src.length : ℤ).bmod (2 ^ 32) = src.length := bmod_length_eq (by omega)
    have hread : mustRead src = src := by
      rw [mustRead, htext, hmod, Int.toNat_natCast, List.take_length]
    rw [jwtBase64must_eq undef (by rw [htext, hmod]; exact sizeFits_natCast_iff.mpr hsize)
      (by rw [htext, hmod]; exact codeSize_natCast_nonneg _), hread,
      (drop_encodeLoop_eq_nil_iff src).mpr hthree, List.append_nil]

section Sign

variable {attempts : ℕ → SignAttempt} {fuel n : ℕ} {text : List UInt8}

/-- The attempt ends the recursion. -/
def Ends (attempt : SignAttempt) : Prop := attempt = .noFile ∨ attempt.ret.length = 65

theorem jwtEncodeStr_isSome_iff :
    (jwtEncodeStr attempts fuel n).isSome ↔ ∃ k < fuel, Ends (attempts (n + k)) := by
  induction fuel generalizing n with
  | zero => simp [jwtEncodeStr]
  | succ fuel ih =>
    rw [jwtEncodeStr]
    split
    · next hfile => exact iff_of_true rfl ⟨0, Nat.succ_pos fuel, .inl hfile⟩
    split
    · next hlength => exact iff_of_true rfl ⟨0, Nat.succ_pos fuel, .inr hlength⟩
    · next hfile hlength =>
      rw [ih]
      constructor
      · rintro ⟨k, hk, hends⟩
        exact ⟨k + 1, Nat.succ_lt_succ hk, by rwa [← Nat.add_assoc, Nat.add_right_comm]⟩
      · rintro ⟨k, hk, hends⟩
        cases k with
        | zero => exact absurd hends (not_or.mpr ⟨hfile, hlength⟩)
        | succ k =>
          exact ⟨k, Nat.lt_of_succ_lt_succ hk, by rwa [← Nat.add_assoc, Nat.add_right_comm] at hends⟩

/-- What is returned is empty or has 65 bytes and no NUL. -/
theorem jwtEncodeStr_eq_some (h : jwtEncodeStr attempts fuel n = some text) :
    text = [] ∨ (text.length = 65 ∧ 0 ∉ text) := by
  induction fuel generalizing n with
  | zero => cases h
  | succ fuel ih =>
    rw [jwtEncodeStr] at h
    split at h
    · exact .inl (Option.some.inj h).symm
    split at h
    · next hlength =>
      cases h
      refine .inr ⟨hlength, ?_⟩
      cases attempts n with
      | noFile => exact List.not_mem_nil
      | failed => exact List.not_mem_nil
      | signed r s after =>
        rw [SignAttempt.ret]
        split
        · exact List.not_mem_nil
        · exact fun hzero => absurd (List.mem_takeWhile_imp hzero) (by decide)
    · exact ih h

theorem length_bnBytes_le {m : ℕ} (hm : m < 2 ^ 256) : (bnBytes m).length ≤ 32 := by
  rw [bnBytes, List.length_map, List.length_reverse, Nat.digits_length_le_iff (by decide)]
  exact hm.trans_eq (by norm_num)

theorem length_rawBuf (r s : Fin (2 ^ 256)) : (rawBuf r s).length = 64 := by
  have hr := length_bnBytes_le r.isLt
  have hs := length_bnBytes_le s.isLt
  simp only [rawBuf, List.length_append, List.length_replicate]
  omega

/-- A signature is taken if its bytes are not zero and one more byte lies behind them. -/
theorem ends_signed_iff (r s : Fin (2 ^ 256)) (after : List UInt8) :
    Ends (.signed r s after) ↔ 0 ∉ rawBuf r s ∧ (CText.cStr after).length = 1 := by
  have hret : (SignAttempt.signed r s after).ret = CText.cStr (rawBuf r s ++ after) := by
    have hr := length_bnBytes_le r.isLt
    have hs := length_bnBytes_le s.isLt
    rw [SignAttempt.ret, if_neg (by omega)]
  have hlength := length_rawBuf r s
  rw [Ends, or_iff_right (by simp), hret]
  obtain hsame | hlt := CText.cStr_eq_or_length_lt (rawBuf r s)
  · have hzero := CText.cStr_eq_self_iff.mp hsame
    have hall : ∀ c ∈ rawBuf r s, decide (c ≠ 0) = true := fun c hc =>
      decide_eq_true fun heq => hzero (heq ▸ hc)
    rw [CText.cStr, List.takeWhile_append_of_pos hall, ← CText.cStr, List.length_append, hlength]
    exact ⟨fun h => ⟨hzero, by omega⟩, fun h => by omega⟩
  · have hcut : CText.cStr (rawBuf r s ++ after) = CText.cStr (rawBuf r s) := by
      rw [CText.cStr, List.takeWhile_append]
      exact if_neg hlt.ne
    rw [hcut]
    refine iff_of_false (by omega) fun h => ?_
    rw [CText.cStr_eq_self_iff.mpr h.1] at hlt
    exact absurd hlt (lt_irrefl _)

/-- The recursion ends if the file of the key is missing or an attempt has such a signature. -/
theorem jwtEncodeStr_returns_iff (attempts : ℕ → SignAttempt) :
    (∃ fuel, (jwtEncodeStr attempts fuel 0).isSome) ↔ ∃ n, attempts n = .noFile ∨
      ∃ r s after, attempts n = .signed r s after ∧ 0 ∉ rawBuf r s ∧
        (CText.cStr after).length = 1 := by
  have hends : ∀ n, Ends (attempts n) ↔ attempts n = .noFile ∨
      ∃ r s after, attempts n = .signed r s after ∧ 0 ∉ rawBuf r s ∧
        (CText.cStr after).length = 1 := by
    intro n
    cases hn : attempts n with
    | noFile => simp [Ends]
    | failed => simp [Ends, SignAttempt.ret]
    | signed r s after =>
      rw [ends_signed_iff]
      simp
  constructor
  · rintro ⟨fuel, h⟩
    obtain ⟨k, -, hk⟩ := jwtEncodeStr_isSome_iff.mp h
    exact ⟨0 + k, (hends _).mp hk⟩
  · rintro ⟨n, h⟩
    have hn := (hends n).mpr h
    exact ⟨n + 1, jwtEncodeStr_isSome_iff.mpr ⟨n, Nat.lt_succ_self n, by rwa [Nat.zero_add]⟩⟩

end Sign

end JwkEncode

end ImServer
