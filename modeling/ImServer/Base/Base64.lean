import ImServer.Base.SimpleBuffer
import ImServer.IPush.JwkEncode
import ImServer.Lib.Base64

/-!
# The two encoders of base64

`base64_encode` and `base64_decode` (base/base64.cpp), and `jwk_base64_encode` beside them. The
former shift bytes into a register of 32 bits, and only the bits that are pending count.

The string that `base64_encode` fills has the size of the text. Its first assertion subtracts two
from that size without a sign, which for no bytes at all is the largest size there is.
-/

namespace ImServer

namespace Base64Codec

def b64Table : List UInt8 :=
  CText.bytes "ABCDEFGHIJKLMNOPQRSTUVWXYZabcdefghijklmnopqrstuvwxyz0123456789+/"

def reverseTable : List ℕ :=
  List.replicate 43 64 ++ [62] ++ List.replicate 3 64 ++ [63] ++ List.range' 52 10 ++
    List.replicate 7 64 ++ List.range' 0 26 ++ List.replicate 6 64 ++ List.range' 26 26 ++
    List.replicate 5 64

/-- Why the encoder does not return: a store outside its string, or an assertion. -/
inductive Broken where
  | outside
  | assertion
  deriving DecidableEq, Repr

/-- `retval`, `outpos`, `bits_collected` and `accumulator`. -/
structure Encoder where
  retval : List UInt8
  outpos : ℕ := 0
  bitsCollected : ℕ := 0
  accumulator : ℕ := 0
  deriving DecidableEq, Repr

namespace Encoder

variable (s : Encoder)

/-- `retval[outpos++] = c`. -/
def put (c : UInt8) : Except Broken Encoder :=
  if s.outpos < s.retval.length then
    .ok { s with retval := s.retval.set s.outpos c, outpos := s.outpos + 1 }
  else .error .outside

/-- The inner loop, which takes six bits in each turn. -/
def collect : ℕ → Encoder → Except Broken Encoder
  | 0, s => .ok s
  | fuel + 1, s =>
    if 6 ≤ s.bitsCollected then do
      let bitsCollected := s.bitsCollected - 6
      let c := b64Table.getD ((s.accumulator >>> bitsCollected) &&& 0x3f) 0
      let s ← { s with bitsCollected }.put c
      collect fuel s
    else .ok s

/-- One byte. -/
def feed (i : UInt8) : Except Broken Encoder :=
  let bitsCollected := s.bitsCollected + 8
  collect bitsCollected
    { s with accumulator := u32 (s.accumulator <<< 8) ||| i.toNat, bitsCollected }

/-- The trailing bits that are missing. -/
def finish : Except Broken Encoder :=
  if 0 < s.bitsCollected then
    if s.bitsCollected < 6 then
      let accumulator := u32 (s.accumulator <<< (6 - s.bitsCollected))
      { s with accumulator }.put (b64Table.getD (accumulator &&& 0x3f) 0)
    else .error .assertion
  else .ok s

end Encoder

/-- The largest `size_t`. -/
def sizeMax : ℕ := 2 ^ 64 - 1

def base64Encode (bindata : List UInt8) : Except Broken (List UInt8) :=
  if sizeMax / 4 * 3 < bindata.length then .ok []
  else do
    let s ← bindata.foldlM Encoder.feed
      { retval := List.replicate ((bindata.length + 2) / 3 * 4) 61 }
    let s ← s.finish
    if (s.retval.length + (sizeMax - 1)) % (sizeMax + 1) ≤ s.outpos ∧
        s.outpos ≤ s.retval.length then
      .ok s.retval
    else .error .assertion

def isSpace (c : UInt8) : Bool := c = 32 || (9 ≤ c && c ≤ 13)

/-- White space and padding, which the decoder passes over wherever they stand. -/
def isSkipped (c : UInt8) : Bool := isSpace c || c = 61

/-- `retval`, `bits_collected` and `accumulator`. -/
structure Decoder where
  retval : List UInt8 := []
  bitsCollected : ℕ := 0
  accumulator : ℕ := 0
  deriving DecidableEq, Repr

/-- Six more bits, and a byte of them if there are eight. -/
def Decoder.feed (s : Decoder) (value : ℕ) : Decoder :=
  let accumulator := u32 (s.accumulator <<< 6) ||| value
  let bitsCollected := s.bitsCollected + 6
  if 8 ≤ bitsCollected then
    { retval := s.retval ++ [UInt8.ofNat ((accumulator >>> (bitsCollected - 8)) &&& 0xff)]
      bitsCollected := bitsCollected - 8
      accumulator }
  else { s with bitsCollected, accumulator }

/-- The loop of `base64_decode`. A character is signed. -/
def decodeLoop : List UInt8 → Decoder → List UInt8
  | [], s => s.retval
  | c :: rest, s =>
    if isSkipped c then decodeLoop rest s
    else if 127 < c.toNat ∨ 63 < reverseTable.getD c.toNat 64 then []
    else decodeLoop rest (s.feed (reverseTable.getD c.toNat 64))

/-- `base64_decode`. Of a text with a character that is none of the code nothing is returned. -/
def base64Decode (ascdata : List UInt8) : List UInt8 := decodeLoop ascdata {}

theorem table (n : Fin 64) :
    b64Table.getD n 0 = Base64.digit n ∧ JwkEncode.toB64 n = Base64.digit n ∧
      isSkipped (Base64.digit n) = false ∧ (Base64.digit n).toNat ≤ 127 ∧
      reverseTable.getD (Base64.digit n).toNat 64 = n := by
  revert n
  decide +kernel

theorem b64Table_eq {n : ℕ} (hn : n < 64) : b64Table.getD n 0 = Base64.digit n :=
  (table ⟨n, hn⟩).1

theorem toB64_eq {n : ℕ} (hn : n < 64) : JwkEncode.toB64 n = Base64.digit n :=
  (table ⟨n, hn⟩).2.1

namespace Encoder

/-- The encoder with a part of its text done. -/
def partly (done : List UInt8) (k bitsCollected accumulator : ℕ) : Encoder where
  retval := done ++ List.replicate k 61
  outpos := done.length
  bitsCollected
  accumulator

variable {done : List UInt8} {fuel k j acc v : ℕ}

theorem put_partly (c : UInt8) :
    (partly done (k + 1) j acc).put c = .ok (partly (done ++ [c]) k j acc) := by
  have hroom : done.length < (done ++ List.replicate (k + 1) (61 : UInt8)).length := by simp
  have hset : (done ++ List.replicate (k + 1) (61 : UInt8)).set done.length c =
      done ++ [c] ++ List.replicate k 61 := by
    rw [List.set_append_right _ _ le_rfl, Nat.sub_self, List.replicate_succ, List.set_cons_zero,
      List.append_assoc]
    rfl
  rw [put, if_pos (by exact hroom)]
  simp only [partly, hset, List.length_append, List.length_singleton]

/-- One turn of the inner loop takes a digit from the bits that are pending. -/
theorem collect_digit (hv : acc % 2 ^ (j + 6) = v) :
    collect (fuel + 1) (partly done (k + 1) (j + 6) acc) =
      collect fuel (partly (done ++ [Base64.digit (v / 2 ^ j)]) k j acc) := by
  have hout : (acc >>> j) &&& 0x3f = v / 2 ^ j := by
    rw [← hv]
    exact Base64.shiftOut_eq acc j 6
  have hlt : v / 2 ^ j < 64 := by
    rw [← hout, JwkEncode.and_sixtyThree]
    exact Nat.mod_lt _ (by decide)
  have hturn : collect (fuel + 1) (partly done (k + 1) (j + 6) acc) =
      (partly done (k + 1) j acc).put (b64Table.getD ((acc >>> j) &&& 0x3f) 0) >>=
        collect fuel := by
    rw [collect]
    exact if_pos (Nat.le_add_left 6 j)
  rw [hturn, hout, b64Table_eq hlt, put_partly]
  rfl

theorem collect_done (hj : j < 6) :
    collect fuel (partly done k j acc) = .ok (partly done k j acc) := by
  cases fuel with
  | zero => rfl
  | succ fuel =>
    rw [collect]
    exact if_neg (Nat.not_le.mpr hj)

/-- What is in the register after a byte. -/
def fed (acc : ℕ) (i : UInt8) : ℕ := u32 (acc <<< 8) ||| i.toNat

theorem fed_mod (acc : ℕ) (i : UInt8) (hj : j ≤ 24) :
    fed acc i % 2 ^ (j + 8) = acc % 2 ^ j * 2 ^ 8 + i.toNat :=
  Base64.shiftIn_mod acc (UInt8.toNat_lt i) (by omega)

theorem feed_partly (i : UInt8) :
    (partly done k j acc).feed i = collect (j + 8) (partly done k (j + 8) (fed acc i)) :=
  rfl

theorem feed_first (x : UInt8) :
    (partly done (k + 1) 0 acc).feed x =
      .ok (partly (done ++ [Base64.digit (x.toNat / 4)]) k 2 (fed acc x)) := by
  have hv : fed acc x % 2 ^ (2 + 6) = x.toNat := by
    rw [fed_mod acc x (Nat.zero_le 24), Nat.pow_zero, Nat.mod_one, Nat.zero_mul, Nat.zero_add]
  rw [feed_partly]
  exact (collect_digit hv).trans (collect_done (by decide))

theorem feed_second (y : UInt8) {p : ℕ} (hp : acc % 4 = p) :
    (partly done (k + 1) 2 acc).feed y =
      .ok (partly (done ++ [Base64.digit (p * 16 + y.toNat / 16)]) k 4 (fed acc y)) := by
  have hv : fed acc y % 2 ^ (4 + 6) = p * 2 ^ 8 + y.toNat := by
    rw [← hp]
    exact fed_mod acc y (by decide : 2 ≤ 24)
  have hdigit : (p * 2 ^ 8 + y.toNat) / 2 ^ 4 = p * 16 + y.toNat / 16 := by omega
  rw [feed_partly]
  refine (collect_digit hv).trans ?_
  rw [hdigit]
  exact collect_done (by decide)

theorem feed_third (z : UInt8) {p : ℕ} (hp : acc % 16 = p) :
    (partly done (k + 2) 4 acc).feed z =
      .ok (partly (done ++ [Base64.digit (p * 4 + z.toNat / 64), Base64.digit (z.toNat % 64)]) k 0
        (fed acc z)) := by
  have hv : fed acc z % 2 ^ (6 + 6) = p * 2 ^ 8 + z.toNat := by
    rw [← hp]
    exact fed_mod acc z (by decide : 4 ≤ 24)
  have hlow : fed acc z % 2 ^ (0 + 6) = z.toNat % 64 := by
    have hdvd : 2 ^ (0 + 6) ∣ 2 ^ (6 + 6) := by decide
    rw [← Nat.mod_mod_of_dvd _ hdvd, hv]
    omega
  have hdigit : (p * 2 ^ 8 + z.toNat) / 2 ^ 6 = p * 4 + z.toNat / 64 := by omega
  rw [feed_partly]
  refine (collect_digit hv).trans ((collect_digit hlow).trans ?_)
  rw [hdigit, Nat.pow_zero, Nat.div_one, List.append_assoc]
  exact collect_done (by decide)

theorem fed_mod_four (acc : ℕ) (x : UInt8) : fed acc x % 4 = x.toNat % 4 := by
  have hlow : fed acc x % 2 ^ 8 = acc % 2 ^ 0 * 2 ^ 8 + x.toNat := fed_mod acc x (Nat.zero_le 24)
  omega

theorem fed_mod_sixteen (acc : ℕ) (y : UInt8) : fed acc y % 16 = y.toNat % 16 := by
  have hlow : fed acc y % 2 ^ 8 = acc % 2 ^ 0 * 2 ^ 8 + y.toNat := fed_mod acc y (Nat.zero_le 24)
  omega

theorem finish_partly (done : List UInt8) (k acc : ℕ) (h : 0 < j ∧ j < 6) :
    ∃ acc', (partly done (k + 1) j acc).finish =
      .ok (partly (done ++ [Base64.digit (acc % 2 ^ j * 2 ^ (6 - j))]) k j acc') := by
  have hin : u32 (acc <<< (6 - j)) &&& 0x3f = acc % 2 ^ j * 2 ^ (6 - j) := by
    have hmod := Base64.shiftIn_mod acc (Nat.two_pow_pos (6 - j)) (by omega : j + (6 - j) ≤ 32)
    rw [Nat.or_zero, Nat.add_sub_cancel' h.2.le, Nat.add_zero] at hmod
    rw [JwkEncode.and_sixtyThree]
    exact hmod
  have hlt : acc % 2 ^ j * 2 ^ (6 - j) < 64 := by
    rw [← hin, JwkEncode.and_sixtyThree]
    exact Nat.mod_lt _ (by decide)
  refine ⟨u32 (acc <<< (6 - j)), ?_⟩
  have hput : (partly done (k + 1) j acc).finish = (partly done (k + 1) j
      (u32 (acc <<< (6 - j)))).put (b64Table.getD (u32 (acc <<< (6 - j)) &&& 0x3f) 0) := by
    rw [finish]
    exact (if_pos h.1).trans (if_pos h.2)
  rw [hput, hin, b64Table_eq hlt, put_partly]

/-- The whole text is there, and at most two characters of it are padding. -/
theorem foldlM_feed (bytes : List UInt8) (done : List UInt8) (acc : ℕ) :
    ∃ s s', bytes.foldlM feed (partly done ((bytes.length + 2) / 3 * 4) 0 acc) = .ok s ∧
      s.finish = .ok s' ∧ s'.retval = done ++ Base64.encode bytes ∧
      s'.outpos ≤ s'.retval.length ∧ s'.retval.length ≤ s'.outpos + 2 := by
  induction bytes using Base64.encode.induct generalizing done acc with
  | case1 =>
    refine ⟨partly done 0 0 acc, partly done 0 0 acc, rfl, rfl, rfl, ?_, ?_⟩
    · simp [partly]
    · simp [partly]
  | case2 x =>
    obtain ⟨acc', hfinish⟩ := finish_partly (done ++ [Base64.digit (x.toNat / 4)]) 2 (fed acc x)
      (by decide : 0 < 2 ∧ 2 < 6)
    have hsize : ([x].length + 2) / 3 * 4 = 3 + 1 := by simp
    refine ⟨_, _, ?_, hfinish, ?_, ?_, ?_⟩
    · rw [hsize, List.foldlM_cons, feed_first x]
      rfl
    · have hlow : fed acc x % 2 ^ 2 * 2 ^ (6 - 2) = x.toNat % 4 * 16 :=
        congrArg (· * 16) (fed_mod_four acc x)
      rw [hlow]
      simp [partly, Base64.encode, Base64.padding]
    · simp [partly]
    · simp [partly]
  | case3 x y =>
    have hx : fed acc x % 4 = x.toNat % 4 := fed_mod_four acc x
    obtain ⟨acc', hfinish⟩ := finish_partly
      (done ++ [Base64.digit (x.toNat / 4)] ++ [Base64.digit (x.toNat % 4 * 16 + y.toNat / 16)]) 1
      (fed (fed acc x) y) (by decide : 0 < 4 ∧ 4 < 6)
    have hsize : ([x, y].length + 2) / 3 * 4 = 3 + 1 := by simp
    refine ⟨_, _, ?_, hfinish, ?_, ?_, ?_⟩
    · rw [hsize, List.foldlM_cons, feed_first x]
      show [y].foldlM feed _ = _
      rw [List.foldlM_cons, feed_second y hx]
      rfl
    · have hlow : fed (fed acc x) y % 2 ^ 4 * 2 ^ (6 - 4) = y.toNat % 16 * 4 :=
        congrArg (· * 4) (fed_mod_sixteen (fed acc x) y)
      rw [hlow]
      simp [partly, Base64.encode, Base64.padding]
    · simp [partly]
    · simp [partly]
  | case4 x y z rest ih =>
    have hx : fed acc x % 4 = x.toNat % 4 := fed_mod_four acc x
    have hy : fed (fed acc x) y % 16 = y.toNat % 16 := fed_mod_sixteen (fed acc x) y
    obtain ⟨s, s', hrest, hfinish, htext, hinside, hpadding⟩ := ih
      (done ++ [Base64.digit (x.toNat / 4)] ++ [Base64.digit (x.toNat % 4 * 16 + y.toNat / 16)] ++
        [Base64.digit (y.toNat % 16 * 4 + z.toNat / 64), Base64.digit (z.toNat % 64)])
      (fed (fed (fed acc x) y) z)
    have hsize : ((x :: y :: z :: rest).length + 2) / 3 * 4 =
        (rest.length + 2) / 3 * 4 + 2 + 1 + 1 := by
      simp only [List.length_cons]
      omega
    refine ⟨s, s', ?_, hfinish, ?_, hinside, hpadding⟩
    · rw [List.foldlM_cons, hsize, feed_first x]
      show (y :: z :: rest).foldlM feed _ = _
      rw [List.foldlM_cons, feed_second y hx]
      show (z :: rest).foldlM feed _ = _
      rw [List.foldlM_cons, feed_third z hy]
      exact hrest
    · rw [htext, Base64.encode]
      simp

end Encoder

theorem size_sub_two {n : ℕ} (hn : 2 ≤ n ∧ n ≤ sizeMax) :
    (n + (sizeMax - 1)) % (sizeMax + 1) = n - 2 := by
  rw [sizeMax] at hn ⊢
  omega

theorem base64Encode_eq {bindata : List UInt8} (hne : bindata ≠ [])
    (hfits : bindata.length ≤ sizeMax / 4 * 3) :
    base64Encode bindata = .ok (Base64.encode bindata) := by
  obtain ⟨s, s', hrun, hfinish, htext, hinside, hpadding⟩ := Encoder.foldlM_feed bindata [] 0
  rw [List.nil_append] at htext
  have hlength : s'.retval.length = (bindata.length + 2) / 3 * 4 := by
    rw [htext, Base64.length_encode]
  have hpos : 0 < bindata.length := List.length_pos_iff.mpr hne
  have hsize : 2 ≤ s'.retval.length ∧ s'.retval.length ≤ sizeMax := by
    rw [hlength]
    rw [sizeMax] at hfits ⊢
    omega
  have hasserts : (s'.retval.length + (sizeMax - 1)) % (sizeMax + 1) ≤ s'.outpos ∧
      s'.outpos ≤ s'.retval.length := by
    rw [size_sub_two hsize]
    omega
  rw [base64Encode, if_neg (Nat.not_lt.mpr hfits), ← htext]
  have hstart : ({ retval := List.replicate ((bindata.length + 2) / 3 * 4) 61 } : Encoder) =
      Encoder.partly [] ((bindata.length + 2) / 3 * 4) 0 0 := rfl
  rw [hstart, hrun]
  simp only [bind, Except.bind, hfinish]
  rw [if_pos hasserts]

namespace Decoder

variable {ret : List UInt8} {i acc n : ℕ}

def partly (ret : List UInt8) (bitsCollected accumulator : ℕ) : Decoder where
  retval := ret
  bitsCollected
  accumulator

/-- What is in the register after a digit. -/
def fed (acc n : ℕ) : ℕ := u32 (acc <<< 6) ||| n

theorem fed_mod (hn : n < 64) (hi : i ≤ 26) :
    fed acc n % 2 ^ (i + 6) = acc % 2 ^ i * 2 ^ 6 + n :=
  Base64.shiftIn_mod acc hn (by omega)

theorem fed_mod_sixtyFour (acc : ℕ) (hn : n < 64) : fed acc n % 64 = n := by
  have hlow : fed acc n % 2 ^ (0 + 6) = acc % 2 ^ 0 * 2 ^ 6 + n := fed_mod hn (Nat.zero_le 26)
  omega

theorem feed_first : (partly ret 0 acc).feed n = partly ret 6 (fed acc n) := rfl

theorem feed_partly (hn : n < 64) (hi : i ≤ 24) :
    (partly ret (i + 2) acc).feed n =
      partly (ret ++ [UInt8.ofNat ((acc % 2 ^ (i + 2) * 64 + n) / 2 ^ i)]) i (fed acc n) := by
  have hbyte : (fed acc n >>> i) &&& 0xff = (acc % 2 ^ (i + 2) * 64 + n) / 2 ^ i := by
    have hout : (fed acc n >>> i) &&& (2 ^ 8 - 1) = _ := Base64.shiftOut_eq (fed acc n) i 8
    have hmod : fed acc n % 2 ^ (i + 2 + 6) = acc % 2 ^ (i + 2) * 2 ^ 6 + n :=
      fed_mod hn (by omega)
    rw [Nat.add_assoc] at hmod
    rw [hmod] at hout
    exact hout
  rw [feed]
  refine (if_pos (by show 8 ≤ i + 2 + 6; omega)).trans ?_
  show partly (ret ++ [UInt8.ofNat ((fed acc n >>> i) &&& 0xff)]) i (fed acc n) = _
  rw [hbyte]

theorem feed_six {m : ℕ} (hm : m < 64) (hn : n < 64) :
    (partly ret 6 (fed acc m)).feed n =
      partly (ret ++ [UInt8.ofNat ((m * 64 + n) / 2 ^ 4)]) 4 (fed (fed acc m) n) := by
  have hlow : fed acc m % 2 ^ (4 + 2) = m := fed_mod_sixtyFour acc hm
  have hfeed : (partly ret (4 + 2) (fed acc m)).feed n = _ := feed_partly hn (by decide : 4 ≤ 24)
  rw [hlow] at hfeed
  exact hfeed

theorem feed_four {m : ℕ} (hm : m < 64) (hn : n < 64) :
    (partly ret 4 (fed acc m)).feed n =
      partly (ret ++ [UInt8.ofNat ((m % 16 * 64 + n) / 2 ^ 2)]) 2 (fed (fed acc m) n) := by
  have hsixtyFour := fed_mod_sixtyFour acc hm
  have hlow : fed acc m % 2 ^ (2 + 2) = m % 16 := by omega
  have hfeed : (partly ret (2 + 2) (fed acc m)).feed n = _ := feed_partly hn (by decide : 2 ≤ 24)
  rw [hlow] at hfeed
  exact hfeed

theorem feed_two {m : ℕ} (hm : m < 64) (hn : n < 64) :
    (partly ret 2 (fed acc m)).feed n =
      partly (ret ++ [UInt8.ofNat ((m % 4 * 64 + n) / 2 ^ 0)]) 0 (fed (fed acc m) n) := by
  have hsixtyFour := fed_mod_sixtyFour acc hm
  have hlow : fed acc m % 2 ^ (0 + 2) = m % 4 := by omega
  have hfeed : (partly ret (0 + 2) (fed acc m)).feed n = _ := feed_partly hn (by decide : 0 ≤ 24)
  rw [hlow] at hfeed
  exact hfeed

end Decoder

section Decode

variable {rest text : List UInt8} {s : Decoder} {n : ℕ}

theorem decodeLoop_digit (hn : n < 64) :
    decodeLoop (Base64.digit n :: rest) s = decodeLoop rest (s.feed n) := by
  obtain ⟨-, -, hskipped, hascii, hvalue⟩ := table ⟨n, hn⟩
  have hvalid : ¬(127 < (Base64.digit n).toNat ∨ 63 < n) :=
    not_or.mpr ⟨Nat.not_lt.mpr hascii, by omega⟩
  rw [decodeLoop, hskipped, if_neg Bool.false_ne_true, hvalue, if_neg hvalid]

theorem decodeLoop_skipped {c : UInt8} (hc : isSkipped c = true) :
    decodeLoop (c :: rest) s = decodeLoop rest s := by
  rw [decodeLoop, if_pos hc]

theorem decodeLoop_encode (bytes ret : List UInt8) (acc : ℕ) :
    decodeLoop (Base64.encode bytes) (Decoder.partly ret 0 acc) = ret ++ bytes := by
  have hpadding : isSkipped Base64.padding = true := by decide
  induction bytes using Base64.encode.induct generalizing ret acc with
  | case1 => exact (List.append_nil ret).symm
  | case2 x =>
    have hx := UInt8.toNat_lt x
    have h₁ : x.toNat / 4 < 64 := by omega
    have h₂ : x.toNat % 4 * 16 < 64 := by omega
    have hbyte : (x.toNat / 4 * 64 + x.toNat % 4 * 16) / 2 ^ 4 = x.toNat := by omega
    rw [Base64.encode, decodeLoop_digit h₁, Decoder.feed_first, decodeLoop_digit h₂,
      Decoder.feed_six h₁ h₂, hbyte, decodeLoop_skipped hpadding, decodeLoop_skipped hpadding]
    simp [decodeLoop, Decoder.partly]
  | case3 x y =>
    have hx := UInt8.toNat_lt x
    have hy := UInt8.toNat_lt y
    have h₁ : x.toNat / 4 < 64 := by omega
    have h₂ : x.toNat % 4 * 16 + y.toNat / 16 < 64 := by omega
    have h₃ : y.toNat % 16 * 4 < 64 := by omega
    have hfirst : (x.toNat / 4 * 64 + (x.toNat % 4 * 16 + y.toNat / 16)) / 2 ^ 4 = x.toNat := by
      omega
    have hsecond : ((x.toNat % 4 * 16 + y.toNat / 16) % 16 * 64 + y.toNat % 16 * 4) / 2 ^ 2 =
        y.toNat := by omega
    rw [Base64.encode, decodeLoop_digit h₁, Decoder.feed_first, decodeLoop_digit h₂,
      Decoder.feed_six h₁ h₂, hfirst, decodeLoop_digit h₃, Decoder.feed_four h₂ h₃, hsecond,
      decodeLoop_skipped hpadding]
    simp [decodeLoop, Decoder.partly]
  | case4 x y z rest ih =>
    have hx := UInt8.toNat_lt x
    have hy := UInt8.toNat_lt y
    have hz := UInt8.toNat_lt z
    have h₁ : x.toNat / 4 < 64 := by omega
    have h₂ : x.toNat % 4 * 16 + y.toNat / 16 < 64 := by omega
    have h₃ : y.toNat % 16 * 4 + z.toNat / 64 < 64 := by omega
    have h₄ : z.toNat % 64 < 64 := by omega
    have hfirst : (x.toNat / 4 * 64 + (x.toNat % 4 * 16 + y.toNat / 16)) / 2 ^ 4 = x.toNat := by
      omega
    have hsecond : ((x.toNat % 4 * 16 + y.toNat / 16) % 16 * 64 +
        (y.toNat % 16 * 4 + z.toNat / 64)) / 2 ^ 2 = y.toNat := by omega
    have hthird : ((y.toNat % 16 * 4 + z.toNat / 64) % 4 * 64 + z.toNat % 64) / 2 ^ 0 =
        z.toNat := by omega
    rw [Base64.encode, decodeLoop_digit h₁, Decoder.feed_first, decodeLoop_digit h₂,
      Decoder.feed_six h₁ h₂, hfirst, decodeLoop_digit h₃, Decoder.feed_four h₂ h₃, hsecond,
      decodeLoop_digit h₄, Decoder.feed_two h₃ h₄, hthird, ih]
    simp

theorem decodeLoop_filter (text : List UInt8) (s : Decoder) :
    decodeLoop text s = decodeLoop (text.filter fun c => !isSkipped c) s := by
  induction text generalizing s with
  | nil => rfl
  | cons c rest ih =>
    by_cases hc : isSkipped c = true
    · rw [decodeLoop_skipped hc, List.filter_cons_of_neg (by simp [hc])]
      exact ih s
    · rw [List.filter_cons_of_pos (by simp [hc]), decodeLoop, decodeLoop, if_neg hc, if_neg hc,
        ← ih]

end Decode

/-- `jwk_base64_encode` of a string, whose size becomes an `int`. It must fit one. -/
def jwkBase64 (bindata : List UInt8) : Option (List UInt8) :=
  let len := (bindata.length : ℤ).bmod (2 ^ 32)
  if JwkEncode.SizeFits len then JwkEncode.jwkBase64Encode true bindata len else none

/-- The encoding is base64 and is decoded again, and the second encoder agrees. -/
def Faithful (bindata : List UInt8) : Prop :=
  base64Encode bindata = .ok (Base64.encode bindata) ∧
    base64Decode (Base64.encode bindata) = bindata ∧
    jwkBase64 bindata = some (Base64.encode bindata)

theorem encodeLoop_eq (bytes : List UInt8) : JwkEncode.encodeLoop bytes = Base64.encode bytes := by
  induction bytes using Base64.encode.induct with
  | case1 => rfl
  | case2 x =>
    have hx := UInt8.toNat_lt x
    rw [JwkEncode.encodeLoop, JwkEncode.firstDigit_eq, JwkEncode.secondDigit_last_eq,
      toB64_eq (by omega), toB64_eq (by omega)]
    rfl
  | case3 x y =>
    have hx := UInt8.toNat_lt x
    have hy := UInt8.toNat_lt y
    rw [JwkEncode.encodeLoop, JwkEncode.firstDigit_eq, JwkEncode.secondDigit_eq,
      JwkEncode.thirdDigit_last_eq, toB64_eq (by omega), toB64_eq (by omega), toB64_eq (by omega)]
    rfl
  | case4 x y z rest ih =>
    have hx := UInt8.toNat_lt x
    have hy := UInt8.toNat_lt y
    have hz := UInt8.toNat_lt z
    rw [JwkEncode.encodeLoop, JwkEncode.firstDigit_eq, JwkEncode.secondDigit_eq,
      JwkEncode.thirdDigit_eq, JwkEncode.and_sixtyThree, toB64_eq (by omega), toB64_eq (by omega),
      toB64_eq (by omega), toB64_eq (by omega), ih]
    rfl

/-- The size of the code and of its NUL fits an `int`, in which the function computes it. -/
def CodeFits (bindata : List UInt8) : Prop := 4 * ((bindata.length + 2) / 3) + 1 < 2 ^ 31

/-- What the second encoder returns is the encoding of the part of the string that it was told. -/
theorem jwkBase64_eq_some {bindata code : List UInt8} (h : jwkBase64 bindata = some code) :
    JwkEncode.SizeFits ((bindata.length : ℤ).bmod (2 ^ 32)) ∧
      code = Base64.encode (bindata.take ((bindata.length : ℤ).bmod (2 ^ 32)).toNat) := by
  rw [jwkBase64] at h
  split at h
  · next hsize =>
    rw [JwkEncode.jwkBase64Encode] at h
    split at h
    · rw [← Option.some.inj h, encodeLoop_eq]
      exact ⟨hsize, rfl⟩
    · cases h
  · cases h

theorem jwkBase64_iff (bindata : List UInt8) :
    jwkBase64 bindata = some (Base64.encode bindata) ↔ CodeFits bindata := by
  rw [CodeFits, ← JwkEncode.sizeFits_natCast_iff]
  by_cases hlen : bindata.length < 2 ^ 31
  · have hmod := JwkEncode.bmod_length_eq hlen
    constructor
    · intro h
      have hsize := (jwkBase64_eq_some h).1
      rwa [hmod] at hsize
    · intro hsize
      simp only [jwkBase64, hmod]
      rw [if_pos hsize, JwkEncode.jwkBase64Encode,
        if_pos ⟨rfl, JwkEncode.codeSize_natCast_nonneg bindata.length⟩, Int.toNat_natCast,
        List.take_length, encodeLoop_eq]
  · -- the `int` is smaller than the size, and the text too short
    refine iff_of_false ?_ fun hsize => hlen ?_
    · intro h
      obtain ⟨hsize, htext⟩ := jwkBase64_eq_some h
      have hlengths := congrArg List.length htext
      have htold := hsize.1
      rw [Base64.length_encode, Base64.length_encode, List.length_take] at hlengths
      omega
    · have hsum := hsize.1
      omega

/-- The encoders agree on what is not empty and not too long for an `int`, and for every text the
decoder does not look at white space and padding. -/
theorem base64_iff (bindata ascdata : List UInt8) :
    (Faithful bindata ↔ bindata ≠ [] ∧ CodeFits bindata) ∧
      base64Decode ascdata = base64Decode (ascdata.filter fun c => !isSkipped c) := by
  refine ⟨?_, decodeLoop_filter ascdata {}⟩
  have hdecode : base64Decode (Base64.encode bindata) = bindata := decodeLoop_encode bindata [] 0
  rw [Faithful, and_iff_right hdecode, jwkBase64_iff]
  refine and_congr_left fun hfits => ?_
  constructor
  · rintro hencode rfl
    exact absurd hencode (by decide)
  · intro hne
    refine base64Encode_eq hne ?_
    rw [CodeFits] at hfits
    have hlimit : 2 ^ 31 ≤ sizeMax / 4 * 3 := by decide
    omega

/-- Without bytes the first assertion fails. -/
theorem not_base64 : ¬ ∀ bindata : List UInt8, Faithful bindata := fun h =>
  absurd (h []).1 (by decide)

end Base64Codec

end ImServer
