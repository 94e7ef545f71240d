import Mathlib.Data.List.Basic

/-!
# Texts of URLs

`URLEncode` and `URLDecode` (base/util.cpp). A letter or a digit is written as it is, and any other
byte as a percent sign and two upper case digits. The decoder takes the two characters behind a
percent sign without a test, and it takes what is not a decimal digit for an upper case letter.

A lower case letter has 32 more than it should have. As the first digit that is shifted out, and as
the second digit it is a bit of the first one, which may be set already.
-/

namespace ImServer

namespace UrlCodec

def isDigit (c : UInt8) : Bool := 48 ≤ c && c ≤ 57

def isAlnum (c : UInt8) : Bool := isDigit c || (65 ≤ c && c ≤ 90) || (97 ≤ c && c ≤ 122)

def toHex (x : UInt8) : UInt8 := if x > 9 then x - 10 + 65 else x + 48

def fromHex (x : UInt8) : UInt8 := if isDigit x then x - 48 else x - 65 + 10

/-- What `URLEncode` appends for a byte. -/
def encodeByte (c : UInt8) : List UInt8 :=
  if isAlnum c then [c] else [37, toHex (c >>> 4), toHex (c % 16)]

def urlEncode (s : List UInt8) : List UInt8 := s.flatMap encodeByte

/-- The byte of two characters behind a percent sign. -/
def hexByte (a b : UInt8) : UInt8 := fromHex a <<< 4 ||| fromHex b

/-- What any other character stands for. -/
def plain (c : UInt8) : UInt8 := if c = 43 then 32 else c

/-- The loop of `URLDecode` from a place on: the last place that each round reads, and what it
appends. At the end of the text there is a NUL, and `behind` is what is in memory after that. -/
def rounds (behind : UInt8) (ix : ℕ) : List UInt8 → List (ℕ × UInt8)
  | [] => []
  | [c] => if c = 37 then [(ix + 2, hexByte 0 behind)] else [(ix, plain c)]
  | [c, a] =>
    if c = 37 then [(ix + 2, hexByte a 0)] else (ix, plain c) :: rounds behind (ix + 1) [a]
  | c :: a :: b :: rest =>
    if c = 37 then (ix + 2, hexByte a b) :: rounds behind (ix + 3) rest
    else (ix, plain c) :: rounds behind (ix + 1) (a :: b :: rest)

def urlDecode (behind : UInt8) (s : List UInt8) : List UInt8 := (rounds behind 0 s).map Prod.snd

def isUpperHex (c : UInt8) : Bool := isDigit c || (65 ≤ c && c ≤ 70)

/-- Letters, digits and triples of a percent sign and two digits. -/
inductive Encoded : List UInt8 → Prop where
  | nil : Encoded []
  | alnum {c : UInt8} {rest : List UInt8} (hc : isAlnum c = true) (h : Encoded rest) :
      Encoded (c :: rest)
  | triple {a b : UInt8} {rest : List UInt8} (ha : isUpperHex a = true) (hb : isUpperHex b = true)
      (h : Encoded rest) : Encoded (37 :: a :: b :: rest)

def isLowerHex (c : UInt8) : Bool := 97 ≤ c && c ≤ 102

def upperHex (c : UInt8) : UInt8 := if isLowerHex c then c - 32 else c

/-- The text with the digits of its triples in upper case. -/
def upper : List UInt8 → List UInt8
  | [] => []
  | [c] => [c]
  | [c, a] => [c, a]
  | c :: a :: b :: rest =>
    if c = 37 then c :: upperHex a :: upperHex b :: upper rest else c :: upper (a :: b :: rest)

/-- Only places of the text are read, and the digits may be of either case. -/
structure Decodes (behind : UInt8) (text : List UInt8) : Prop where
  inside : ∀ round ∈ rounds behind 0 text, round.1 < text.length
  anyCase : urlDecode behind text = urlDecode behind (upper text)

/-- A first digit whose value has the second bit from the right. -/
def hasSecondBit (a : UInt8) : Bool := if isDigit a then 2 ≤ a % 4 else a % 4 = 1 || a % 4 = 2

/-- Each percent sign has two characters behind it, and if the second one is a lower case digit the
value of the first one has the bit. -/
inductive Safe : List UInt8 → Prop where
  | nil : Safe []
  | char {c : UInt8} {rest : List UInt8} (hc : c ≠ 37) (h : Safe rest) : Safe (c :: rest)
  | triple {a b : UInt8} {rest : List UInt8} (hab : isLowerHex b = true → hasSecondBit a = true)
      (h : Safe rest) : Safe (37 :: a :: b :: rest)

section Rounds

variable {behind a b c : UInt8} {ix : ℕ} {text rest : List UInt8}

@[elab_as_elim]
theorem text_induction {motive : List UInt8 → Prop} (nil : motive [])
    (cut : ∀ rest, rest.length < 2 → motive (37 :: rest))
    (char : ∀ c rest, c ≠ 37 → motive rest → motive (c :: rest))
    (triple : ∀ a b rest, motive rest → motive (37 :: a :: b :: rest)) (text : List UInt8) :
    motive text := by
  induction hn : text.length using Nat.strongRecOn generalizing text with
  | _ n ih =>
    match text with
    | [] => exact nil
    | c :: rest =>
      rw [List.length_cons] at hn
      by_cases hc : c = 37
      · subst hc
        match rest with
        | [] => exact cut [] (by decide)
        | [a] => exact cut [a] (Nat.lt_succ_self 1)
        | a :: b :: rest =>
          rw [List.length_cons, List.length_cons] at hn
          exact triple a b rest (ih rest.length (by omega) rest rfl)
      · exact char c rest hc (ih rest.length (by omega) rest rfl)

theorem rounds_char (hc : c ≠ 37) :
    rounds behind ix (c :: rest) = (ix, plain c) :: rounds behind (ix + 1) rest := by
  match rest with
  | [] => exact if_neg hc
  | [a] => exact if_neg hc
  | a :: b :: rest => exact if_neg hc

theorem rounds_triple : rounds behind ix (37 :: a :: b :: rest) =
    (ix + 2, hexByte a b) :: rounds behind (ix + 3) rest :=
  if_pos rfl

/-- A percent sign near the end is read together with what is behind the text. -/
theorem mem_rounds_cut (h : rest.length < 2) :
    ∃ c, (ix + 2, c) ∈ rounds behind ix (37 :: rest) := by
  match rest with
  | [] => exact ⟨_, List.mem_singleton_self _⟩
  | [a] => exact ⟨_, List.mem_singleton_self _⟩
  | a :: b :: rest =>
    rw [List.length_cons, List.length_cons] at h
    omega

theorem upper_char (hc : c ≠ 37) : upper (c :: rest) = c :: upper rest := by
  match rest with
  | [] => rfl
  | [a] => rfl
  | a :: b :: rest => exact if_neg hc

theorem upper_triple :
    upper (37 :: a :: b :: rest) = 37 :: upperHex a :: upperHex b :: upper rest :=
  if_pos rfl

end Rounds

theorem of_toNat_lt {m : ℕ} {p : UInt8 → Prop} (h : ∀ n < m, p (UInt8.ofNat n)) {d : UInt8}
    (hd : d.toNat < m) : p d := by
  have hp : p (UInt8.ofNat d.toNat) := h d.toNat hd
  rwa [UInt8.ofNat_toNat] at hp

section RoundTrip

variable {behind c d : UInt8}

theorem fromHex_toHex (h : d.toNat < 16) : fromHex (toHex d) = d :=
  of_toNat_lt (p := fun d => fromHex (toHex d) = d) (by decide) h

theorem isUpperHex_toHex (h : d.toNat < 16) : isUpperHex (toHex d) = true :=
  of_toNat_lt (p := fun d => isUpperHex (toHex d) = true) (by decide) h

theorem toNat_shiftRight_lt (c : UInt8) : (c >>> 4).toNat < 16 := by
  rw [UInt8.toNat_shiftRight, Nat.shiftRight_eq_div_pow]
  exact Nat.div_lt_of_lt_mul c.toNat_lt

theorem toNat_mod_lt (c : UInt8) : (c % 16).toNat < 16 := by
  rw [UInt8.toNat_mod]
  exact Nat.mod_lt _ (by decide)

theorem shiftRight_shiftLeft_or_mod (c : UInt8) : (c >>> 4) <<< 4 ||| c % 16 = c := by
  have hlt : c.toNat < 2 ^ 8 := c.toNat_lt
  have hhigh : ((c >>> 4) <<< 4).toNat = (c.toNat / 16) <<< 4 := by
    have hshift : (c >>> 4).toNat = c.toNat / 16 := by
      rw [UInt8.toNat_shiftRight, Nat.shiftRight_eq_div_pow]
      rfl
    rw [UInt8.toNat_shiftLeft, hshift]
    refine Nat.mod_eq_of_lt ?_
    rw [Nat.shiftLeft_eq]
    show c.toNat / 16 * 16 < 2 ^ 8
    omega
  have hlow : (c % 16).toNat = c.toNat % 16 := UInt8.toNat_mod c 16
  refine UInt8.toNat.inj ?_
  rw [UInt8.toNat_or, hhigh, hlow, ← Nat.shiftLeft_add_eq_or_of_lt (Nat.mod_lt _ (by decide)),
    Nat.shiftLeft_eq]
  omega

theorem hexByte_toHex (c : UInt8) : hexByte (toHex (c >>> 4)) (toHex (c % 16)) = c := by
  rw [hexByte, fromHex_toHex (toNat_shiftRight_lt c), fromHex_toHex (toNat_mod_lt c)]
  exact shiftRight_shiftLeft_or_mod c

theorem ne_of_isAlnum (h : isAlnum c = true) : c ≠ 37 ∧ c ≠ 43 := by
  constructor
  · rintro rfl
    exact absurd h (by decide)
  · rintro rfl
    exact absurd h (by decide)

theorem map_snd_rounds_urlEncode (s : List UInt8) (ix : ℕ) :
    (rounds behind ix (urlEncode s)).map Prod.snd = s := by
  induction s generalizing ix with
  | nil => rfl
  | cons c s ih =>
    rw [urlEncode, List.flatMap_cons, encodeByte]
    split
    · next hc =>
      obtain ⟨hpercent, hplus⟩ := ne_of_isAlnum hc
      rw [List.singleton_append, rounds_char hpercent, List.map_cons, plain, if_neg hplus]
      exact congrArg (c :: ·) (ih (ix + 1))
    · rw [List.cons_append, List.cons_append, List.cons_append, List.nil_append, rounds_triple,
        List.map_cons, hexByte_toHex]
      exact congrArg (c :: ·) (ih (ix + 3))

theorem urlDecode_urlEncode (s : List UInt8) : urlDecode behind (urlEncode s) = s :=
  map_snd_rounds_urlEncode s 0

theorem encoded_urlEncode (s : List UInt8) : Encoded (urlEncode s) := by
  induction s with
  | nil => exact .nil
  | cons c s ih =>
    rw [urlEncode, List.flatMap_cons, encodeByte]
    split
    · next hc => exact .alnum hc ih
    · have hhigh := isUpperHex_toHex (toNat_shiftRight_lt c)
      have hlow := isUpperHex_toHex (toNat_mod_lt c)
      exact .triple hhigh hlow ih

end RoundTrip

section Case

variable {a b : UInt8}

/-- A bit that is not in `d` makes no difference to `x` and `d` if it is set in `x`. -/
theorem or_or_eq_iff {x d m : UInt8} (hd : d &&& m = 0) :
    x ||| (d ||| m) = x ||| d ↔ x ||| m = x := by
  constructor
  · intro h
    refine UInt8.toBitVec_inj.mp (BitVec.eq_of_getElem_eq fun i hi => ?_)
    have hbit := congrArg (fun c : UInt8 => c.toBitVec[i]) h
    have hmask := congrArg (fun c : UInt8 => c.toBitVec[i]) hd
    have hzero : (0 : UInt8).toBitVec[i] = false := BitVec.getElem_zero hi
    simp only [UInt8.toBitVec_or, UInt8.toBitVec_and, BitVec.getElem_or, BitVec.getElem_and,
      hzero] at hbit hmask ⊢
    cases hx : x.toBitVec[i] <;> cases hm : m.toBitVec[i] <;> simp_all
  · intro h
    rw [UInt8.or_comm d m, ← UInt8.or_assoc, h]

set_option maxRecDepth 2000 in
/-- The second bit of a value is the one with the place value 32 in the shifted value. -/
theorem shiftLeft_or_eq_iff (a : UInt8) :
    fromHex a <<< 4 ||| (32 : UInt8) = fromHex a <<< 4 ↔ hasSecondBit a = true := by
  have hall : ∀ n < 256, fromHex (UInt8.ofNat n) <<< 4 ||| (32 : UInt8) =
      fromHex (UInt8.ofNat n) <<< 4 ↔ hasSecondBit (UInt8.ofNat n) = true := by decide
  have hbyte := hall a.toNat a.toNat_lt
  rwa [UInt8.ofNat_toNat] at hbyte

theorem exists_of_isLowerHex (h : isLowerHex b = true) : ∃ n < 6, b = UInt8.ofNat (97 + n) := by
  rw [isLowerHex, Bool.and_eq_true, decide_eq_true_eq, decide_eq_true_eq] at h
  have hlow : 97 ≤ b.toNat := h.1
  have hhigh : b.toNat ≤ 102 := h.2
  refine ⟨b.toNat - 97, by omega, ?_⟩
  rw [Nat.add_sub_cancel' hlow, UInt8.ofNat_toNat]

theorem fromHex_shiftLeft_upperHex (a : UInt8) : fromHex (upperHex a) <<< 4 = fromHex a <<< 4 := by
  rw [upperHex]
  split
  · next ha =>
    obtain ⟨n, hn, rfl⟩ := exists_of_isLowerHex ha
    clear ha
    revert n
    decide
  · rfl

theorem fromHex_of_isLowerHex (h : isLowerHex b = true) :
    fromHex b = fromHex (upperHex b) ||| 32 ∧ fromHex (upperHex b) &&& 32 = 0 := by
  obtain ⟨n, hn, rfl⟩ := exists_of_isLowerHex h
  clear h
  revert n
  decide

/-- The two cases of a triple agree if the second digit is not of the lower one, or if what it has
too much is in the first digit. -/
theorem hexByte_eq_iff : hexByte a b = hexByte (upperHex a) (upperHex b) ↔
    (isLowerHex b = true → hasSecondBit a = true) := by
  rw [hexByte, hexByte, fromHex_shiftLeft_upperHex]
  by_cases hb : isLowerHex b = true
  · obtain ⟨hlower, hmask⟩ := fromHex_of_isLowerHex hb
    rw [hlower, or_or_eq_iff hmask, shiftLeft_or_eq_iff]
    exact ⟨fun h _ => h, fun h => h hb⟩
  · have hupper : upperHex b = b := if_neg hb
    rw [hupper]
    exact iff_of_true rfl fun h => absurd h hb

end Case

section Texts

variable {behind a b c : UInt8} {text rest : List UInt8}

theorem safe_char_iff (hc : c ≠ 37) : Safe (c :: rest) ↔ Safe rest := by
  refine ⟨fun h => ?_, .char hc⟩
  cases h with
  | char _ h => exact h
  | triple _ _ => exact absurd rfl hc

theorem safe_triple_iff : Safe (37 :: a :: b :: rest) ↔
    (isLowerHex b = true → hasSecondBit a = true) ∧ Safe rest := by
  refine ⟨fun h => ?_, fun h => .triple h.1 h.2⟩
  cases h with
  | char hc _ => exact absurd rfl hc
  | triple hab h => exact ⟨hab, h⟩

theorem not_safe_cut (hrest : rest.length < 2) : ¬Safe (37 :: rest) := by
  intro h
  cases h with
  | char hc _ => exact hc rfl
  | triple _ _ =>
    rw [List.length_cons, List.length_cons] at hrest
    omega

/-- The loop from a place on. A triple is read up to its second digit, and what it gives is compared
with what its upper case gives. -/
theorem rounds_iff (behind : UInt8) (text : List UInt8) (ix : ℕ) :
    (∀ round ∈ rounds behind ix text, round.1 < ix + text.length) ∧
        (rounds behind ix text).map Prod.snd = (rounds behind ix (upper text)).map Prod.snd ↔
      Safe text := by
  induction text using text_induction generalizing ix with
  | nil => exact iff_of_true ⟨fun round h => absurd h List.not_mem_nil, rfl⟩ .nil
  | cut rest hrest =>
    refine iff_of_false ?_ (not_safe_cut hrest)
    rintro ⟨hinside, -⟩
    obtain ⟨c, hc⟩ := mem_rounds_cut hrest
    have hlt : ix + 2 < ix + (37 :: rest).length := hinside _ hc
    rw [List.length_cons] at hlt
    omega
  | char c rest hc ih =>
    have hlen : ix + (c :: rest).length = ix + 1 + rest.length := by
      rw [List.length_cons]
      omega
    have hlast : ix < ix + 1 + rest.length := by omega
    rw [safe_char_iff hc, ← ih (ix + 1), upper_char hc, rounds_char hc, rounds_char hc,
      List.forall_mem_cons, List.map_cons, List.map_cons, List.cons_inj_right, hlen]
    exact and_congr_left fun _ => and_iff_right hlast
  | triple a b rest ih =>
    have hlen : ix + (37 :: a :: b :: rest).length = ix + 3 + rest.length := by
      rw [List.length_cons, List.length_cons, List.length_cons]
      omega
    have hlast : ix + 2 < ix + 3 + rest.length := by omega
    rw [safe_triple_iff, ← ih (ix + 3), upper_triple, rounds_triple, rounds_triple,
      List.forall_mem_cons, List.map_cons, List.map_cons, List.cons.injEq, hlen, hexByte_eq_iff]
    tauto

theorem decodes_iff_safe : Decodes behind text ↔ Safe text := by
  rw [← rounds_iff behind text 0, Nat.zero_add]
  exact ⟨fun h => ⟨h.inside, h.anyCase⟩, fun h => ⟨h.1, h.2⟩⟩

/-- The codec as a whole. Any bytes come back, and what is written has letters, digits and triples.
A text is read inside, with digits of either case, if each percent sign has two characters behind it
and a lower case second digit is behind a first one with the bit. -/
theorem codec_iff (s text : List UInt8) (behind : UInt8) :
    urlDecode behind (urlEncode s) = s ∧ Encoded (urlEncode s) ∧
      (Decodes behind text ↔ Safe text) :=
  ⟨urlDecode_urlEncode s, encoded_urlEncode s, decodes_iff_safe⟩

/-- `"%4a"` is not decoded as `"%4A"`, and a percent sign at the end is read with what is behind. -/
theorem not_decodes : ¬Decodes 0 [37, 52, 97] ∧ ¬Decodes 0 [37] := by
  constructor
  · intro h
    exact absurd h.anyCase (by decide)
  · intro h
    exact absurd (h.inside (2, hexByte 0 0) (List.mem_singleton_self _)) (by decide)

end Texts

end UrlCodec

end ImServer
