import Mathlib.Data.List.TakeWhile

/-!
# C texts

`isspace`, the optional sign that the number conversions of the C library take, and `atoi`
for numbers that fit an `int`. A number that was printed in decimal is read back, and so are
words with blanks between them. A string with a length that has a NUL in it is cut there, and one
that does not fit a buffer is cut at its end.
-/

namespace CText

def isSpace (c : Char) : Bool := c = ' ' || (9 ≤ c.toNat && c.toNat ≤ 13)

/-- The sign in front of a number, and what follows. -/
def sign : List Char → Bool × List Char
  | '-' :: rest => (true, rest)
  | '+' :: rest => (false, rest)
  | rest => (false, rest)

def atoi (text : String) : Int :=
  let (negative, rest) := sign (text.toList.dropWhile isSpace)
  let n : Int := Nat.ofDigitChars 10 (rest.takeWhile Char.isDigit) 0
  if negative then -n else n

theorem isDigit_of_mem_toDigits {c : Char} {n : Nat} (hc : c ∈ Nat.toDigits 10 n) :
    c.isDigit = true :=
  Nat.isDigit_of_mem_toDigits (by decide) (by decide) hc

theorem isSpace_of_isDigit {c : Char} (hc : c.isDigit = true) : isSpace c = false := by
  simp only [Char.isDigit, Bool.and_eq_true, decide_eq_true_eq] at hc
  have hlow : 48 ≤ c.toNat := hc.1
  have hne : c ≠ ' ' := by
    rintro rfl
    exact absurd hlow (by decide)
  simp only [isSpace, hne, decide_false, Bool.false_or, Bool.and_eq_false_iff,
    decide_eq_false_iff_not]
  right
  omega

theorem sign_of_isDigit {c : Char} {rest : List Char} (hc : c.isDigit = true) :
    sign (c :: rest) = (false, c :: rest) := by
  unfold sign
  split
  · next heq =>
    rw [(List.cons.inj heq).1] at hc
    exact absurd hc (by decide)
  · next heq =>
    rw [(List.cons.inj heq).1] at hc
    exact absurd hc (by decide)
  · rfl

theorem atoi_toString (n : Nat) : atoi (toString n) = n := by
  have hall : ∀ c ∈ Nat.toDigits 10 n, c.isDigit = true := fun c => isDigit_of_mem_toDigits
  have hvalue : Nat.ofDigitChars 10 (Nat.toDigits 10 n) 0 = n := Nat.ofDigitChars_ten_toDigits
  have htake : (Nat.toDigits 10 n).takeWhile Char.isDigit = Nat.toDigits 10 n :=
    List.takeWhile_eq_self_iff.mpr hall
  simp only [atoi, Nat.toString_eq_repr, Nat.toList_repr]
  match hdigits : Nat.toDigits 10 n with
  | [] => exact absurd hdigits Nat.toDigits_ne_nil
  | c :: rest =>
    rw [hdigits] at hall htake hvalue
    have hc := hall c List.mem_cons_self
    rw [List.dropWhile_cons_of_neg (by rw [isSpace_of_isDigit hc]; decide), sign_of_isDigit hc]
    simp only [htake, hvalue]
    rfl

/-- The bytes of a text in UTF-8, without the NUL that ends it as a C string. -/
def bytes (text : String) : List UInt8 := text.toList.flatMap String.utf8EncodeChar

/-- Whether a text is among others. -/
instance decidableMem (text : List UInt8) (texts : List (List UInt8)) : Decidable (text ∈ texts) :=
  List.instDecidableMemOfLawfulBEq text texts

theorem bytes_ofList (chars : List Char) :
    bytes (String.ofList chars) = chars.flatMap String.utf8EncodeChar := by
  rw [bytes, String.toList_ofList]

theorem length_bytes_ofList {text : String} {chars : List Char} {n : ℕ}
    (htext : text = String.ofList chars)
    (hlength : (chars.flatMap String.utf8EncodeChar).length = n) : (bytes text).length = n := by
  rw [htext, bytes_ofList, hlength]

theorem bytes_append (text text' : String) : bytes (text ++ text') = bytes text ++ bytes text' := by
  simp only [bytes, String.toList_append, List.flatMap_append]

theorem bytes_injective : Function.Injective bytes := by
  intro a b h
  have hbytes : ∀ text : String, (bytes text).toByteArray = text.toByteArray := fun text => by
    rw [← String.utf8Encode_toList]
    rfl
  rw [← String.toByteArray_inj, ← hbytes a, h, hbytes b]

theorem utf8EncodeChar_of_lt {c : Char} (h : c.toNat < 128) :
    String.utf8EncodeChar c = [UInt8.ofNat c.toNat] := by
  have hsize : c.utf8Size = 1 := Char.utf8Size_eq_one_iff.mpr (Nat.le_of_lt_succ h)
  exact String.utf8EncodeChar_eq_singleton hsize

theorem utf8EncodeChar_of_isDigit {c : Char} (h : c.isDigit = true) :
    ∃ b : UInt8, String.utf8EncodeChar c = [b] ∧ 48 ≤ b ∧ b ≤ 57 ∧ Char.ofNat b.toNat = c := by
  simp only [Char.isDigit, Bool.and_eq_true, decide_eq_true_eq] at h
  have hlow : 48 ≤ c.toNat := h.1
  have hhigh : c.toNat ≤ 57 := h.2
  have hall : ∀ n ≤ 57, 48 ≤ n →
      String.utf8EncodeChar (Char.ofNat n) = [UInt8.ofNat n] ∧ 48 ≤ UInt8.ofNat n ∧
        UInt8.ofNat n ≤ 57 ∧ Char.ofNat (UInt8.ofNat n).toNat = Char.ofNat n := by decide
  refine ⟨UInt8.ofNat c.toNat, ?_⟩
  have hbyte := hall c.toNat hhigh hlow
  rwa [Char.ofNat_toNat] at hbyte

theorem map_digits {chars : List Char} (h : ∀ c ∈ chars, c.isDigit = true) :
    (chars.flatMap String.utf8EncodeChar).map (fun b => Char.ofNat b.toNat) = chars := by
  induction chars with
  | nil => rfl
  | cons c chars ih =>
    obtain ⟨hc, hchars⟩ := List.forall_mem_cons.mp h
    obtain ⟨b, hb, -, -, hchar⟩ := utf8EncodeChar_of_isDigit hc
    rw [List.flatMap_cons, hb, List.singleton_append, List.map_cons, hchar, ih hchars]

theorem map_bytes_toString (n : Nat) :
    (bytes (toString n)).map (fun b => Char.ofNat b.toNat) = (toString n).toList := by
  refine map_digits fun c hc => ?_
  rw [Nat.toString_eq_repr, Nat.toList_repr] at hc
  exact isDigit_of_mem_toDigits hc

theorem mem_bytes_toString {b : UInt8} {n : Nat} (hb : b ∈ bytes (toString n)) : 48 ≤ b ∧ b ≤ 57 := by
  simp only [bytes, Nat.toString_eq_repr, Nat.toList_repr, List.mem_flatMap] at hb
  obtain ⟨c, hc, hb⟩ := hb
  obtain ⟨b', hb', hlow, hhigh, -⟩ := utf8EncodeChar_of_isDigit (isDigit_of_mem_toDigits hc)
  rw [hb', List.mem_singleton] at hb
  rw [hb]
  exact ⟨hlow, hhigh⟩

theorem foldl_digits {chars : List Char} (h : ∀ c ∈ chars, c.isDigit = true) (value : Nat) :
    (chars.flatMap String.utf8EncodeChar).foldl (fun n b => 10 * n + (b.toNat - 48)) value =
      Nat.ofDigitChars 10 chars value := by
  induction chars generalizing value with
  | nil => rfl
  | cons c chars ih =>
    obtain ⟨hc, hchars⟩ := List.forall_mem_cons.mp h
    obtain ⟨b, hb, -, hhigh, rfl⟩ := utf8EncodeChar_of_isDigit hc
    have hvalue : (Char.ofNat b.toNat).toNat = b.toNat := by
      have hall : ∀ n ≤ 57, (Char.ofNat n).toNat = n := by decide
      exact hall b.toNat hhigh
    rw [List.flatMap_cons, hb, List.singleton_append, List.foldl_cons, ih hchars,
      Nat.ofDigitChars_cons, hvalue]
    rfl

theorem foldl_bytes_toString (n : Nat) :
    (bytes (toString n)).foldl (fun n b => 10 * n + (b.toNat - 48)) 0 = n := by
  rw [bytes, Nat.toString_eq_repr, Nat.toList_repr,
    foldl_digits fun c => isDigit_of_mem_toDigits, Nat.ofDigitChars_ten_toDigits]

theorem length_bytes_toString (n : Nat) :
    (bytes (toString n)).length = (Nat.toDigits 10 n).length := by
  have hchars : ∀ chars : List Char, (∀ c ∈ chars, c.isDigit = true) →
      (chars.flatMap String.utf8EncodeChar).length = chars.length := by
    intro chars hdigits
    induction chars with
    | nil => rfl
    | cons c chars ih =>
      obtain ⟨hc, hdigits⟩ := List.forall_mem_cons.mp hdigits
      obtain ⟨b, hb, -⟩ := utf8EncodeChar_of_isDigit hc
      rw [List.flatMap_cons, hb, List.length_append, ih hdigits, List.length_singleton,
        Nat.add_comm, List.length_cons]
  rw [bytes, Nat.toString_eq_repr, Nat.toList_repr]
  exact hchars _ fun c => isDigit_of_mem_toDigits

theorem bytes_toString_ne_nil (n : Nat) : bytes (toString n) ≠ [] := by
  rw [← List.length_pos_iff, length_bytes_toString]
  exact Nat.length_toDigits_pos

theorem bytes_toString_negSucc (n : Nat) :
    bytes (toString (Int.negSucc n)) = 45 :: bytes (toString (n + 1)) :=
  bytes_append "-" _

/-- The words of a text, separated by blanks. -/
def words (text : List UInt8) : List (List UInt8) := (text.splitOn 32).filter (· ≠ [])

theorem intercalate_cons (sep : UInt8) (p : List UInt8) (parts : List (List UInt8)) :
    [sep].intercalate (p :: parts) = p ++ parts.flatMap (sep :: ·) := by
  induction parts generalizing p with
  | nil => simp
  | cons q parts ih => simp [List.intercalate_cons_cons, ih]

/-- Words that are written with a blank between them are read back. -/
theorem words_intercalate {parts : List (List UInt8)} (hne : parts ≠ [])
    (hparts : ∀ p ∈ parts, p ≠ [] ∧ 32 ∉ p) : words ([32].intercalate parts) = parts := by
  rw [words, List.splitOn_intercalate 32 (fun p hp => (hparts p hp).2) hne]
  refine List.filter_eq_self.mpr ?_
  intro p hp
  exact decide_eq_true (hparts p hp).1

theorem words_append_cons {p : List UInt8} (hne : p ≠ []) (hp : 32 ∉ p) (rest : List UInt8) :
    words (p ++ 32 :: rest) = p :: words rest := by
  rw [words, List.splitOn_append_cons_self_of_not_mem hp, List.filter_cons_of_pos (by simpa using hne)]
  rfl

theorem not_mem_of_mem_splitOn {sep : UInt8} {text p : List UInt8} (h : p ∈ text.splitOn sep) :
    sep ∉ p := by
  induction text generalizing p with
  | nil =>
    rw [List.splitOn_nil, List.mem_singleton] at h
    rw [h]
    exact List.not_mem_nil
  | cons c text ih =>
    obtain ⟨first, rest, hsplit⟩ := List.exists_cons_of_ne_nil (List.splitOn_ne_nil sep text)
    rw [hsplit] at ih
    rw [List.splitOn_cons_eq_if_modifyHead, hsplit] at h
    split at h
    · rcases List.mem_cons.mp h with rfl | h
      · exact List.not_mem_nil
      · exact ih h
    · next hc =>
      rcases List.mem_cons.mp h with rfl | h
      · rw [List.mem_cons, not_or]
        exact ⟨fun heq => hc (by simp [heq]), ih List.mem_cons_self⟩
      · exact ih (List.mem_cons_of_mem _ h)

theorem ne_nil_of_mem_words {text p : List UInt8} (h : p ∈ words text) : p ≠ [] ∧ 32 ∉ p := by
  obtain ⟨hsplit, hne⟩ := List.mem_filter.mp h
  exact ⟨of_decide_eq_true hne, not_mem_of_mem_splitOn hsplit⟩

/-- What a string with a length looks like to one who reads up to a NUL. -/
def cStr (text : List UInt8) : List UInt8 := text.takeWhile (· ≠ 0)

/-- What `snprintf` leaves in a buffer of that size, the NUL not counted. -/
def snprintf (size : Nat) (text : List UInt8) : List UInt8 := text.take (size - 1)

theorem cStr_eq_self_iff {text : List UInt8} : cStr text = text ↔ 0 ∉ text := by
  rw [cStr, List.takeWhile_eq_self_iff]
  simp only [ne_eq, decide_not, Bool.not_eq_eq_eq_not, Bool.not_true, decide_eq_false_iff_not]
  exact ⟨fun h hmem => h 0 hmem rfl, fun h c hc hzero => h (hzero ▸ hc)⟩

theorem zero_not_mem_cStr (text : List UInt8) : 0 ∉ cStr text := fun hzero => by
  simpa using List.mem_takeWhile_imp hzero

@[simp] theorem cStr_cStr (text : List UInt8) : cStr (cStr text) = cStr text :=
  cStr_eq_self_iff.mpr (zero_not_mem_cStr text)

theorem cStr_eq_or_length_lt (text : List UInt8) :
    cStr text = text ∨ (cStr text).length < text.length := by
  have hstart : cStr text <+: text := List.takeWhile_prefix _
  obtain heq | hlt := Nat.eq_or_lt_of_le hstart.length_le
  · exact .inl (hstart.eq_of_length heq)
  · exact .inr hlt

theorem cStr_append_replicate {text : List UInt8} (h : 0 ∉ text) (n : Nat) :
    cStr (text ++ List.replicate n 0) = text := by
  have htext : text.takeWhile (· ≠ 0) = text := cStr_eq_self_iff.mpr h
  rw [cStr, List.takeWhile_append, htext, if_pos rfl, List.takeWhile_replicate]
  simp

theorem snprintf_eq_self {size : Nat} {text : List UInt8} (h : text.length < size) :
    snprintf size text = text :=
  List.take_of_length_le (Nat.le_sub_one_of_lt h)

end CText
