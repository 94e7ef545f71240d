import Mathlib.Algebra.Ring.Nat
import Mathlib.Data.List.Basic

/-!
# The wire format of protocol buffers

A message is a series of fields, each a tag and a value. Numbers are written in groups of seven
bits with the lowest group first, and strings, bytes and inner messages behind their length.
What is written reads back, and the size of a message is the sum of the sizes of its fields.
-/

namespace Protobuf

/-- A number in groups of seven bits; all bytes but the last have their high bit set. -/
def varint (n : Nat) : List UInt8 :=
  if n < 128 then [n.toUInt8] else (n % 128 + 128).toUInt8 :: varint (n / 128)
termination_by n
decreasing_by omega

def readVarint : List UInt8 → Option (Nat × List UInt8)
  | [] => none
  | byte :: rest =>
    if byte.toNat < 128 then some (byte.toNat, rest)
    else (readVarint rest).map fun (n, rest) => (byte.toNat - 128 + 128 * n, rest)

theorem varint_of_lt {n : Nat} (h : n < 128) : varint n = [n.toUInt8] := by
  rw [varint, if_pos h]

theorem varint_of_le {n : Nat} (h : 128 ≤ n) :
    varint n = (n % 128 + 128).toUInt8 :: varint (n / 128) := by
  rw [varint, if_neg (Nat.not_lt.mpr h)]

theorem toNat_toUInt8 {n : Nat} (h : n < 256) : n.toUInt8.toNat = n := by
  simp [Nat.mod_eq_of_lt h]

theorem readVarint_varint (n : Nat) (rest : List UInt8) :
    readVarint (varint n ++ rest) = some (n, rest) := by
  induction n using Nat.strongRecOn with
  | ind n ih =>
    by_cases hlt : n < 128
    · have hbyte : n.toUInt8.toNat = n := toNat_toUInt8 (by omega)
      simp [varint_of_lt hlt, readVarint, hbyte, hlt]
    · have hbyte : (n % 128 + 128).toUInt8.toNat = n % 128 + 128 := toNat_toUInt8 (by omega)
      rw [varint_of_le (by omega), List.cons_append, readVarint, hbyte, if_neg (by omega),
        ih (n / 128) (by omega)]
      simp only [Option.map_some, Option.some.injEq, Prod.mk.injEq, and_true]
      omega

theorem length_varint_pos (n : Nat) : 0 < (varint n).length := by
  rw [varint]
  split
  · exact Nat.one_pos
  · exact Nat.succ_pos _

theorem length_varint_mono {m n : Nat} (h : m ≤ n) : (varint m).length ≤ (varint n).length := by
  induction n using Nat.strongRecOn generalizing m with
  | ind n ih =>
    by_cases hm : m < 128
    · rw [varint_of_lt hm]
      exact length_varint_pos n
    · have hm : 128 ≤ m := Nat.not_lt.mp hm
      rw [varint_of_le hm, varint_of_le (Nat.le_trans hm h)]
      exact Nat.succ_le_succ (ih (n / 128) (by omega) (Nat.div_le_div_right h))

theorem length_varint_le {k n : Nat} (h : n < 128 ^ (k + 1)) : (varint n).length ≤ k + 1 := by
  induction k generalizing n with
  | zero =>
    rw [varint_of_lt h]
    exact Nat.le_refl 1
  | succ k ih =>
    by_cases hlt : n < 128
    · rw [varint_of_lt hlt]
      exact Nat.le_add_left _ _
    · have hdiv : n / 128 < 128 ^ (k + 1) := by
        rw [Nat.pow_succ] at h
        exact Nat.div_lt_of_lt_mul (by omega)
      rw [varint_of_le (Nat.not_lt.mp hlt), List.length_cons]
      exact Nat.succ_le_succ (ih hdiv)

inductive Field where
  | scalar (number n : Nat)
  | bytes (number : Nat) (data : List UInt8)
  deriving DecidableEq, Repr

def Field.encode : Field → List UInt8
  | scalar number n => varint (8 * number) ++ varint n
  | bytes number data => varint (8 * number + 2) ++ (varint data.length ++ data)

def encode (fields : List Field) : List UInt8 := fields.flatMap Field.encode

def byteSize (fields : List Field) : Nat := (encode fields).length

def readField (bytes : List UInt8) : Option (Field × List UInt8) :=
  (readVarint bytes).bind fun (tag, rest) =>
    (readVarint rest).bind fun (n, rest) =>
      if tag % 8 = 0 then some (.scalar (tag / 8) n, rest)
      else if tag % 8 = 2 ∧ n ≤ rest.length then
        some (.bytes (tag / 8) (rest.take n), rest.drop n)
      else none

/-- The fields of a message, read one after another; each of them takes some bytes. -/
def decodeFuel : Nat → List UInt8 → Option (List Field)
  | _, [] => some []
  | 0, _ :: _ => none
  | fuel + 1, bytes@(_ :: _) =>
    (readField bytes).bind fun (field, rest) => (decodeFuel fuel rest).map (field :: ·)

def decode (bytes : List UInt8) : Option (List Field) := decodeFuel bytes.length bytes

theorem readField_encode (field : Field) (rest : List UInt8) :
    readField (field.encode ++ rest) = some (field, rest) := by
  cases field with
  | scalar number n =>
    have hnumber : 8 * number / 8 = number := by omega
    simp [readField, Field.encode, readVarint_varint, hnumber]
  | bytes number data =>
    have hnumber : (8 * number + 2) / 8 = number := by omega
    have hkind : (8 * number + 2) % 8 = 2 := by omega
    simp [readField, Field.encode, readVarint_varint, hnumber, hkind]

theorem length_encode_pos (field : Field) : 0 < field.encode.length := by
  cases field with
  | scalar number n =>
    rw [Field.encode, List.length_append]
    exact Nat.add_pos_left (length_varint_pos _) _
  | bytes number data =>
    rw [Field.encode, List.length_append]
    exact Nat.add_pos_left (length_varint_pos _) _

theorem decodeFuel_encode (fields : List Field) {fuel : Nat} (hfuel : byteSize fields ≤ fuel) :
    decodeFuel fuel (encode fields) = some fields := by
  induction fields generalizing fuel with
  | nil =>
    cases fuel with
    | zero => rfl
    | succ fuel => rfl
  | cons field fields ih =>
    have hpos := length_encode_pos field
    have hsize : field.encode.length + byteSize fields ≤ fuel := by
      simpa [byteSize, encode] using hfuel
    obtain ⟨byte, rest, hbytes⟩ : ∃ byte rest, encode (field :: fields) = byte :: rest := by
      refine List.exists_cons_of_length_pos ?_
      simp only [encode, List.flatMap_cons, List.length_append]
      exact Nat.add_pos_left hpos _
    obtain ⟨fuel, rfl⟩ : ∃ k, fuel = k + 1 := ⟨fuel - 1, by omega⟩
    rw [hbytes, decodeFuel, ← hbytes, encode, List.flatMap_cons, readField_encode]
    simp only [Option.bind_some]
    have hrest : decodeFuel fuel (encode fields) = some fields := ih (by omega)
    rw [encode] at hrest
    rw [hrest]
    rfl

theorem decode_encode (fields : List Field) : decode (encode fields) = some fields :=
  decodeFuel_encode fields (Nat.le_refl _)

theorem readVarint_append {bytes rest : List UInt8} {n : Nat} (h : readVarint bytes = some (n, rest))
    (more : List UInt8) : readVarint (bytes ++ more) = some (n, rest ++ more) := by
  induction bytes generalizing n with
  | nil => cases h
  | cons byte bytes ih =>
    rw [List.cons_append, readVarint] at *
    split at h
    · next hlast =>
      obtain ⟨rfl, rfl⟩ := Prod.mk.inj (Option.some.inj h)
      rw [if_pos hlast]
    · next hmore =>
      obtain ⟨⟨m, rest'⟩, hread, heq⟩ := Option.map_eq_some_iff.mp h
      obtain ⟨rfl, rfl⟩ := Prod.mk.inj heq
      rw [if_neg hmore, ih hread, Option.map_some]

theorem readField_append {bytes rest : List UInt8} {field : Field}
    (h : readField bytes = some (field, rest)) (more : List UInt8) :
    readField (bytes ++ more) = some (field, rest ++ more) := by
  obtain ⟨⟨tag, rest₁⟩, htag, h⟩ := Option.bind_eq_some_iff.mp h
  obtain ⟨⟨n, rest₂⟩, hn, h⟩ := Option.bind_eq_some_iff.mp h
  simp only [readField, readVarint_append htag, readVarint_append hn, Option.bind_some] at h ⊢
  split at h
  · next hscalar =>
    obtain ⟨rfl, rfl⟩ := Prod.mk.inj (Option.some.inj h)
    rw [if_pos hscalar]
  · next hscalar =>
    split at h
    · next hbytes =>
      obtain ⟨rfl, rfl⟩ := Prod.mk.inj (Option.some.inj h)
      have hle : n ≤ (rest₂ ++ more).length := by
        rw [List.length_append]
        exact Nat.le_add_right_of_le hbytes.2
      rw [if_neg hscalar, if_pos ⟨hbytes.1, hle⟩, List.take_append_of_le_length hbytes.2,
        List.drop_append_of_le_length hbytes.2]
    · cases h

/-- If a beginning of a message can be read, it has the first fields and the rest has others. -/
theorem decodeFuel_append {fuel fuel' : Nat} {bytes more : List UInt8} {fields all : List Field}
    (h : decodeFuel fuel bytes = some fields) (hall : decodeFuel fuel' (bytes ++ more) = some all) :
    ∃ others, all = fields ++ others ∧ (more ≠ [] → others ≠ []) := by
  induction fuel generalizing fuel' bytes fields all with
  | zero =>
    cases bytes with
    | nil =>
      obtain rfl := Option.some.inj h
      refine ⟨all, rfl, fun hmore => ?_⟩
      obtain ⟨byte, more, rfl⟩ := List.exists_cons_of_ne_nil hmore
      cases fuel' with
      | zero => cases hall
      | succ fuel' =>
        obtain ⟨⟨field, rest⟩, -, hall⟩ := Option.bind_eq_some_iff.mp hall
        obtain ⟨others, -, rfl⟩ := Option.map_eq_some_iff.mp hall
        exact List.cons_ne_nil _ _
    | cons byte bytes => cases h
  | succ fuel ih =>
    cases bytes with
    | nil =>
      obtain rfl := Option.some.inj h
      have hempty : decodeFuel fuel [] = some [] := by
        cases fuel <;> rfl
      exact ih hempty hall
    | cons byte bytes =>
      obtain ⟨⟨field, rest⟩, hfield, h⟩ := Option.bind_eq_some_iff.mp h
      obtain ⟨fields, hfields, rfl⟩ := Option.map_eq_some_iff.mp h
      cases fuel' with
      | zero => cases hall
      | succ fuel' =>
        obtain ⟨⟨field', rest'⟩, hfield', hall⟩ := Option.bind_eq_some_iff.mp hall
        obtain ⟨all, hrest, rfl⟩ := Option.map_eq_some_iff.mp hall
        have hsame := hfield'.symm.trans (readField_append hfield more)
        obtain ⟨rfl, rfl⟩ := Prod.mk.inj (Option.some.inj hsame)
        obtain ⟨others, rfl, hothers⟩ := ih hfields hrest
        exact ⟨others, rfl, hothers⟩

/-- A proper beginning of a message does not have all its fields. -/
theorem length_lt_of_decode {bytes more : List UInt8} {fields all : List Field}
    (h : decode bytes = some fields) (hmore : more ≠ []) (hall : decode (bytes ++ more) = some all) :
    fields.length < all.length := by
  obtain ⟨rest, rfl, hrest⟩ := decodeFuel_append h hall
  rw [List.length_append]
  exact Nat.lt_add_of_pos_right (List.length_pos_iff.mpr (hrest hmore))

def utf8 (s : String) : List UInt8 := s.toUTF8.data.toList

theorem utf8_eq_nil {s : String} : utf8 s = [] ↔ s = "" := by
  rw [← String.utf8ByteSize_eq_zero_iff, ← List.length_eq_zero_iff]
  rfl

/-- A number is left out when it is zero. -/
def scalar (number n : Nat) : List Field := if n = 0 then [] else [.scalar number n]

/-- A field of a string, which is left out when it is empty. -/
def text (number : Nat) (data : List UInt8) : List Field :=
  if data = [] then [] else [.bytes number data]

def repeated (number : Nat) (items : List (List UInt8)) : List Field := items.map (.bytes number)

/-- The size of a field that has a length. -/
def lengthSize (number n : Nat) : Nat := (varint (8 * number + 2)).length + (varint n).length + n

@[simp] theorem byteSize_nil : byteSize [] = 0 := rfl

theorem byteSize_append (fs gs : List Field) : byteSize (fs ++ gs) = byteSize fs + byteSize gs := by
  simp only [byteSize, encode, List.flatMap_append, List.length_append]

theorem byteSize_scalar_le {number n k : Nat} (h : n < 128 ^ (k + 1)) :
    byteSize (scalar number n) ≤ (varint (8 * number)).length + (k + 1) := by
  rw [scalar]
  split
  · exact Nat.zero_le _
  · have hle := length_varint_le h
    simp only [byteSize, encode, List.flatMap_cons, List.flatMap_nil, List.append_nil, Field.encode,
      List.length_append]
    omega

theorem byteSize_bytes (number : Nat) (data : List UInt8) :
    byteSize [.bytes number data] = lengthSize number data.length := by
  simp only [byteSize, encode, List.flatMap_cons, List.flatMap_nil, List.append_nil, Field.encode,
    List.length_append, lengthSize, Nat.add_assoc]

theorem byteSize_repeated (number : Nat) (items : List (List UInt8)) :
    byteSize (repeated number items) = (items.map fun data => lengthSize number data.length).sum := by
  induction items with
  | nil => rfl
  | cons data items ih =>
    have hcons : repeated number (data :: items) = [Field.bytes number data] ++ repeated number items := rfl
    rw [hcons, byteSize_append, byteSize_bytes, ih, List.map_cons, List.sum_cons]

theorem lengthSize_mono {number m n : Nat} (h : m ≤ n) : lengthSize number m ≤ lengthSize number n := by
  have hvarint := length_varint_mono h
  simp only [lengthSize]
  omega

theorem byteSize_text (number : Nat) (data : List UInt8) :
    byteSize (text number data) = if data.length = 0 then 0 else lengthSize number data.length := by
  cases data with
  | nil => rfl
  | cons byte data => exact byteSize_bytes number (byte :: data)

end Protobuf
