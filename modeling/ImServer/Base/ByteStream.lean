import ImServer.Base.ImPdu
import ImServer.Lib.CText

/-!
# Reading and writing a byte stream

The operators of `CByteStream` (base/utilpdu.cpp) over a raw buffer. Numbers travel high byte first,
and texts and blocks behind their length. `ReadString` and `ReadData` return a pointer into the
buffer.

A position and a length are added in 32 bits before they are compared with the length of the buffer.
A length that comes from the data can therefore bring the position back into the buffer from behind,
and what was returned lies outside. `Skip` moves the position before it throws.
-/

namespace ImServer

namespace CByteStream

def writeInt16 (data : Int16) : List UInt8 :=
  [(data >>> 8).toUInt16.toUInt8, (data &&& 0xFF).toUInt16.toUInt8]

def writeUint32 (data : UInt32) : List UInt8 :=
  [(data >>> 24).toUInt8, ((data >>> 16) &&& 0xFF).toUInt8, ((data >>> 8) &&& 0xFF).toUInt8,
    (data &&& 0xFF).toUInt8]

def writeInt32 (data : Int32) : List UInt8 :=
  [(data >>> 24).toUInt32.toUInt8, ((data >>> 16) &&& 0xFF).toUInt32.toUInt8,
    ((data >>> 8) &&& 0xFF).toUInt32.toUInt8, (data &&& 0xFF).toUInt32.toUInt8]

def uint32Of (b₀ b₁ b₂ b₃ : UInt8) : UInt32 :=
  (b₀.toUInt32 <<< 24) ||| (b₁.toUInt32 <<< 16) ||| (b₂.toUInt32 <<< 8) ||| b₃.toUInt32

/-- The low bits of a number that is shifted do not depend on its sign. -/
theorem setWidth_sshiftRight {w : Nat} (x : BitVec w) {n k : Nat} (h : n + k ≤ w) :
    (x.sshiftRight n).setWidth k = (x >>> n).setWidth k := by
  apply BitVec.eq_of_getLsbD_eq
  intro i hi
  have hinside : n + i < w := by omega
  have hle : ¬w ≤ i := by omega
  simp only [BitVec.getLsbD_setWidth, BitVec.getLsbD_sshiftRight, BitVec.getLsbD_ushiftRight,
    if_pos hinside, hle, decide_false, Bool.not_false, Bool.true_and]

theorem writeInt16_eq (data : Int16) : writeInt16 data = writeUint16 data.toUInt16 := by
  have hhi : (data >>> 8).toUInt16.toUInt8 = (data.toUInt16 >>> 8).toUInt8 := by
    apply UInt8.toBitVec_inj.mp
    rw [UInt16.toBitVec_toUInt8, UInt16.toBitVec_toUInt8, Int16.toBitVec_toUInt16,
      Int16.toBitVec_shiftRight, UInt16.toBitVec_shiftRight]
    exact setWidth_sshiftRight data.toBitVec (by decide)
  have hlo : (data &&& 0xFF).toUInt16 = data.toUInt16 &&& 0xFF := rfl
  rw [writeInt16, writeUint16, hhi, hlo]

theorem toUInt8_sshiftRight (data n : Int32) (m : UInt32)
    (hn : n.toBitVec.smod 32 = m.toBitVec % 32)
    (hm : (m.toBitVec % 32).toNat + 8 ≤ 32) :
    (data >>> n).toUInt32.toUInt8 = (data.toUInt32 >>> m).toUInt8 := by
  apply UInt8.toBitVec_inj.mp
  rw [UInt32.toBitVec_toUInt8, UInt32.toBitVec_toUInt8, Int32.toBitVec_toUInt32,
    Int32.toBitVec_shiftRight, UInt32.toBitVec_shiftRight, BitVec.sshiftRight_eq', hn]
  exact setWidth_sshiftRight data.toBitVec hm

theorem toUInt8_and_mask (data : UInt32) : (data &&& 0xFF).toUInt8 = data.toUInt8 := by
  apply UInt8.toNat_inj.mp
  have hmask : data.toNat &&& 255 = data.toNat % 256 := Nat.and_two_pow_sub_one_eq_mod _ 8
  rw [UInt32.toNat_toUInt8, UInt32.toNat_toUInt8, UInt32.toNat_and]
  show (data.toNat &&& 255) % 2 ^ 8 = data.toNat % 2 ^ 8
  rw [hmask, Nat.mod_mod]

theorem writeInt32_eq (data : Int32) : writeInt32 data = writeUint32 data.toUInt32 := by
  have hmask (x : Int32) : (x &&& 0xFF).toUInt32 = x.toUInt32 &&& 0xFF := rfl
  simp only [writeInt32, writeUint32, hmask, toUInt8_and_mask,
    toUInt8_sshiftRight data 24 24 rfl (by decide), toUInt8_sshiftRight data 16 16 rfl (by decide),
    toUInt8_sshiftRight data 8 8 rfl (by decide)]

theorem shiftLeft_or_eq {a b i : ℕ} (hb : b < 2 ^ i) : a <<< i ||| b = a * 2 ^ i + b := by
  rw [← Nat.shiftLeft_add_eq_or_of_lt hb, Nat.shiftLeft_eq]

theorem toNat_shiftLeft_byte (b : UInt8) {m : UInt32} {k : Nat} (hm : m.toNat = k) (hk : k ≤ 24) :
    (b.toUInt32 <<< m).toNat = b.toNat <<< k := by
  have hb := b.toNat_lt
  have hpow : 2 ^ k ≤ 2 ^ 24 := Nat.pow_le_pow_right (by decide) hk
  have hlt : b.toNat * 2 ^ k < 2 ^ 32 := Nat.lt_of_lt_of_le
    (Nat.mul_lt_mul_of_pos_right hb (Nat.two_pow_pos k)) (Nat.mul_le_mul_left (2 ^ 8) hpow)
  rw [UInt32.toNat_shiftLeft, UInt8.toNat_toUInt32, hm, Nat.mod_eq_of_lt (by omega : k < 32),
    Nat.shiftLeft_eq, Nat.mod_eq_of_lt hlt]

theorem toNat_uint32Of (b₀ b₁ b₂ b₃ : UInt8) :
    (uint32Of b₀ b₁ b₂ b₃).toNat =
      b₀.toNat * 2 ^ 24 + (b₁.toNat * 2 ^ 16 + (b₂.toNat * 2 ^ 8 + b₃.toNat)) := by
  have h₁ := b₁.toNat_lt
  have h₂ := b₂.toNat_lt
  have h₃ := b₃.toNat_lt
  rw [uint32Of, UInt32.toNat_or, UInt32.toNat_or, UInt32.toNat_or,
    toNat_shiftLeft_byte b₀ rfl (by decide), toNat_shiftLeft_byte b₁ rfl (by decide),
    toNat_shiftLeft_byte b₂ rfl (by decide), UInt8.toNat_toUInt32, Nat.or_assoc, Nat.or_assoc]
  have hlow : b₂.toNat <<< 8 ||| b₃.toNat = b₂.toNat * 2 ^ 8 + b₃.toNat := shiftLeft_or_eq h₃
  have hmiddle : b₁.toNat <<< 16 ||| (b₂.toNat * 2 ^ 8 + b₃.toNat) =
      b₁.toNat * 2 ^ 16 + (b₂.toNat * 2 ^ 8 + b₃.toNat) := shiftLeft_or_eq (by omega)
  show b₀.toNat <<< 24 ||| (b₁.toNat <<< 16 ||| (b₂.toNat <<< 8 ||| b₃.toNat)) = _
  rw [hlow, hmiddle, shiftLeft_or_eq (by omega)]

theorem uint32Of_writeUint32 (data : UInt32) :
    uint32Of (data >>> 24).toUInt8 ((data >>> 16) &&& 0xFF).toUInt8 ((data >>> 8) &&& 0xFF).toUInt8
      (data &&& 0xFF).toUInt8 = data := by
  apply UInt32.toNat_inj.mp
  have hdata := data.toNat_lt
  rw [toUInt8_and_mask, toUInt8_and_mask, toUInt8_and_mask, toNat_uint32Of]
  simp only [UInt32.toNat_toUInt8, UInt32.toNat_shiftRight, UInt32.reduceToNat, Nat.reduceMod,
    Nat.shiftRight_eq_div_pow]
  omega

inductive ReadOp where
  | int8
  | uint8
  | int16
  | uint16
  | int32
  | uint32
  | readString
  | readData
  | skip (len : UInt32)
  deriving DecidableEq, Repr

/-- What a read gives its caller: a number, or a place in the buffer. -/
inductive Got where
  | int8 (data : Int8)
  | uint8 (data : UInt8)
  | int16 (data : Int16)
  | uint16 (data : UInt16)
  | int32 (data : Int32)
  | uint32 (data : UInt32)
  | place (off len : Nat)
  | skipped
  deriving DecidableEq, Repr

variable (is : CByteStream)

/-- A function that throws before it changes anything. -/
def keeping {α β : Type} (f : α → β) : Exec (α × CByteStream) → Exec β × CByteStream
  | .ok (a, is') => (.ok (f a), is')
  | .error e => (.error e, is)

/-- `operator >> (uint32_t&)`. -/
def readUint32 : Exec (UInt32 × CByteStream) := do
  let (data, is) ← is.readByte 4
  return (uint32Of (data.getD 0 0) (data.getD 1 0) (data.getD 2 0) (data.getD 3 0), is)

/-- `Skip`. The position is moved first. -/
def skip (len : UInt32) : Exec Unit × CByteStream :=
  let is' := { is with pos := u32 (is.pos + len.toNat) }
  if is'.len < is'.pos then (.error (.pduException 1 "parase packet failed!"), is')
  else (.ok (), is')

/-- `ReadString` and `ReadData`, which are the same. -/
def readPlace : Exec Got × CByteStream :=
  match is.readUint32 with
  | .error e => (.error e, is)
  | .ok (len, is) =>
    match is.skip len with
    | (.error e, is') => (.error e, is')
    | (.ok (), is') => (.ok (.place is.pos len.toNat), is')

def read : ReadOp → Exec Got × CByteStream
  | .int8 => is.keeping (fun data => .int8 data.toInt8) is.readUint8
  | .uint8 => is.keeping .uint8 is.readUint8
  | .int16 => is.keeping (fun data => .int16 data.toInt16) is.readUint16
  | .uint16 => is.keeping .uint16 is.readUint16
  | .int32 => is.keeping (fun data => .int32 data.toInt32) is.readUint32
  | .uint32 => is.keeping .uint32 is.readUint32
  | .readString | .readData => is.readPlace
  | .skip len =>
    match is.skip len with
    | (.error e, is') => (.error e, is')
    | (.ok (), is') => (.ok .skipped, is')

/-- A value, with the function that writes it: a text that ends with a NUL, or one with a length. -/
inductive Value where
  | int8 (data : Int8)
  | uint8 (data : UInt8)
  | int16 (data : Int16)
  | uint16 (data : UInt16)
  | int32 (data : Int32)
  | uint32 (data : UInt32)
  | cString (str : { text : List UInt8 // 0 ∉ text })
  | string (str : List UInt8)
  | block (data : List UInt8)
  deriving DecidableEq, Repr

/-- `_WriteByte`. What does not fit is not written. -/
def writeByte (src : List UInt8) : Exec CByteStream := do
  let len := u32 src.length
  if is.len < u32 (is.pos + len) then return is
  let buf ← orFault (Block.store? is.buf is.pos (src.take len))
  return { is with buf, pos := u32 (is.pos + len) }

/-- The length and the bytes. -/
def writeBlock (src : List UInt8) : Exec CByteStream := do
  let is ← is.writeByte (writeUint32 (UInt32.ofNat src.length))
  is.writeByte src

def write : Value → Exec CByteStream
  | .int8 data => is.writeByte [data.toUInt8]
  | .uint8 data => is.writeByte [data]
  | .int16 data => is.writeByte (writeInt16 data)
  | .uint16 data => is.writeByte (writeUint16 data)
  | .int32 data => is.writeByte (writeInt32 data)
  | .uint32 data => is.writeByte (writeUint32 data)
  | .cString str => is.writeBlock (CText.cStr str)
  | .string str => is.writeBlock str
  | .block data => is.writeBlock data

/-- The buffer has the length that the stream was given, and the position is a `uint32_t`. -/
structure Sound : Prop where
  length : is.buf.length = is.len
  len : is.len < 2 ^ 32
  pos : is.pos < 2 ^ 32

/-- A read throws or stays inside the buffer, and the position does not move backwards. -/
structure Kept (op : ReadOp) : Prop where
  inside : (is.read op).1 ≠ .error .fault
  place : ∀ off len, (is.read op).1 = .ok (.place off len) → off + len ≤ is.buf.length
  pos : is.pos ≤ (is.read op).2.pos

/-- The end of `n` bytes is less than `2 ^ 32`, or is brought back to a place behind the buffer. -/
def Fits (n : Nat) : Prop := is.pos + n < 2 ^ 32 ∨ is.len < is.pos + n - 2 ^ 32

/-- No position is brought back into the buffer. The sum of position and length is computed in 32
bits, so that it can wrap. -/
def NoWrap : ReadOp → Prop
  | .int8 | .uint8 => is.Fits 1
  | .int16 | .uint16 => is.Fits 2
  | .int32 | .uint32 => is.Fits 4
  | .readString | .readData => is.Fits 4 ∧
    ∀ b₀ b₁ b₂ b₃, Block.slice? is.buf is.pos 4 = some [b₀, b₁, b₂, b₃] →
      is.pos + 4 + (uint32Of b₀ b₁ b₂ b₃).toNat < 2 ^ 32
  | .skip len => is.pos + len.toNat < 2 ^ 32

/-- The stream after some reads, thrown exceptions included. An exception may have moved the
position. -/
def after (ops : List ReadOp) : CByteStream := ops.foldl (fun is op => (is.read op).2) is

variable {is} {n : Nat}

theorem readByte_of_le (h : is.Sound) (hle : is.pos + n ≤ is.len) :
    ∃ data, data.length = n ∧ Block.slice? is.buf is.pos n = some data ∧
      is.readByte n = .ok (data, { is with pos := is.pos + n }) := by
  have hlength := h.length
  have hslice : Block.slice? is.buf is.pos n = some ((is.buf.drop is.pos).take n) :=
    Block.slice?_of_le (by omega)
  refine ⟨_, ?_, hslice, readByte_eq hle h.len hslice⟩
  rw [List.length_take, List.length_drop]
  omega

theorem readByte_of_lt (h : is.Sound) (hfits : is.Fits n) (hn : n ≤ 4) (hlt : is.len < is.pos + n) :
    is.readByte n = .error (.pduException 1 "parase packet failed!") := by
  have hpos := h.pos
  have hover : is.len < u32 (is.pos + n) := by
    rw [u32]
    obtain hlt | hback := hfits
    · omega
    · omega
  rw [readByte, if_pos hover]
  rfl

theorem readByte_of_not_fits (h : is.Sound) (hfits : ¬is.Fits n) (hn : n ≤ 4) :
    is.readByte n = .error .fault := by
  have hpos := h.pos
  have hlen := h.len
  have hlength := h.length
  rw [Fits, not_or] at hfits
  have hback : ¬is.len < u32 (is.pos + n) := by
    rw [u32]
    omega
  rw [readByte, if_neg hback, Block.slice?_of_lt (by omega)]
  rfl

theorem Kept.of_read {op : ReadOp} {r : Exec Got} {is' : CByteStream} (h : is.read op = (r, is'))
    (hinside : r ≠ .error .fault)
    (hplace : ∀ off len, r = .ok (.place off len) → off + len ≤ is.buf.length)
    (hpos : is.pos ≤ is'.pos) : is.Kept op := by
  refine ⟨?_, ?_, ?_⟩
  · rw [h]
    exact hinside
  · rw [h]
    exact hplace
  · rw [h]
    exact hpos

theorem Kept.of_throw {op : ReadOp} {is' : CByteStream} {code : Nat} {msg : String}
    (h : is.read op = (.error (.pduException code msg), is')) (hpos : is.pos ≤ is'.pos) :
    is.Kept op :=
  .of_read h (fun heq => by cases heq) (fun _ _ heq => by cases heq) hpos

/-- A number is read as it should be exactly if its end is not brought back. -/
theorem kept_number_iff {α : Type} (h : is.Sound) {op : ReadOp} {f : α → Got} {g : List UInt8 → α}
    (hn : n ≤ 4)
    (hread : is.read op = is.keeping f (is.readByte n >>= fun p => .ok (g p.1, p.2)))
    (hf : ∀ a off len, f a ≠ .place off len) : is.Kept op ↔ is.Fits n := by
  constructor
  · intro hkept
    by_contra hfits
    refine hkept.inside ?_
    rw [hread, readByte_of_not_fits h hfits hn]
    rfl
  · intro hfits
    by_cases hle : is.pos + n ≤ is.len
    · obtain ⟨data, -, -, hok⟩ := readByte_of_le h hle
      rw [hok] at hread
      exact .of_read hread (fun heq => by cases heq)
        (fun _ _ heq => absurd (Except.ok.inj heq) (hf _ _ _)) (Nat.le_add_right _ _)
    · rw [readByte_of_lt h hfits hn (Nat.lt_of_not_le hle)] at hread
      exact .of_throw hread le_rfl

theorem kept_skip_iff (h : is.Sound) (len : UInt32) :
    is.Kept (.skip len) ↔ is.pos + len.toNat < 2 ^ 32 := by
  have hpos := h.pos
  have hlen := len.toNat_lt
  have hmove : (is.read (.skip len)).2.pos = u32 (is.pos + len.toNat) := by
    rw [read, skip]
    split_ifs
    · rfl
    · rfl
  constructor
  · intro hkept
    have hle := hkept.pos
    rw [hmove, u32] at hle
    omega
  · intro hlt
    have hnew : is.pos ≤ u32 (is.pos + len.toNat) := by
      rw [u32_of_lt hlt]
      exact Nat.le_add_right _ _
    by_cases hover : is.len < u32 (is.pos + len.toNat)
    · have hread : is.read (.skip len) = (.error (.pduException 1 "parase packet failed!"),
          { is with pos := u32 (is.pos + len.toNat) }) := by
        rw [read, skip, if_pos hover]
      exact .of_throw hread hnew
    · have hread : is.read (.skip len) =
          (.ok .skipped, { is with pos := u32 (is.pos + len.toNat) }) := by
        rw [read, skip, if_neg hover]
      exact .of_read hread (fun heq => by cases heq) (fun _ _ heq => by cases heq) hnew

theorem readUint32_of_le (h : is.Sound) (hle : is.pos + 4 ≤ is.len) :
    ∃ b₀ b₁ b₂ b₃, Block.slice? is.buf is.pos 4 = some [b₀, b₁, b₂, b₃] ∧
      is.readUint32 = .ok (uint32Of b₀ b₁ b₂ b₃, { is with pos := is.pos + 4 }) := by
  obtain ⟨data, hlength, hslice, hok⟩ := readByte_of_le h hle
  obtain ⟨b₀, b₁, b₂, b₃, rfl⟩ := List.length_eq_four.mp hlength
  exact ⟨b₀, b₁, b₂, b₃, hslice, by rw [readUint32, hok]; rfl⟩

/-- A length that brings the position back brings it into the buffer, since it is read there. -/
theorem kept_place_iff (h : is.Sound) {op : ReadOp} (hread : is.read op = is.readPlace) :
    is.Kept op ↔ is.Fits 4 ∧ ∀ b₀ b₁ b₂ b₃, Block.slice? is.buf is.pos 4 = some [b₀, b₁, b₂, b₃] →
      is.pos + 4 + (uint32Of b₀ b₁ b₂ b₃).toNat < 2 ^ 32 := by
  have hlen := h.len
  have hlength := h.length
  by_cases hle : is.pos + 4 ≤ is.len
  · obtain ⟨b₀, b₁, b₂, b₃, hslice, hok⟩ := readUint32_of_le h hle
    have hn := (uint32Of b₀ b₁ b₂ b₃).toNat_lt
    have hfits : is.Fits 4 := .inl (by omega)
    have hbytes : (∀ c₀ c₁ c₂ c₃, Block.slice? is.buf is.pos 4 = some [c₀, c₁, c₂, c₃] →
        is.pos + 4 + (uint32Of c₀ c₁ c₂ c₃).toNat < 2 ^ 32) ↔
        is.pos + 4 + (uint32Of b₀ b₁ b₂ b₃).toNat < 2 ^ 32 := by
      refine ⟨fun hall => hall _ _ _ _ hslice, fun hlt c₀ c₁ c₂ c₃ heq => ?_⟩
      rw [hslice] at heq
      cases heq
      exact hlt
    rw [and_iff_right hfits, hbytes]
    generalize uint32Of b₀ b₁ b₂ b₃ = m at hok hn
    rw [readPlace, hok] at hread
    simp only [skip] at hread
    constructor
    · intro hkept
      by_contra hwrap
      have hback : u32 (is.pos + 4 + m.toNat) = is.pos + 4 + m.toNat - 2 ^ 32 := by
        rw [u32]
        omega
      have hover : ¬is.len < u32 (is.pos + 4 + m.toNat) := by
        rw [hback]
        omega
      rw [if_neg hover] at hread
      have hplace := hkept.place (is.pos + 4) m.toNat (by rw [hread])
      omega
    · intro hlt
      rw [u32_of_lt hlt] at hread
      have hpos : is.pos ≤ is.pos + 4 + m.toNat := by omega
      by_cases hover : is.len < is.pos + 4 + m.toNat
      · rw [if_pos hover] at hread
        exact .of_throw hread hpos
      · rw [if_neg hover] at hread
        refine .of_read hread (fun heq => by cases heq) (fun off n heq => ?_) hpos
        cases heq
        omega
  · have hslice : Block.slice? is.buf is.pos 4 = none := Block.slice?_of_lt (by omega)
    have hbytes : ∀ b₀ b₁ b₂ b₃, Block.slice? is.buf is.pos 4 = some [b₀, b₁, b₂, b₃] →
        is.pos + 4 + (uint32Of b₀ b₁ b₂ b₃).toNat < 2 ^ 32 := fun _ _ _ _ heq => by
      rw [hslice] at heq
      cases heq
    rw [and_iff_left hbytes]
    constructor
    · intro hkept
      by_contra hfits
      refine hkept.inside ?_
      rw [hread, readPlace, readUint32, readByte_of_not_fits h hfits (by decide)]
      rfl
    · intro hfits
      have hthrow := readByte_of_lt h hfits (by decide) (Nat.lt_of_not_le hle)
      have hgot : is.read op = (.error (.pduException 1 "parase packet failed!"), is) := by
        rw [hread, readPlace, readUint32, hthrow]
        rfl
      exact .of_throw hgot le_rfl

theorem kept_iff (h : is.Sound) (op : ReadOp) : is.Kept op ↔ is.NoWrap op := by
  cases op with
  | int8 =>
    exact kept_number_iff (g := fun data => data.getD 0 0) h (by decide) rfl
      fun _ _ _ heq => by cases heq
  | uint8 =>
    exact kept_number_iff (g := fun data => data.getD 0 0) h (by decide) rfl
      fun _ _ _ heq => by cases heq
  | int16 =>
    exact kept_number_iff (g := fun data => ImServer.readUint16 (data.getD 0 0) (data.getD 1 0)) h
      (by decide) rfl fun _ _ _ heq => by cases heq
  | uint16 =>
    exact kept_number_iff (g := fun data => ImServer.readUint16 (data.getD 0 0) (data.getD 1 0)) h
      (by decide) rfl fun _ _ _ heq => by cases heq
  | int32 =>
    exact kept_number_iff
      (g := fun data => uint32Of (data.getD 0 0) (data.getD 1 0) (data.getD 2 0) (data.getD 3 0)) h
      (by decide) rfl fun _ _ _ heq => by cases heq
  | uint32 =>
    exact kept_number_iff
      (g := fun data => uint32Of (data.getD 0 0) (data.getD 1 0) (data.getD 2 0) (data.getD 3 0)) h
      (by decide) rfl fun _ _ _ heq => by cases heq
  | readString => exact kept_place_iff h rfl
  | readData => exact kept_place_iff h rfl
  | skip len => exact kept_skip_iff h len

theorem readByte_stream {data : List UInt8} {is' : CByteStream}
    (h : is.readByte n = .ok (data, is')) : is' = { is with pos := u32 (is.pos + n) } := by
  rw [readByte] at h
  split at h
  · cases h
  · cases hslice : Block.slice? is.buf is.pos n with
    | none =>
      rw [hslice] at h
      cases h
    | some slice =>
      rw [hslice] at h
      cases h
      rfl

theorem skip_stream (is : CByteStream) (len : UInt32) :
    (is.skip len).2 = { is with pos := u32 (is.pos + len.toNat) } := by
  rw [skip]
  split_ifs
  · rfl
  · rfl

theorem read_skip_stream (is : CByteStream) (len : UInt32) :
    (is.read (.skip len)).2 = (is.skip len).2 := by
  cases hskip : is.skip len with
  | mk r is' =>
    rw [read, hskip]
    cases r with
    | error e => rfl
    | ok done => rfl

theorem readPlace_stream {is' : CByteStream} {len : UInt32} (h : is.readUint32 = .ok (len, is')) :
    is.readPlace.2 = (is'.skip len).2 := by
  cases hskip : is'.skip len with
  | mk r is'' =>
    rw [readPlace, h]
    simp only [hskip]
    cases r with
    | error e => rfl
    | ok done => rfl

theorem read_stream (is : CByteStream) (op : ReadOp) :
    ∃ pos, (is.read op).2 = { is with pos } ∧ (pos = is.pos ∨ pos < 2 ^ 32) := by
  have hmod (n : Nat) : u32 n < 2 ^ 32 := Nat.mod_lt _ (by decide)
  have hkeeping {α : Type} (f : α → Got) (g : List UInt8 → α) (n : Nat) :
      ∃ pos, (is.keeping f (is.readByte n >>= fun p => .ok (g p.1, p.2))).2 = { is with pos } ∧
        (pos = is.pos ∨ pos < 2 ^ 32) := by
    cases hbyte : is.readByte n with
    | error e => exact ⟨is.pos, rfl, .inl rfl⟩
    | ok got => exact ⟨_, readByte_stream hbyte, .inr (hmod _)⟩
  have hplace : ∃ pos, is.readPlace.2 = { is with pos } ∧ (pos = is.pos ∨ pos < 2 ^ 32) := by
    cases hlen : is.readUint32 with
    | error e => exact ⟨is.pos, by rw [readPlace, hlen], .inl rfl⟩
    | ok got =>
      obtain ⟨len, is'⟩ := got
      have his : ∃ pos, is' = { is with pos } := by
        obtain ⟨p, hbyte, heq⟩ := Exec.bind_eq_ok.mp hlen
        cases heq
        exact ⟨_, readByte_stream hbyte⟩
      obtain ⟨pos, rfl⟩ := his
      refine ⟨u32 (pos + len.toNat), ?_, .inr (hmod _)⟩
      rw [readPlace_stream hlen, skip_stream]
  cases op with
  | int8 => exact hkeeping (fun data => .int8 data.toInt8) (fun data => data.getD 0 0) 1
  | uint8 => exact hkeeping .uint8 (fun data => data.getD 0 0) 1
  | int16 =>
    exact hkeeping (fun data => .int16 data.toInt16)
      (fun data => ImServer.readUint16 (data.getD 0 0) (data.getD 1 0)) 2
  | uint16 =>
    exact hkeeping .uint16 (fun data => ImServer.readUint16 (data.getD 0 0) (data.getD 1 0)) 2
  | int32 =>
    exact hkeeping (fun data => .int32 data.toInt32)
      (fun data => uint32Of (data.getD 0 0) (data.getD 1 0) (data.getD 2 0) (data.getD 3 0)) 4
  | uint32 =>
    exact hkeeping .uint32
      (fun data => uint32Of (data.getD 0 0) (data.getD 1 0) (data.getD 2 0) (data.getD 3 0)) 4
  | readString => exact hplace
  | readData => exact hplace
  | skip len =>
    refine ⟨u32 (is.pos + len.toNat), ?_, .inr (hmod _)⟩
    rw [read_skip_stream, skip_stream]

theorem Sound.read (h : is.Sound) (op : ReadOp) : (is.read op).2.Sound := by
  obtain ⟨pos, hmove, hpos⟩ := read_stream is op
  rw [hmove]
  refine ⟨h.length, h.len, ?_⟩
  obtain rfl | hlt := hpos
  · exact h.pos
  · exact hlt

theorem Sound.after (h : is.Sound) (ops : List ReadOp) : (is.after ops).Sound := by
  induction ops generalizing is with
  | nil => exact h
  | cons op ops ih => exact ih (h.read op)

/-- The bytes of a value as its writer puts them: numbers from the high byte on, texts behind their
length. -/
def Value.encode : Value → List UInt8
  | .int8 data => [data.toUInt8]
  | .uint8 data => [data]
  | .int16 data => writeInt16 data
  | .uint16 data => writeUint16 data
  | .int32 data => writeInt32 data
  | .uint32 data => writeUint32 data
  | .cString str => writeUint32 (UInt32.ofNat str.1.length) ++ str
  | .string str => writeUint32 (UInt32.ofNat str.length) ++ str
  | .block data => writeUint32 (UInt32.ofNat data.length) ++ data

/-- The read that matches. -/
def Value.readOp : Value → ReadOp
  | .int8 _ => .int8
  | .uint8 _ => .uint8
  | .int16 _ => .int16
  | .uint16 _ => .uint16
  | .int32 _ => .int32
  | .uint32 _ => .uint32
  | .cString _ | .string _ => .readString
  | .block _ => .readData

/-- What is read of a value: the number, or the place where its bytes are. -/
def Value.Is (buf : List UInt8) : Value → Got → Prop
  | .int8 data, got => got = .int8 data
  | .uint8 data, got => got = .uint8 data
  | .int16 data, got => got = .int16 data
  | .uint16 data, got => got = .uint16 data
  | .int32 data, got => got = .int32 data
  | .uint32 data, got => got = .uint32 data
  | .cString str, got =>
    ∃ off, got = .place off str.1.length ∧ Block.slice? buf off str.1.length = some str
  | .string str, got =>
    ∃ off, got = .place off str.length ∧ Block.slice? buf off str.length = some str
  | .block data, got =>
    ∃ off, got = .place off data.length ∧ Block.slice? buf off data.length = some data

def writeAll (is : CByteStream) (values : List Value) : Exec CByteStream :=
  values.foldlM (fun is value => is.write value) is

/-- Reads one after another, as long as none throws. -/
def readAll (is : CByteStream) : List ReadOp → Exec (List Got) × CByteStream
  | [] => (.ok [], is)
  | op :: ops =>
    match is.read op with
    | (.error e, is) => (.error e, is)
    | (.ok got, is) =>
      match is.readAll ops with
      | (.error e, is) => (.error e, is)
      | (.ok gots, is) => (.ok (got :: gots), is)

section RoundTrip

variable {front part back src : List UInt8} {len : Nat}

/-- A stream that stands between two parts of its buffer. -/
def between (front rest : List UInt8) : CByteStream where
  buf := front ++ rest
  len := (front ++ rest).length
  pos := front.length

theorem between_append (front data back : List UInt8) :
    between (front ++ data) back =
      { between front (data ++ back) with pos := front.length + data.length } := by
  simp only [between, List.append_assoc, List.length_append]

theorem writeByte_between (hpart : part.length = src.length)
    (hlen : (front ++ (part ++ back)).length < 2 ^ 32) :
    (between front (part ++ back)).writeByte src = .ok (between (front ++ src) back) := by
  have hlength : (front ++ (part ++ back)).length = front.length + (src.length + back.length) := by
    rw [List.length_append, List.length_append, hpart]
  have hsrc : u32 src.length = src.length := u32_of_lt (by omega)
  have hend : u32 (front.length + src.length) = front.length + src.length := u32_of_lt (by omega)
  have hstore : Block.store? (front ++ (part ++ back)) front.length src =
      some (front ++ (src ++ back)) := by
    have hskip : Block.store? (front ++ (part ++ back)) (front.length + 0) src = _ :=
      Block.store?_skip rfl
    rw [Nat.add_zero] at hskip
    rw [hskip, Block.store?_head hpart, Option.map_some]
  have hinside : ¬front.length + (src.length + back.length) < front.length + src.length := by omega
  rw [between_append]
  simp only [writeByte, between, hsrc, hend, List.take_length, hstore, orFault_some, Exec.ok_bind,
    Exec.pure_eq, List.length_append, hpart, if_neg hinside]

theorem writeBlock_between (hpart : part.length = 4 + src.length)
    (hlen : (front ++ (part ++ back)).length < 2 ^ 32) :
    (between front (part ++ back)).writeBlock src =
      .ok (between (front ++ (writeUint32 (UInt32.ofNat src.length) ++ src)) back) := by
  obtain ⟨size, body, rfl, hsize⟩ := Block.exists_cut (by omega : 4 ≤ part.length)
  have hbody : body.length = src.length := by
    rw [List.length_append] at hpart
    omega
  have hhead : size.length = (writeUint32 (UInt32.ofNat src.length)).length := hsize
  rw [List.append_assoc] at hlen ⊢
  have hlen' :
      (front ++ writeUint32 (UInt32.ofNat src.length) ++ (body ++ back)).length < 2 ^ 32 := by
    simp only [List.length_append] at hlen ⊢
    omega
  rw [writeBlock, writeByte_between hhead hlen, Exec.ok_bind, writeByte_between hbody hlen',
    List.append_assoc]

theorem cStr_eq (str : { text : List UInt8 // 0 ∉ text }) : CText.cStr str = str :=
  CText.cStr_eq_self_iff.mpr str.2

/-- The bytes of a value stand where the space for it was. -/
theorem write_between {value : Value} (hpart : part.length = value.encode.length)
    (hlen : (front ++ (part ++ back)).length < 2 ^ 32) :
    (between front (part ++ back)).write value = .ok (between (front ++ value.encode) back) := by
  cases value with
  | int8 data => exact writeByte_between hpart hlen
  | uint8 data => exact writeByte_between hpart hlen
  | int16 data => exact writeByte_between hpart hlen
  | uint16 data => exact writeByte_between hpart hlen
  | int32 data => exact writeByte_between hpart hlen
  | uint32 data => exact writeByte_between hpart hlen
  | cString str =>
    rw [write, cStr_eq]
    exact writeBlock_between (hpart.trans (by rw [Value.encode, List.length_append]; rfl)) hlen
  | string str =>
    exact writeBlock_between (hpart.trans (by rw [Value.encode, List.length_append]; rfl)) hlen
  | block data =>
    exact writeBlock_between (hpart.trans (by rw [Value.encode, List.length_append]; rfl)) hlen

theorem writeAll_between {values : List Value}
    (hpart : part.length = (values.flatMap Value.encode).length)
    (hlen : (front ++ (part ++ back)).length < 2 ^ 32) :
    (between front (part ++ back)).writeAll values =
      .ok (between (front ++ values.flatMap Value.encode) back) := by
  induction values generalizing front part with
  | nil =>
    rw [List.flatMap_nil, List.length_nil, List.length_eq_zero_iff] at hpart
    rw [hpart, List.flatMap_nil, List.append_nil, List.nil_append]
    rfl
  | cons value values ih =>
    rw [List.flatMap_cons, List.length_append] at hpart
    obtain ⟨first, rest, rfl, hfirst⟩ :=
      Block.exists_cut (by omega : value.encode.length ≤ part.length)
    have hrest : rest.length = (values.flatMap Value.encode).length := by
      rw [List.length_append] at hpart
      omega
    rw [List.append_assoc] at hlen ⊢
    have hlen' : (front ++ value.encode ++ (rest ++ back)).length < 2 ^ 32 := by
      simp only [List.length_append] at hlen ⊢
      omega
    rw [writeAll, List.foldlM_cons, write_between hfirst hlen, Exec.ok_bind]
    rw [List.flatMap_cons, ← List.append_assoc]
    exact ih hrest hlen'

theorem readByte_between {data : List UInt8} (hlen : (front ++ (data ++ back)).length < 2 ^ 32) :
    (between front (data ++ back)).readByte data.length =
      .ok (data, between (front ++ data) back) := by
  have hslice : Block.slice? (front ++ (data ++ back)) front.length data.length = some data := by
    have hskip : Block.slice? (front ++ (data ++ back)) (front.length + 0) data.length = _ :=
      Block.slice?_skip rfl
    rw [Nat.add_zero] at hskip
    rw [hskip, Block.slice?_head rfl]
  rw [between_append]
  refine readByte_eq ?_ hlen hslice
  simp only [List.length_append]
  omega

theorem read_number_between {α : Type} {op : ReadOp} {data : List UInt8} {f : α → Got}
    {g : List UInt8 → α} (hlen : (front ++ (data ++ back)).length < 2 ^ 32)
    (hread : ∀ is : CByteStream,
      is.read op = is.keeping f (is.readByte data.length >>= fun p => .ok (g p.1, p.2))) :
    (between front (data ++ back)).read op = (.ok (f (g data)), between (front ++ data) back) := by
  rw [hread, readByte_between hlen]
  rfl

theorem readPlace_between {str : List UInt8}
    (hlen : (front ++ (writeUint32 (UInt32.ofNat str.length) ++ str ++ back)).length < 2 ^ 32) :
    (between front (writeUint32 (UInt32.ofNat str.length) ++ str ++ back)).readPlace =
        (.ok (.place (front.length + 4) str.length),
          between (front ++ (writeUint32 (UInt32.ofNat str.length) ++ str)) back) ∧
      Block.slice? (front ++ (writeUint32 (UInt32.ofNat str.length) ++ str ++ back))
        (front.length + 4) str.length = some str := by
  have hstr : str.length < 2 ^ 32 := by
    simp only [List.length_append] at hlen
    omega
  have hnat : (UInt32.ofNat str.length).toNat = str.length := UInt32.toNat_ofNat_of_lt' hstr
  have hsize : (writeUint32 (UInt32.ofNat str.length)).length = 4 := rfl
  generalize hhead : writeUint32 (UInt32.ofNat str.length) = size at hlen hsize ⊢
  rw [List.append_assoc] at hlen ⊢
  have hsum : (front ++ (size ++ (str ++ back))).length =
      front.length + (4 + (str.length + back.length)) := by
    rw [List.length_append, List.length_append, List.length_append, hsize]
  constructor
  · have hlength : (between front (size ++ (str ++ back))).readUint32 =
        .ok (UInt32.ofNat str.length, between (front ++ size) (str ++ back)) := by
      have hbyte := readByte_between hlen
      rw [hsize] at hbyte
      rw [readUint32, hbyte, ← hhead]
      simp only [writeUint32, Exec.ok_bind, Exec.pure_eq, List.getD_cons_zero,
        List.getD_cons_succ, uint32Of_writeUint32]
    have hend : u32 (front.length + (4 + str.length)) = front.length + (4 + str.length) :=
      u32_of_lt (by omega)
    have hinside : ¬front.length + (4 + (str.length + back.length)) <
        front.length + (4 + str.length) := by omega
    rw [readPlace, hlength]
    simp only [skip, between, hnat, List.length_append, hsize, List.append_assoc, Nat.add_assoc,
      hend, if_neg hinside]
  · have hskip : Block.slice? (front ++ size ++ (str ++ back)) ((front ++ size).length + 0)
        str.length = _ := Block.slice?_skip rfl
    rw [Nat.add_zero, List.length_append, hsize, List.append_assoc, Block.slice?_head rfl] at hskip
    exact hskip

theorem read_between {value : Value} (hlen : (front ++ (value.encode ++ back)).length < 2 ^ 32) :
    ∃ got, (between front (value.encode ++ back)).read value.readOp =
        (.ok got, between (front ++ value.encode) back) ∧
      value.Is (front ++ (value.encode ++ back)) got := by
  cases value with
  | int8 data =>
    refine ⟨_, read_number_between (g := fun data => data.getD 0 0) hlen fun _ => rfl, ?_⟩
    exact congrArg Got.int8 (Int8.toInt8_toUInt8 data)
  | uint8 data =>
    exact ⟨_, read_number_between (g := fun data => data.getD 0 0) hlen fun _ => rfl, rfl⟩
  | int16 data =>
    refine ⟨_, read_number_between
      (g := fun data => ImServer.readUint16 (data.getD 0 0) (data.getD 1 0)) hlen fun _ => rfl, ?_⟩
    show Got.int16 _ = Got.int16 data
    rw [Value.encode, writeInt16_eq]
    simp only [writeUint16, List.getD_cons_zero, List.getD_cons_succ, readUint16_writeUint16,
      Int16.toInt16_toUInt16]
  | uint16 data =>
    refine ⟨_, read_number_between
      (g := fun data => ImServer.readUint16 (data.getD 0 0) (data.getD 1 0)) hlen fun _ => rfl, ?_⟩
    exact congrArg Got.uint16 (readUint16_writeUint16 data)
  | int32 data =>
    refine ⟨_, read_number_between
      (g := fun data => uint32Of (data.getD 0 0) (data.getD 1 0) (data.getD 2 0) (data.getD 3 0))
      hlen fun _ => rfl, ?_⟩
    show Got.int32 _ = Got.int32 data
    rw [Value.encode, writeInt32_eq]
    simp only [writeUint32, List.getD_cons_zero, List.getD_cons_succ, uint32Of_writeUint32,
      Int32.toInt32_toUInt32]
  | uint32 data =>
    refine ⟨_, read_number_between
      (g := fun data => uint32Of (data.getD 0 0) (data.getD 1 0) (data.getD 2 0) (data.getD 3 0))
      hlen fun _ => rfl, ?_⟩
    exact congrArg Got.uint32 (uint32Of_writeUint32 data)
  | cString str =>
    obtain ⟨hread, hslice⟩ := readPlace_between hlen
    exact ⟨_, hread, _, rfl, hslice⟩
  | string str =>
    obtain ⟨hread, hslice⟩ := readPlace_between hlen
    exact ⟨_, hread, _, rfl, hslice⟩
  | block data =>
    obtain ⟨hread, hslice⟩ := readPlace_between hlen
    exact ⟨_, hread, _, rfl, hslice⟩

theorem readAll_between {values : List Value}
    (hlen : (front ++ (values.flatMap Value.encode ++ back)).length < 2 ^ 32) :
    ∃ gots, (between front (values.flatMap Value.encode ++ back)).readAll
        (values.map Value.readOp) =
          (.ok gots, between (front ++ values.flatMap Value.encode) back) ∧
      List.Forall₂ (Value.Is (front ++ (values.flatMap Value.encode ++ back))) values gots := by
  induction values generalizing front with
  | nil => exact ⟨[], by rw [List.flatMap_nil, List.append_nil]; rfl, .nil⟩
  | cons value values ih =>
    rw [List.flatMap_cons, List.append_assoc] at hlen ⊢
    obtain ⟨got, hread, his⟩ := read_between hlen
    rw [← List.append_assoc] at hlen
    obtain ⟨gots, hreads, hall⟩ := ih hlen
    refine ⟨got :: gots, ?_, .cons his ?_⟩
    · rw [List.map_cons, readAll, hread]
      simp only [hreads, List.append_assoc]
    · rw [← List.append_assoc]
      exact hall

end RoundTrip

/-- A buffer whose length is a `uint32_t`, as the constructor of a stream takes it. -/
def Buffer := { bytes : List UInt8 // bytes.length < 2 ^ 32 }

/-- `CByteStream(buf, len)`. -/
def ofBuffer (buf : Buffer) : CByteStream where
  buf := buf.1
  len := buf.1.length

theorem sound_ofBuffer (buf : Buffer) : (ofBuffer buf).Sound :=
  ⟨rfl, buf.2, Nat.two_pow_pos 32⟩

/-- Each read of a sequence throws or stays inside the buffer and does not move backwards. -/
def Bounded (buf : Buffer) (ops : List ReadOp) : Prop :=
  ∀ before op, before ++ [op] <+: ops → ((ofBuffer buf).after before).Kept op

/-- No read of a sequence brings the position back, in the state that the reads before it have
left. -/
def NeverWraps (buf : Buffer) (ops : List ReadOp) : Prop :=
  ∀ before op, before ++ [op] <+: ops → ((ofBuffer buf).after before).NoWrap op

/-- Values for which the buffer is large enough are read as they were written, up to the position
where the writing ended. -/
def RoundTrips (buf : Buffer) (values : List Value) : Prop :=
  (values.flatMap Value.encode).length ≤ buf.1.length →
    ∃ written gots read, (ofBuffer buf).writeAll values = .ok written ∧
      { written with pos := 0 }.readAll (values.map Value.readOp) = (.ok gots, read) ∧
      List.Forall₂ (Value.Is written.buf) values gots ∧ read.pos = written.pos

theorem roundTrips (buf : Buffer) (values : List Value) : RoundTrips buf values := by
  intro hfits
  obtain ⟨part, back, hbuf, hpart⟩ := Block.exists_cut hfits
  have hstart : ofBuffer buf = between [] (part ++ back) := by
    rw [ofBuffer, hbuf]
    rfl
  have hlen : ([] ++ (part ++ back)).length < 2 ^ 32 := by
    rw [List.nil_append, ← hbuf]
    exact buf.2
  have hlen' : ([] ++ (values.flatMap Value.encode ++ back)).length < 2 ^ 32 := by
    simp only [List.nil_append, List.length_append, hpart] at hlen ⊢
    exact hlen
  obtain ⟨gots, hreads, hall⟩ := readAll_between hlen'
  refine ⟨_, gots, _, by rw [hstart]; exact writeAll_between hpart hlen, hreads, hall, rfl⟩

/-- A sequence of reads stays inside the buffer exactly if no position is brought back, and what was
written is read again. -/
theorem byte_stream_iff (buf : Buffer) (ops : List ReadOp) (values : List Value) :
    (Bounded buf ops ↔ NeverWraps buf ops) ∧ RoundTrips buf values := by
  refine ⟨?_, roundTrips buf values⟩
  have hkept (before : List ReadOp) (op : ReadOp) :
      ((ofBuffer buf).after before).Kept op ↔ ((ofBuffer buf).after before).NoWrap op :=
    kept_iff ((sound_ofBuffer buf).after before) op
  constructor
  · intro hbounded before op hprefix
    exact (hkept before op).mp (hbounded before op hprefix)
  · intro hwraps before op hprefix
    exact (hkept before op).mpr (hwraps before op hprefix)

/-- A text whose length is `2 ^ 32 - 1` is handed out from a buffer of four bytes. -/
theorem not_byte_stream :
    ¬ ∀ (buf : Buffer) (ops : List ReadOp) (values : List Value),
      Bounded buf ops ∧ RoundTrips buf values := by
  intro h
  have hkept := (h ⟨[255, 255, 255, 255], by decide⟩ [.readString] []).1 [] .readString
    List.prefix_rfl
  exact absurd (hkept.place 4 (2 ^ 32 - 1) rfl) (by decide)

end CByteStream

end ImServer
