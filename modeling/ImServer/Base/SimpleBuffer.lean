import Mathlib.Algebra.Group.Int.Defs
import Mathlib.Algebra.Group.Nat.Defs
import ImServer.Lib.Block

/-!
# The growing buffer behind every connection

`CSimpleBuffer` (base/utilpdu.cpp) is a heap block with a 32-bit allocation size
and a 32-bit write offset. All three additions of the source (`Write`'s capacity
test, `Extend`'s request and its growth by a quarter) are done in `uint32_t`, so
the model reduces them modulo `2 ^ 32` exactly where the source does.

Copies are checked against the real block, not against the recorded allocation
size: a size that wrapped around therefore ends in `Stop.fault`, the model's
name for undefined behaviour, and never in a plausible value. The bytes that
`realloc` adds are indeterminate in C; the model gives them the value zero.
-/

namespace ImServer

/-- Why a modelled function does not return normally. -/
inductive Stop where
  /-- A memory access outside the block behind a pointer. -/
  | fault
  /-- A thrown `CPduException` with its error code and message. -/
  | pduException (code : Nat) (msg : String)
  /-- The loop is still running after the iterations it was given. -/
  | running
  deriving DecidableEq, Repr

abbrev Exec := Except Stop

/-- An access that does not exist is undefined behaviour. -/
def orFault {α : Type} : Option α → Exec α
  | some a => .ok a
  | none => .error .fault

@[simp] theorem Exec.ok_bind {α β : Type} (a : α) (f : α → Exec β) :
    (Except.ok a >>= f : Exec β) = f a := rfl

@[simp] theorem Exec.error_bind {α β : Type} (e : Stop) (f : α → Exec β) :
    (Except.error e >>= f : Exec β) = .error e := rfl

@[simp] theorem Exec.pure_eq {α : Type} (a : α) : (pure a : Exec α) = .ok a := rfl

@[simp] theorem orFault_some {α : Type} (a : α) : orFault (some a) = .ok a := rfl
@[simp] theorem orFault_none {α : Type} : orFault (none : Option α) = .error .fault := rfl

theorem Exec.bind_eq_ok {α β : Type} {x : Exec α} {f : α → Exec β} {b : β} :
    x >>= f = .ok b ↔ ∃ a, x = .ok a ∧ f a = .ok b := by
  cases x with
  | error e => exact ⟨nofun, nofun⟩
  | ok a =>
    constructor
    · intro h
      exact ⟨a, rfl, h⟩
    · rintro ⟨a', ha, h⟩
      cases ha
      exact h

/-- Conversion to `uint32_t`. -/
def u32 (n : Nat) : Nat := n % 2 ^ 32

/-- Conversion to `uint16_t`. -/
def u16 (n : Nat) : Nat := n % 2 ^ 16

theorem u32_of_lt {n : Nat} (h : n < 2 ^ 32) : u32 n = n := Nat.mod_eq_of_lt h
theorem u16_of_lt {n : Nat} (h : n < 2 ^ 16) : u16 n = n := Nat.mod_eq_of_lt h

/-- `m_buffer`, `m_alloc_size` and `m_write_offset`. A null `m_buffer` is the
empty block. -/
structure CSimpleBuffer where
  buffer : List UInt8 := []
  allocSize : Nat := 0
  writeOffset : Nat := 0
  deriving DecidableEq, Repr

namespace CSimpleBuffer

/-- `Extend`: room for `len` more bytes, increased by a quarter. -/
def extend (b : CSimpleBuffer) (len : Nat) : CSimpleBuffer :=
  let requested := u32 (b.writeOffset + len)
  let size := u32 (requested + requested / 4)
  { b with allocSize := size, buffer := Block.resize 0 b.buffer size }

/-- The capacity test shared by both uses of `Write`. -/
def ensure (b : CSimpleBuffer) (len : Nat) : CSimpleBuffer :=
  if b.allocSize < u32 (b.writeOffset + len) then b.extend len else b

/-- `Write` of the bytes `src`. Their number is passed as a `uint32_t`. -/
def write (b : CSimpleBuffer) (src : List UInt8) : Exec CSimpleBuffer := do
  let len := u32 src.length
  let b := b.ensure len
  let block ← orFault (Block.store? b.buffer b.writeOffset (src.take len))
  return { b with buffer := block, writeOffset := u32 (b.writeOffset + len) }

/-- `Write(NULL, len)`: the offset advances over bytes that are not filled in. -/
def reserve (b : CSimpleBuffer) (len : Nat) : CSimpleBuffer :=
  let b := b.ensure len
  { b with writeOffset := u32 (b.writeOffset + len) }

/-- `Read`: remove at most `len` bytes from the front and return them. -/
def read (b : CSimpleBuffer) (len : Nat) : Exec (List UInt8 × CSimpleBuffer) := do
  let len := if b.writeOffset < len then b.writeOffset else len
  let data ← orFault (Block.slice? b.buffer 0 len)
  let rest ← orFault (Block.slice? b.buffer len (b.writeOffset - len))
  let block ← orFault (Block.store? b.buffer 0 rest)
  return (data, { b with buffer := block, writeOffset := b.writeOffset - len })

/-- A store through `GetBuffer() + off`, which no size field guards. -/
def poke (b : CSimpleBuffer) (off : Nat) (src : List UInt8) : Exec CSimpleBuffer := do
  let block ← orFault (Block.store? b.buffer off src)
  return { b with buffer := block }

/-- The recorded sizes describe the real block, and the offset lies inside it. -/
structure Valid (b : CSimpleBuffer) : Prop where
  block : b.buffer.length = b.allocSize
  offset : b.writeOffset ≤ b.allocSize
  size : b.allocSize < 2 ^ 32

/-- The bytes written and not yet read, which stand at the beginning of the block. -/
def content (b : CSimpleBuffer) : List UInt8 := b.buffer.take b.writeOffset

/-- The size `Extend` asks for, before any 32-bit reduction. -/
def grown (n : Nat) : Nat := n + n / 4

/-- `Write` of `len` bytes stays inside 32 bits: either no growth is needed, or
the grown size is representable. -/
def HasRoom (b : CSimpleBuffer) (len : Nat) : Prop :=
  b.writeOffset + len ≤ b.allocSize ∨ grown (b.writeOffset + len) < 2 ^ 32

instance (b : CSimpleBuffer) (len : Nat) : Decidable (b.HasRoom len) :=
  inferInstanceAs (Decidable (_ ∨ _))

variable {b : CSimpleBuffer}

theorem valid_empty : Valid {} := ⟨rfl, Nat.le_refl _, by decide⟩

@[simp] theorem content_empty : content {} = [] := rfl

theorem Valid.offset_lt (h : b.Valid) : b.writeOffset < 2 ^ 32 :=
  Nat.lt_of_le_of_lt h.offset h.size

@[simp] theorem Valid.length_content (h : b.Valid) : b.content.length = b.writeOffset := by
  have := h.block
  have := h.offset
  simp only [content, List.length_take]
  omega

@[simp] theorem extend_writeOffset (len : Nat) : (b.extend len).writeOffset = b.writeOffset := rfl

theorem extend_allocSize {len : Nat} (h : grown (b.writeOffset + len) < 2 ^ 32) :
    (b.extend len).allocSize = grown (b.writeOffset + len) := by
  have hlt : b.writeOffset + len < 2 ^ 32 := by
    simp only [grown] at h
    omega
  simp only [extend, u32_of_lt hlt]
  exact u32_of_lt h

/-- Growth that does not wrap keeps the content and makes the room asked for. -/
theorem Valid.extend (h : b.Valid) {len : Nat} (hgrow : grown (b.writeOffset + len) < 2 ^ 32) :
    (b.extend len).Valid ∧ (b.extend len).content = b.content ∧
      b.writeOffset + len ≤ (b.extend len).allocSize := by
  have hsize := extend_allocSize hgrow
  have hle : b.writeOffset + len ≤ (b.extend len).allocSize := by
    rw [hsize, grown]
    omega
  have hblock : (b.extend len).buffer.length = (b.extend len).allocSize := by
    simp only [CSimpleBuffer.extend, Block.length_resize]
  refine ⟨⟨hblock, ?_, by rw [hsize]; exact hgrow⟩, ?_, hle⟩
  · rw [extend_writeOffset]
    omega
  · have hin : b.writeOffset ≤ b.buffer.length := by
      rw [h.block]
      exact h.offset
    exact Block.take_resize (k := b.writeOffset) hin (Nat.le_trans (Nat.le_add_right _ _) hle)

/-- Growth that wraps leaves a block too small for the bytes it was asked for. -/
theorem length_extend_lt (hw : b.writeOffset < 2 ^ 32) {len : Nat}
    (hgrow : 2 ^ 32 ≤ grown (b.writeOffset + len)) :
    (b.extend len).buffer.length < b.writeOffset + len := by
  simp only [extend, Block.length_resize, u32]
  simp only [grown] at hgrow
  omega

theorem Valid.ensure (h : b.Valid) {len : Nat} (hroom : b.HasRoom len) :
    (b.ensure len).Valid ∧ (b.ensure len).content = b.content ∧
      b.writeOffset + len ≤ (b.ensure len).allocSize := by
  unfold CSimpleBuffer.ensure
  have halloc := h.size
  split
  · next hlt =>
    refine h.extend (hroom.resolve_left ?_)
    intro hle
    rw [u32_of_lt (by omega)] at hlt
    omega
  · next hlt =>
    refine ⟨h, rfl, ?_⟩
    rcases hroom with hle | hgrow
    · exact hle
    · rw [u32_of_lt (by simp only [grown] at hgrow; omega)] at hlt
      omega

@[simp] theorem ensure_writeOffset (len : Nat) : (b.ensure len).writeOffset = b.writeOffset := by
  unfold ensure
  split <;> rfl

/-- Without room the block behind the buffer is smaller than the write, whichever
of the two additions wrapped. -/
theorem Valid.length_ensure_lt (h : b.Valid) {len : Nat} (hroom : ¬ b.HasRoom len) :
    (b.ensure len).buffer.length < b.writeOffset + len := by
  have halloc := h.size
  have hblock := h.block
  obtain ⟨hbig, hgrow⟩ : b.allocSize < b.writeOffset + len ∧
      2 ^ 32 ≤ grown (b.writeOffset + len) := by
    simp only [HasRoom, not_or] at hroom
    omega
  unfold CSimpleBuffer.ensure
  split
  · exact length_extend_lt h.offset_lt hgrow
  · omega

/-- `Write` appends, as long as the sizes stay inside 32 bits. -/
theorem Valid.write (h : b.Valid) {src : List UInt8} (hsrc : src.length < 2 ^ 32)
    (hroom : b.HasRoom src.length) :
    ∃ b', b.write src = .ok b' ∧ b'.Valid ∧ b'.content = b.content ++ src ∧
      b'.allocSize = (b.ensure src.length).allocSize ∧
      b'.writeOffset = b.writeOffset + src.length := by
  obtain ⟨hv, hc, hle⟩ := h.ensure hroom
  obtain ⟨block, hstore⟩ : ∃ block, Block.store? (b.ensure src.length).buffer
      b.writeOffset src = some block :=
    ⟨_, Block.store?_of_le (by rw [hv.block]; exact hle)⟩
  have hoff : u32 (b.writeOffset + src.length) = b.writeOffset + src.length :=
    u32_of_lt (Nat.lt_of_le_of_lt hle hv.size)
  refine ⟨⟨block, (b.ensure src.length).allocSize, b.writeOffset + src.length⟩, ?_,
    ⟨(Block.length_of_store? hstore).trans hv.block, hle, hv.size⟩, ?_, rfl, rfl⟩
  · simp only [CSimpleBuffer.write, u32_of_lt hsrc, List.take_length, ensure_writeOffset, hstore,
      hoff, orFault_some, Exec.ok_bind, Exec.pure_eq]
  · simp only [content]
    rw [Block.take_of_store? hstore]
    simpa only [content, ensure_writeOffset] using congrArg (· ++ src) hc

theorem Valid.write_nil (h : b.Valid) : b.write [] = .ok b := by
  have hoff : u32 (b.writeOffset + 0) = b.writeOffset := u32_of_lt h.offset_lt
  have hensure : b.ensure 0 = b := by
    rw [CSimpleBuffer.ensure, hoff, if_neg (Nat.not_lt.mpr h.offset)]
  have hstore : Block.store? b.buffer b.writeOffset [] = some b.buffer := by
    rw [Block.store?_of_le (h.block ▸ h.offset)]
    simp
  have hlen : u32 ([] : List UInt8).length = 0 := rfl
  simp only [CSimpleBuffer.write, hlen, hensure, List.take_nil, hstore, orFault_some, Exec.ok_bind,
    hoff]
  rfl

/-- `Write` runs outside its block when a 32-bit size wraps around. -/
theorem Valid.write_fault (h : b.Valid) {src : List UInt8} (hsrc : src.length < 2 ^ 32)
    (hroom : ¬ b.HasRoom src.length) : b.write src = .error .fault := by
  have hshort := h.length_ensure_lt hroom
  simp only [CSimpleBuffer.write, u32_of_lt hsrc, List.take_length, ensure_writeOffset,
    Block.store?_of_lt hshort, orFault_none, Exec.error_bind]

theorem Valid.reserve (h : b.Valid) {len : Nat} (hroom : b.HasRoom len) :
    (b.reserve len).Valid ∧ (b.reserve len).writeOffset = b.writeOffset + len := by
  obtain ⟨hv, -, hle⟩ := h.ensure hroom
  have hoff : u32 (b.writeOffset + len) = b.writeOffset + len :=
    u32_of_lt (Nat.lt_of_le_of_lt hle hv.size)
  have hset : (b.reserve len).writeOffset = b.writeOffset + len := by
    simp only [CSimpleBuffer.reserve, ensure_writeOffset, hoff]
  refine ⟨⟨hv.block, ?_, hv.size⟩, hset⟩
  rw [hset]
  exact hle

/-- `Read` removes from the front, and the amount it removes is capped. -/
theorem Valid.read (h : b.Valid) (len : Nat) :
    ∃ b', b.read len = .ok (b.content.take len, b') ∧ b'.Valid ∧
      b'.content = b.content.drop len ∧ b'.allocSize = b.allocSize ∧
      b'.writeOffset = b.writeOffset - len := by
  have hblock := h.block
  have hoffset := h.offset
  obtain ⟨n, hn⟩ : ∃ n, n = if b.writeOffset < len then b.writeOffset else len := ⟨_, rfl⟩
  have hle : n ≤ b.writeOffset := by
    rw [hn]
    split <;> omega
  have hdata : Block.slice? b.buffer 0 n = some ((b.buffer.drop 0).take n) :=
    Block.slice?_of_le (by omega)
  have hrest : Block.slice? b.buffer n (b.writeOffset - n) =
      some ((b.buffer.drop n).take (b.writeOffset - n)) := Block.slice?_of_le (by omega)
  have hlen : ((b.buffer.drop n).take (b.writeOffset - n)).length = b.writeOffset - n := by
    simp only [List.length_take, List.length_drop]
    omega
  obtain ⟨block, hstore⟩ : ∃ block, Block.store? b.buffer 0
      ((b.buffer.drop n).take (b.writeOffset - n)) = some block :=
    ⟨_, Block.store?_of_le (by omega)⟩
  have hcontent : b.content.drop len = (b.buffer.drop n).take (b.writeOffset - n) := by
    simp only [content, List.drop_take, hn]
    split
    · simp [show b.writeOffset - len = 0 by omega]
    · rfl
  have htake : b.content.take len = (b.buffer.drop 0).take n := by
    simp only [content, List.take_take, List.drop_zero, hn]
    split <;> congr 1 <;> omega
  refine ⟨⟨block, b.allocSize, b.writeOffset - n⟩, ?_,
    ⟨(Block.length_of_store? hstore).trans hblock, ?_, h.size⟩, ?_, rfl, ?_⟩
  · simp only [CSimpleBuffer.read, ← hn, hdata, hrest, hstore, htake, orFault_some, Exec.ok_bind,
      Exec.pure_eq]
  · exact Nat.le_trans (Nat.sub_le _ _) hoffset
  · have hkeep := Block.take_of_store? hstore
    rw [hlen, Nat.zero_add, List.take_zero, List.nil_append] at hkeep
    rw [hcontent]
    exact hkeep
  · rw [hn]
    simp only
    split <;> omega

end CSimpleBuffer

end ImServer
