import Mathlib.Logic.Function.Basic
import ImServer.Base.ImPdu

/-!
# Session ids

`GenerateUId` (base/util.cpp) writes the fields of a `UidCode_t` (base/util.h), and the first
twelve bytes of the structure are what is compared and sent. Under the natural alignment
the process field of `MachineWithPid` is at offset 4, so the structure is

    0..3    time, highest byte first
    4..6    machine number
    7       padding
    8..9    process number
    10..12  counter, highest byte first

and the lowest byte of the counter is behind the twelve bytes. The machine and process
fields come from a random number that is drawn in each call.
-/

namespace ImServer

/-- Bytes at their offsets. -/
abbrev Memory := Nat → UInt8

def Memory.write (mem : Memory) (offset : Nat) (bytes : List UInt8) : Memory := fun i =>
  if i < offset then mem i else (bytes[i - offset]?).getD (mem i)

/-- The byte of a little-endian integer at an offset. -/
def byteAt (x : UInt64) (k : Nat) : UInt8 := UInt8.ofNat (x.toNat / 256 ^ k)

/-- What a call of `GenerateUId` takes from elsewhere: the seconds of the clock, the random
number, the padding byte of its structures, and the counter. -/
structure UidCall where
  time : Nat
  rand : UInt64
  padding : UInt8
  inc : UInt32
  deriving DecidableEq, Repr

namespace UidCall

/-- `GenerateMachinePid`: the bytes of the structure. The low half of the process number
goes to the process field, the high half to the last two machine bytes. -/
def generateMachinePid (call : UidCall) (pid : UInt32) : List UInt8 :=
  let p := pid.toUInt64
  [byteAt call.rand 0, byteAt call.rand 1 ^^^ byteAt p 2, byteAt call.rand 2 ^^^ byteAt p 3,
    call.padding, byteAt call.rand 4 ^^^ byteAt p 0, byteAt call.rand 5 ^^^ byteAt p 1]

/-- `GenerateUId` in the process `pid`, on a structure that is not initialised. -/
def generateUId (call : UidCall) (pid : UInt32) (mem : Memory) : Memory :=
  let t := (UInt32.ofNat call.time).toUInt64
  let inc := call.inc.toUInt64
  let mem := mem.write 0 [byteAt t 3, byteAt t 2, byteAt t 1, byteAt t 0]
  let mem := mem.write 4 (call.generateMachinePid pid)
  let mem := mem.write 10 [byteAt inc 2, byteAt inc 1, byteAt inc 0]
  -- `code[UID_SIZE]` is the byte behind the array
  mem.write 12 [0]

/-- `code`: the bytes that are compared. Those that the function does not set come from the
memory. -/
def code (call : UidCall) (pid : UInt32) (mem : Memory) : UidCode :=
  Vector.ofFn fun i => call.generateUId pid mem i

/-- The random bytes that get into the code, and the padding. -/
def machine (call : UidCall) : List UInt8 :=
  [byteAt call.rand 0, byteAt call.rand 1, byteAt call.rand 2, call.padding, byteAt call.rand 4,
    byteAt call.rand 5]

/-- What is to make codes differ: the time, and the part of the counter that gets into the code. -/
def stamp (call : UidCall) : Nat × Nat := (call.time, call.inc.toNat % 2 ^ 24)

variable (a b : UidCall) (pid : UInt32) (mem mem' : Memory)

/-- The bytes of the code. -/
def codeBytes : List UInt8 :=
  let t := (UInt32.ofNat a.time).toUInt64
  let inc := a.inc.toUInt64
  [byteAt t 3, byteAt t 2, byteAt t 1, byteAt t 0] ++ a.generateMachinePid pid ++
    [byteAt inc 2, byteAt inc 1]

theorem toList_code : (a.code pid mem).toList = a.codeBytes pid := by
  rw [code, Vector.toList_ofFn]
  rfl

variable {a b pid}

theorem byteAt_eq_iff {x y : UInt64} {k : Nat} :
    byteAt x k = byteAt y k ↔ x.toNat / 256 ^ k % 256 = y.toNat / 256 ^ k % 256 := by
  rw [← UInt8.toNat_inj, byteAt, byteAt, UInt8.toNat_ofNat', UInt8.toNat_ofNat']

/-- The machine bytes of two calls in one process are equal if the random bytes are. -/
theorem generateMachinePid_eq_iff (pid : UInt32) :
    a.generateMachinePid pid = b.generateMachinePid pid ↔ a.machine = b.machine := by
  simp only [generateMachinePid, machine, List.cons.injEq, UInt8.xor_left_inj]

theorem time_eq_iff :
    [byteAt (UInt32.ofNat a.time).toUInt64 3, byteAt (UInt32.ofNat a.time).toUInt64 2,
        byteAt (UInt32.ofNat a.time).toUInt64 1, byteAt (UInt32.ofNat a.time).toUInt64 0] =
      [byteAt (UInt32.ofNat b.time).toUInt64 3, byteAt (UInt32.ofNat b.time).toUInt64 2,
        byteAt (UInt32.ofNat b.time).toUInt64 1, byteAt (UInt32.ofNat b.time).toUInt64 0] ↔
      a.time % 2 ^ 32 = b.time % 2 ^ 32 := by
  simp only [List.cons.injEq, and_true, byteAt_eq_iff, UInt32.toNat_toUInt64, UInt32.toNat_ofNat']
  constructor
  · rintro ⟨h3, h2, h1, h0⟩
    omega
  · intro h
    simp only [h, and_self]

theorem inc_eq_iff :
    [byteAt a.inc.toUInt64 2, byteAt a.inc.toUInt64 1] =
        [byteAt b.inc.toUInt64 2, byteAt b.inc.toUInt64 1] ↔
      a.inc.toNat / 2 ^ 8 % 2 ^ 16 = b.inc.toNat / 2 ^ 8 % 2 ^ 16 := by
  simp only [List.cons.injEq, and_true, byteAt_eq_iff, UInt32.toNat_toUInt64]
  constructor
  · rintro ⟨h2, h1⟩
    omega
  · intro h
    omega

/-- The same code comes from the same second, random bytes and upper bytes of the counter. -/
theorem code_eq_iff :
    a.code pid mem = b.code pid mem' ↔
      a.time % 2 ^ 32 = b.time % 2 ^ 32 ∧ a.machine = b.machine ∧
        a.inc.toNat / 2 ^ 8 % 2 ^ 16 = b.inc.toNat / 2 ^ 8 % 2 ^ 16 := by
  rw [← Vector.toList_inj, toList_code, toList_code, ← time_eq_iff,
    ← generateMachinePid_eq_iff pid, ← inc_eq_iff]
  constructor
  · intro h
    obtain ⟨hfront, hinc⟩ := List.append_inj h rfl
    obtain ⟨htime, hmachine⟩ := List.append_inj hfront rfl
    exact ⟨htime, hmachine, hinc⟩
  · rintro ⟨htime, hmachine, hinc⟩
    simp only [codeBytes]
    rw [htime, hmachine, hinc]

/-- Two calls in one process with different stamps get different codes, exactly if their
seconds differ as 32-bit numbers, their random bytes differ, or their counters differ above
the lowest byte. -/
theorem codes_differ_iff :
    (a.stamp ≠ b.stamp → a.code pid mem ≠ b.code pid mem') ↔
      (a.stamp = b.stamp ∨ a.time % 2 ^ 32 ≠ b.time % 2 ^ 32 ∨ a.machine ≠ b.machine ∨
        a.inc.toNat / 2 ^ 8 % 2 ^ 16 ≠ b.inc.toNat / 2 ^ 8 % 2 ^ 16) := by
  rw [ne_eq (a.code pid mem), code_eq_iff]
  tauto

/-- Two calls in one second that draw the same random number get the same code. -/
theorem same_code_for_next_counter :
    let a : UidCall := { time := 1500000000, rand := 0x0123456789abcdef, padding := 0, inc := 0 }
    let b : UidCall := { time := 1500000000, rand := 0x0123456789abcdef, padding := 0, inc := 1 }
    a.stamp ≠ b.stamp ∧ a.code 4711 (fun _ => 0) = b.code 4711 (fun _ => 0) := by
  decide

end UidCall

end ImServer
