import Mathlib.Data.List.GetD
import ImServer.Base.SimpleBuffer
import ImServer.Lib.Framing

/-!
# Protocol data units

A PDU (base/impdubase.cpp) is a 20-byte header followed by its body, kept in one
`CSimpleBuffer`. `SetPBMsg` lays out both, the other setters patch the header in
place through the raw buffer pointer, and `ReadPdu` recognises a PDU at the front
of received bytes. `GetLength` reports the total in 16 bits.

`htons` is the byte swap of a little-endian host. Since `WriteUint16` already
stores the high byte first, command id and body size travel low byte first.
-/

namespace ImServer

/-- The 12 bytes of `UidCode_t` that are compared and transmitted. The structure has no others that
count. -/
abbrev UidCode := Vector UInt8 12

abbrev imPduHeaderLen : Nat := 20

def writeUint16 (data : UInt16) : List UInt8 :=
  [(data >>> 8).toUInt8, (data &&& 0xFF).toUInt8]

def readUint16 (hi lo : UInt8) : UInt16 := (hi.toUInt16 <<< 8) ||| lo.toUInt16

/-- `htons` and `ntohs` on a little-endian host. -/
def htons (data : UInt16) : UInt16 := (data >>> 8) ||| (data <<< 8)

theorem toNat_readUint16 (hi lo : UInt8) :
    (readUint16 hi lo).toNat = hi.toNat * 256 + lo.toNat := by
  have hhi := hi.toNat_lt
  have hshift : hi.toNat <<< ((8 : UInt16).toNat % 16) % 2 ^ 16 = hi.toNat <<< 8 := by
    simp only [UInt16.reduceToNat, Nat.shiftLeft_eq, Nat.reduceMod, Nat.reducePow]
    omega
  rw [readUint16, UInt16.toNat_or, UInt16.toNat_shiftLeft, UInt8.toNat_toUInt16,
    UInt8.toNat_toUInt16, hshift, ← Nat.shiftLeft_add_eq_or_of_lt lo.toNat_lt, Nat.shiftLeft_eq]

theorem toNat_htons (data : UInt16) :
    (htons data).toNat = data.toNat / 256 + data.toNat % 256 * 256 := by
  have hdata := data.toNat_lt
  have hlow : data.toNat >>> ((8 : UInt16).toNat % 16) = data.toNat / 256 := by
    simp [Nat.shiftRight_eq_div_pow]
  have hhigh : data.toNat <<< ((8 : UInt16).toNat % 16) % 2 ^ 16 = (data.toNat % 256) <<< 8 := by
    simp only [UInt16.reduceToNat, Nat.shiftLeft_eq, Nat.reduceMod, Nat.reducePow]
    omega
  rw [htons, UInt16.toNat_or, UInt16.toNat_shiftLeft, UInt16.toNat_shiftRight, hlow, hhigh,
    Nat.or_comm, ← Nat.shiftLeft_add_eq_or_of_lt (by omega), Nat.shiftLeft_eq, Nat.add_comm]

@[simp] theorem htons_htons (data : UInt16) : htons (htons data) = data := by
  apply UInt16.toNat_inj.mp
  have hdata := data.toNat_lt
  rw [toNat_htons, toNat_htons]
  omega

@[simp] theorem readUint16_writeUint16 (data : UInt16) :
    readUint16 (data >>> 8).toUInt8 (data &&& 0xFF).toUInt8 = data := by
  apply UInt16.toNat_inj.mp
  have hdata := data.toNat_lt
  have hmask (n : Nat) : n &&& 255 = n % 256 := Nat.and_two_pow_sub_one_eq_mod n 8
  rw [toNat_readUint16]
  simp only [UInt16.toNat_toUInt8, UInt16.toNat_shiftRight, UInt16.toNat_and,
    UInt16.reduceToNat, Nat.reduceMod, Nat.shiftRight_eq_div_pow, hmask]
  omega

theorem writeUint16_readUint16 (hi lo : UInt8) : writeUint16 (readUint16 hi lo) = [hi, lo] := by
  have hhi := hi.toNat_lt
  have hlo := lo.toNat_lt
  have hmask (n : Nat) : n &&& 255 = n % 256 := Nat.and_two_pow_sub_one_eq_mod n 8
  simp only [writeUint16, List.cons.injEq, and_true]
  constructor
  · apply UInt8.toNat_inj.mp
    simp only [UInt16.toNat_toUInt8, UInt16.toNat_shiftRight, UInt16.reduceToNat, Nat.reduceMod,
      Nat.shiftRight_eq_div_pow, toNat_readUint16]
    omega
  · apply UInt8.toNat_inj.mp
    simp only [UInt16.toNat_toUInt8, UInt16.toNat_and, UInt16.reduceToNat, hmask, toNat_readUint16]
    omega

@[simp] theorem length_writeUint16 (data : UInt16) : (writeUint16 data).length = 2 := rfl

/-- A `CByteStream` over a raw buffer. -/
structure CByteStream where
  buf : List UInt8
  len : Nat
  pos : Nat := 0

namespace CByteStream

def readByte (is : CByteStream) (n : Nat) : Exec (List UInt8 × CByteStream) := do
  if is.len < u32 (is.pos + n) then
    throw (.pduException 1 "parase packet failed!")
  let data ← orFault (Block.slice? is.buf is.pos n)
  return (data, { is with pos := u32 (is.pos + n) })

/-- `operator >> (uint8_t&)`. -/
def readUint8 (is : CByteStream) : Exec (UInt8 × CByteStream) := do
  let (data, is) ← is.readByte 1
  return (data.getD 0 0, is)

/-- `operator >> (uint16_t&)`. -/
def readUint16 (is : CByteStream) : Exec (UInt16 × CByteStream) := do
  let (data, is) ← is.readByte 2
  return (ImServer.readUint16 (data.getD 0 0) (data.getD 1 0), is)

/-- `ReadSession` of a whole session id. -/
def readSession (is : CByteStream) : Exec (UidCode × CByteStream) := do
  let (data, is) ← is.readByte 12
  return (Vector.ofFn fun i => data.getD i 0, is)

end CByteStream

/-- `PduHeader_t`. -/
structure PduHeader where
  pid : UInt16
  version : UInt8
  sessionId : UidCode
  encrypt : UInt8
  cmdId : UInt16
  bodySize : UInt16
  deriving DecidableEq, Repr

/-- The header bytes in wire order: the layout that `WriteHeader` stores and
`ReadPduHeader` reads, given here as one list. -/
def PduHeader.encode (h : PduHeader) : List UInt8 :=
  writeUint16 h.pid ++ ([h.version] ++ (h.sessionId.toList ++ ([h.encrypt] ++
    (writeUint16 (htons h.cmdId) ++ writeUint16 (htons h.bodySize)))))

/-- The fields set by the constructor; `'US'` is `0x5553`. -/
def PduHeader.initial : PduHeader :=
  { pid := 0x5553, version := 1, sessionId := Vector.replicate 12 0, encrypt := 0, cmdId := 0,
    bodySize := 0 }

structure CImPdu where
  buf : CSimpleBuffer := {}
  header : PduHeader := .initial
  sockHandle : Option Int := none

namespace CImPdu

/-- `GetLength`: the total length, returned as a `uint16_t`. -/
def getLength (p : CImPdu) : Nat := u16 p.buf.writeOffset

/-- `GetBodyLength`. The subtraction is a 32-bit one. -/
def getBodyLength (p : CImPdu) : Nat := u16 (u32 (p.buf.writeOffset + 2 ^ 32 - imPduHeaderLen))

/-- The bytes that `GetBodyData` and `GetBodyLength` describe, as far as they are in the block. -/
def body (p : CImPdu) : List UInt8 := (p.buf.buffer.drop imPduHeaderLen).take p.getBodyLength

def write (p : CImPdu) (src : List UInt8) : Exec CImPdu := do
  let buf ← p.buf.write src
  return { p with buf }

/-- `WriteHeader`, field by field through the raw buffer pointer. -/
def writeHeader (p : CImPdu) : Exec CImPdu := do
  let buf ← p.buf.poke 0 (writeUint16 p.header.pid)
  let buf ← buf.poke 2 [p.header.version]
  let buf ← buf.poke 3 p.header.sessionId.toList
  let buf ← buf.poke 15 [p.header.encrypt]
  let buf ← buf.poke 16 (writeUint16 (htons p.header.cmdId))
  let buf ← buf.poke 18 (writeUint16 (htons (UInt16.ofNat p.getBodyLength)))
  return { p with buf }

def setCommandId (p : CImPdu) (commandId : UInt16) : Exec CImPdu := do
  let buf ← p.buf.poke 16 (writeUint16 (htons commandId))
  return { p with buf, header := { p.header with cmdId := commandId } }

def setSessionId (p : CImPdu) (sessionId : UidCode) : Exec CImPdu := do
  let buf ← p.buf.poke 3 sessionId.toList
  return { p with buf, header := { p.header with sessionId } }

/-- Both overloads of `SetPBMsg`, from the serialized message on. -/
def setPBMsg (p : CImPdu) (msg : List UInt8) : Exec CImPdu := do
  let (_, buf) ← p.buf.read p.buf.writeOffset
  let buf := buf.reserve imPduHeaderLen
  let buf ← buf.write msg
  writeHeader { p with buf }

/-- `SetPBWithoutMsg`: a header alone, with the command and the session behind it. -/
def setPBWithoutMsg (p : CImPdu) (cmdId : UInt16) (sessionId : UidCode) : Exec CImPdu := do
  let (_, buf) ← p.buf.read p.buf.writeOffset
  let buf := buf.reserve imPduHeaderLen
  let p ← writeHeader { p with buf }
  let p ← p.setCommandId cmdId
  p.setSessionId sessionId

/-- The bytes `CImConn::SendPdu` passes on: `GetLength` bytes at `GetBuffer`. -/
def sent (p : CImPdu) : Exec (List UInt8) := orFault (Block.slice? p.buf.buffer 0 p.getLength)

/-- `ReadPduHeader`, with the value the source returns. -/
def readPduHeader (p : CImPdu) (buf : List UInt8) (len : Nat) : Exec (Int × CImPdu) := do
  if imPduHeaderLen ≤ len ∧ buf ≠ [] then
    let (pid, is) ← CByteStream.readUint16 { buf, len }
    let (version, is) ← is.readUint8
    let (sessionId, is) ← is.readSession
    let (encrypt, is) ← is.readUint8
    let (cmdId, is) ← is.readUint16
    let (bodySize, _) ← is.readUint16
    return (0, { p with header := ⟨pid, version, sessionId, encrypt, htons cmdId, htons bodySize⟩ })
  return (-1, p)

/-- `IsPduAvailable`: the total length of a complete PDU at the front of `buf`. -/
def isPduAvailable (buf : List UInt8) (len : Nat) : Exec (Option Nat) := do
  if len < imPduHeaderLen then
    return none
  let hi ← orFault buf[18]?
  let lo ← orFault buf[19]?
  let pduLen := (htons (readUint16 hi lo)).toNat + imPduHeaderLen
  if len < pduLen then
    return none
  if pduLen = 0 then
    throw (.pduException 1 "pdu_len is 0")
  return some pduLen

def readPdu (buf : List UInt8) (len : Nat) : Exec (Option CImPdu) := do
  if len < 1 then
    return none
  match ← isPduAvailable buf len with
  | none => return none
  | some pduLen =>
    let src ← orFault (Block.slice? buf 0 pduLen)
    let p ← CImPdu.write {} src
    let (_, p) ← p.readPduHeader buf imPduHeaderLen
    return some p

end CImPdu

namespace PduHeader

@[simp] theorem length_encode (h : PduHeader) : h.encode.length = 20 := by
  simp [encode]

/-- Every 20 bytes spell a header, so nothing about a header is left out of `encode`. -/
theorem exists_encode {l : List UInt8} (hl : l.length = 20) : ∃ h : PduHeader, h.encode = l := by
  obtain ⟨pid, l, rfl, hpid⟩ := Block.exists_cut (show 2 ≤ l.length by omega)
  obtain ⟨version, l, rfl, hversion⟩ := Block.exists_cut
    (show 1 ≤ l.length by simp only [List.length_append] at hl; omega)
  obtain ⟨session, l, rfl, hsession⟩ := Block.exists_cut
    (show 12 ≤ l.length by simp only [List.length_append] at hl; omega)
  obtain ⟨encrypt, l, rfl, hencrypt⟩ := Block.exists_cut
    (show 1 ≤ l.length by simp only [List.length_append] at hl; omega)
  obtain ⟨cmd, size, rfl, hcmd⟩ := Block.exists_cut
    (show 2 ≤ l.length by simp only [List.length_append] at hl; omega)
  have hsize : size.length = 2 := by
    simp only [List.length_append] at hl
    omega
  obtain ⟨p₀, p₁, rfl⟩ := List.length_eq_two.mp hpid
  obtain ⟨v, rfl⟩ := List.length_eq_one_iff.mp hversion
  obtain ⟨e, rfl⟩ := List.length_eq_one_iff.mp hencrypt
  obtain ⟨c₀, c₁, rfl⟩ := List.length_eq_two.mp hcmd
  obtain ⟨s₀, s₁, rfl⟩ := List.length_eq_two.mp hsize
  refine ⟨⟨readUint16 p₀ p₁, v, ⟨session.toArray, hsession⟩, e, htons (readUint16 c₀ c₁),
    htons (readUint16 s₀ s₁)⟩, ?_⟩
  simp [encode, writeUint16_readUint16]

end PduHeader

namespace CByteStream

variable {buf data : List UInt8} {len pos n : Nat}

theorem readByte_eq (hpos : pos + n ≤ len) (hlen : len < 2 ^ 32)
    (hdata : Block.slice? buf pos n = some data) :
    readByte ⟨buf, len, pos⟩ n = .ok (data, ⟨buf, len, pos + n⟩) := by
  have hu : u32 (pos + n) = pos + n := u32_of_lt (by omega)
  simp only [readByte, hu, if_neg (Nat.not_lt.mpr hpos), hdata, orFault_some, Exec.ok_bind,
    Exec.pure_eq]

theorem readUint8_eq {x : UInt8} (hpos : pos + 1 ≤ len) (hlen : len < 2 ^ 32)
    (hdata : Block.slice? buf pos 1 = some [x]) :
    readUint8 ⟨buf, len, pos⟩ = .ok (x, ⟨buf, len, pos + 1⟩) := by
  simp [readUint8, readByte_eq hpos hlen hdata]

theorem readUint16_eq {x : UInt16} (hpos : pos + 2 ≤ len) (hlen : len < 2 ^ 32)
    (hdata : Block.slice? buf pos 2 = some (writeUint16 x)) :
    CByteStream.readUint16 ⟨buf, len, pos⟩ = .ok (x, ⟨buf, len, pos + 2⟩) := by
  simp only [CByteStream.readUint16, readByte_eq hpos hlen hdata, Exec.ok_bind, Exec.pure_eq,
    writeUint16, List.getD_cons_zero, List.getD_cons_succ, readUint16_writeUint16]

theorem readSession_eq {x : UidCode} (hpos : pos + 12 ≤ len) (hlen : len < 2 ^ 32)
    (hdata : Block.slice? buf pos 12 = some x.toList) :
    readSession ⟨buf, len, pos⟩ = .ok (x, ⟨buf, len, pos + 12⟩) := by
  have hx : (Vector.ofFn fun i : Fin 12 => x.toList.getD i 0) = x := by
    apply Vector.ext
    intro i hi
    simp [List.getD_eq_getElem?_getD]
  simp only [readSession, readByte_eq hpos hlen hdata, Exec.ok_bind, Exec.pure_eq, hx]

end CByteStream

namespace CImPdu

theorem readPduHeader_encode (p : CImPdu) (h : PduHeader) (rest : List UInt8) :
    p.readPduHeader (h.encode ++ rest) imPduHeaderLen = .ok (0, { p with header := h }) := by
  have hword := length_writeUint16
  have hbyte (x : UInt8) : [x].length = 1 := rfl
  have hsession : h.sessionId.toList.length = 12 := Vector.length_toList
  have hguard : imPduHeaderLen ≤ imPduHeaderLen ∧ h.encode ++ rest ≠ [] := by
    refine ⟨Nat.le_refl _, fun hnil => ?_⟩
    have := congrArg List.length hnil
    simp at this
  -- Each field starts where the fields before it end.
  have h₀ : Block.slice? (h.encode ++ rest) 0 2 = some (writeUint16 h.pid) := by
    simp only [PduHeader.encode, List.append_assoc]
    exact Block.slice?_head rfl
  have h₂ : Block.slice? (h.encode ++ rest) (2 + 0) 1 = some [h.version] := by
    simp only [PduHeader.encode, List.append_assoc]
    rw [Block.slice?_skip (hword _)]
    exact Block.slice?_head rfl
  have h₃ : Block.slice? (h.encode ++ rest) (2 + (1 + 0)) 12 = some h.sessionId.toList := by
    simp only [PduHeader.encode, List.append_assoc]
    rw [Block.slice?_skip (hword _), Block.slice?_skip (hbyte _)]
    exact Block.slice?_head hsession
  have h₁₅ : Block.slice? (h.encode ++ rest) (2 + (1 + (12 + 0))) 1 = some [h.encrypt] := by
    simp only [PduHeader.encode, List.append_assoc]
    rw [Block.slice?_skip (hword _), Block.slice?_skip (hbyte _), Block.slice?_skip hsession]
    exact Block.slice?_head rfl
  have h₁₆ : Block.slice? (h.encode ++ rest) (2 + (1 + (12 + (1 + 0)))) 2 =
      some (writeUint16 (htons h.cmdId)) := by
    simp only [PduHeader.encode, List.append_assoc]
    rw [Block.slice?_skip (hword _), Block.slice?_skip (hbyte _), Block.slice?_skip hsession,
      Block.slice?_skip (hbyte _)]
    exact Block.slice?_head rfl
  have h₁₈ : Block.slice? (h.encode ++ rest) (2 + (1 + (12 + (1 + (2 + 0))))) 2 =
      some (writeUint16 (htons h.bodySize)) := by
    simp only [PduHeader.encode, List.append_assoc]
    rw [Block.slice?_skip (hword _), Block.slice?_skip (hbyte _), Block.slice?_skip hsession,
      Block.slice?_skip (hbyte _), Block.slice?_skip (hword _)]
    exact Block.slice?_head rfl
  have r₀ : CByteStream.readUint16 ⟨h.encode ++ rest, imPduHeaderLen, 0⟩ =
      .ok (h.pid, ⟨_, imPduHeaderLen, 2⟩) :=
    CByteStream.readUint16_eq (by decide) (by decide) h₀
  have r₂ : CByteStream.readUint8 ⟨h.encode ++ rest, imPduHeaderLen, 2⟩ =
      .ok (h.version, ⟨_, imPduHeaderLen, 3⟩) :=
    CByteStream.readUint8_eq (by decide) (by decide) h₂
  have r₃ : CByteStream.readSession ⟨h.encode ++ rest, imPduHeaderLen, 3⟩ =
      .ok (h.sessionId, ⟨_, imPduHeaderLen, 15⟩) :=
    CByteStream.readSession_eq (by decide) (by decide) h₃
  have r₁₅ : CByteStream.readUint8 ⟨h.encode ++ rest, imPduHeaderLen, 15⟩ =
      .ok (h.encrypt, ⟨_, imPduHeaderLen, 16⟩) :=
    CByteStream.readUint8_eq (by decide) (by decide) h₁₅
  have r₁₆ : CByteStream.readUint16 ⟨h.encode ++ rest, imPduHeaderLen, 16⟩ =
      .ok (htons h.cmdId, ⟨_, imPduHeaderLen, 18⟩) :=
    CByteStream.readUint16_eq (by decide) (by decide) h₁₆
  have r₁₈ : CByteStream.readUint16 ⟨h.encode ++ rest, imPduHeaderLen, 18⟩ =
      .ok (htons h.bodySize, ⟨_, imPduHeaderLen, 20⟩) :=
    CByteStream.readUint16_eq (by decide) (by decide) h₁₈
  simp only [readPduHeader, if_pos hguard, r₀, r₂, r₃, r₁₅, r₁₆, r₁₈, Exec.ok_bind, Exec.pure_eq,
    htons_htons]

/-- The body size announced by the header at the front of `c`. -/
def lengthField (c : List UInt8) : Nat :=
  (htons (readUint16 (c.getD 18 0) (c.getD 19 0))).toNat

/-- The total length of a complete PDU at the front of the received bytes `c`. -/
def pduSize? (c : List UInt8) : Option Nat :=
  if imPduHeaderLen ≤ c.length ∧ lengthField c + imPduHeaderLen ≤ c.length then
    some (lengthField c + imPduHeaderLen)
  else none

theorem lengthField_lt (c : List UInt8) : lengthField c < 2 ^ 16 := UInt16.toNat_lt _

theorem lengthField_append {c : List UInt8} (hc : imPduHeaderLen ≤ c.length) (ys : List UInt8) :
    lengthField (c ++ ys) = lengthField c := by
  simp only [imPduHeaderLen] at hc
  simp only [lengthField, List.getD_append _ _ _ _ (show 18 < c.length by omega),
    List.getD_append _ _ _ _ (show 19 < c.length by omega)]

@[simp] theorem lengthField_encode (h : PduHeader) (rest : List UInt8) :
    lengthField (h.encode ++ rest) = h.bodySize.toNat := by
  rw [lengthField_append (by simp)]
  have hfront : ∃ front : List UInt8, front.length = 18 ∧
      h.encode = front ++ writeUint16 (htons h.bodySize) := by
    refine ⟨writeUint16 h.pid ++ ([h.version] ++ (h.sessionId.toList ++ ([h.encrypt] ++
      writeUint16 (htons h.cmdId)))), by simp, ?_⟩
    simp only [PduHeader.encode, List.append_assoc]
  obtain ⟨front, hlen, heq⟩ := hfront
  simp only [lengthField, heq, List.getD_append_right _ _ _ _ (show front.length ≤ 18 by omega),
    List.getD_append_right _ _ _ _ (show front.length ≤ 19 by omega), hlen, writeUint16,
    Nat.sub_self, Nat.reduceSub, List.getD_cons_zero, List.getD_cons_succ, readUint16_writeUint16,
    htons_htons]

theorem pduSize?_eq_some {c : List UInt8} {n : Nat} :
    pduSize? c = some n ↔ imPduHeaderLen ≤ c.length ∧ n = lengthField c + imPduHeaderLen ∧
      n ≤ c.length := by
  unfold pduSize?
  constructor
  · intro h
    split at h
    · next hc =>
      cases h
      exact ⟨hc.1, rfl, hc.2⟩
    · cases h
  · rintro ⟨hc, rfl, hn⟩
    exact if_pos ⟨hc, hn⟩

/-- PDU recognition as a framing rule: the header decides, and later bytes do not
change its decision. -/
def framing : Framing.Rule UInt8 where
  size? := pduSize?
  pos h := by
    obtain ⟨-, rfl, -⟩ := pduSize?_eq_some.mp h
    exact Nat.succ_pos _
  le h := (pduSize?_eq_some.mp h).2.2
  stable ys h := by
    obtain ⟨hc, rfl, hn⟩ := pduSize?_eq_some.mp h
    refine pduSize?_eq_some.mpr ⟨?_, by rw [lengthField_append hc], ?_⟩ <;>
      · rw [List.length_append]
        omega

/-- `IsPduAvailable` decides by the bytes received, whatever lies behind them. It
never throws: a total length is at least 20. -/
theorem isPduAvailable_eq {buf : List UInt8} {len : Nat} (hlen : len ≤ buf.length) :
    isPduAvailable buf len = .ok (pduSize? (buf.take len)) := by
  have hlength : (buf.take len).length = len := List.length_take_of_le hlen
  by_cases hshort : len < imPduHeaderLen
  · have hnone : pduSize? (buf.take len) = none := if_neg (by omega)
    simp only [isPduAvailable, if_pos hshort, hnone, Exec.pure_eq]
  · have hheader : 20 ≤ len := Nat.not_lt.mp hshort
    have h₁₈ : buf[18]? = some ((buf.take len).getD 18 0) := by
      rw [List.getD_eq_getElem _ _ (by omega), List.getElem_take, List.getElem?_eq_getElem]
    have h₁₉ : buf[19]? = some ((buf.take len).getD 19 0) := by
      rw [List.getD_eq_getElem _ _ (by omega), List.getElem_take, List.getElem?_eq_getElem]
    have hfield : (htons (readUint16 ((buf.take len).getD 18 0) ((buf.take len).getD 19 0))).toNat =
      lengthField (buf.take len) := rfl
    simp only [isPduAvailable, if_neg hshort, h₁₈, h₁₉, orFault_some, Exec.ok_bind, hfield]
    by_cases hbig : len < lengthField (buf.take len) + imPduHeaderLen
    · have hnone : pduSize? (buf.take len) = none := if_neg (by omega)
      simp only [if_pos hbig, hnone, Exec.pure_eq]
    · have hsome : pduSize? (buf.take len) = some (lengthField (buf.take len) + imPduHeaderLen) :=
        if_pos (by omega)
      have hpos : lengthField (buf.take len) + imPduHeaderLen ≠ 0 := Nat.succ_ne_zero _
      simp only [if_neg hbig, if_neg hpos, hsome, Exec.pure_eq]

theorem readPdu_of_none {buf : List UInt8} {len : Nat} (hlen : len ≤ buf.length)
    (h : pduSize? (buf.take len) = none) : readPdu buf len = .ok none := by
  simp only [readPdu, isPduAvailable_eq hlen, h, Exec.ok_bind, Exec.pure_eq, ite_self]

theorem readPdu_of_some {buf : List UInt8} {len n : Nat} (hlen : len ≤ buf.length)
    (h : pduSize? (buf.take len) = some n) :
    ∃ q, readPdu buf len = .ok (some q) ∧ q.buf.Valid ∧ q.buf.content = buf.take n ∧
      q.buf.writeOffset = n ∧ q.header.encode = buf.take imPduHeaderLen := by
  obtain ⟨hc, hn, hle⟩ := pduSize?_eq_some.mp h
  have hfield := lengthField_lt (buf.take len)
  have hheader : imPduHeaderLen = 20 := rfl
  rw [List.length_take_of_le hlen] at hc hle
  obtain ⟨hdr, hhdr⟩ := PduHeader.exists_encode
    (show (buf.take imPduHeaderLen).length = 20 from List.length_take_of_le (by omega))
  have hbuf : buf = hdr.encode ++ buf.drop imPduHeaderLen := by
    rw [hhdr, List.take_append_drop]
  have hsrc : (buf.take n).length = n := List.length_take_of_le (by omega)
  have hroom : CSimpleBuffer.HasRoom {} (buf.take n).length := by
    refine Or.inr ?_
    simp only [CSimpleBuffer.grown, hsrc]
    omega
  obtain ⟨b, hb, hv, hcontent, -, hoff⟩ := CSimpleBuffer.valid_empty.write (by omega) hroom
  rw [CSimpleBuffer.content_empty, List.nil_append] at hcontent
  refine ⟨{ buf := b, header := hdr }, ?_, hv, hcontent, ?_, hhdr⟩
  · have hslice : Block.slice? buf 0 n = some (buf.take n) := by
      rw [Block.slice?_of_le (by omega), List.drop_zero]
    have hread : readPduHeader { buf := b } buf imPduHeaderLen =
        .ok (0, { buf := b, header := hdr }) := by
      rw [hbuf]
      exact readPduHeader_encode _ _ _
    simp only [readPdu, if_neg (show ¬ len < 1 by omega), isPduAvailable_eq hlen, h, Exec.ok_bind,
      hslice, orFault_some, CImPdu.write, hb, Exec.pure_eq, hread]
  · rw [hoff, hsrc]
    exact Nat.zero_add n

end CImPdu

end ImServer
