import Mathlib.Data.List.Forall2
import ImServer.Base.ImConn

/-!
# Receiving: from chunks to PDUs

The content of `m_in_buf` is the part of the stream that was received and not yet
removed. `IsPduAvailable` is a framing rule on it, so the PDUs a connection hands
on are those of the stream, however the stream was cut into chunks, as long as
the two sizes the source keeps too small are large enough: the 16-bit `GetLength`
by which a handled PDU is removed, and the 32-bit allocation size of the buffer.
-/

namespace ImServer

/-- A delivery of the PDU whose bytes are `frame`: the handler sees its header and
its bytes, and exactly these bytes are removed. -/
structure Delivery.Carries (d : Delivery) (handle : Int) (frame : List UInt8) : Prop where
  header : d.pdu.header.encode = frame.take imPduHeaderLen
  valid : d.pdu.buf.Valid
  content : d.pdu.buf.content = frame
  sockHandle : d.pdu.sockHandle = some handle
  removed : d.removed = frame

/-- The allocation size after the free space test, before any 32-bit reduction. -/
def nextAlloc (alloc off : Nat) : Nat :=
  if alloc - off < readBufSize then CSimpleBuffer.grown (off + readBufSize) else alloc

/-- The bytes of a list of chunks. -/
def chunkBytes (chunks : List Chunk) : List UInt8 := chunks.flatMap Chunk.data

/-- No free space test of one `OnRead` asks for `2 ^ 32` bytes, starting from the
sizes `alloc` and `off`. -/
def CallFits : Nat → Nat → List Chunk → Prop
  | alloc, off, [] => nextAlloc alloc off < 2 ^ 32
  | alloc, off, chunk :: chunks =>
    nextAlloc alloc off < 2 ^ 32 ∧ CallFits (nextAlloc alloc off) (off + chunk.data.length) chunks

/-- The allocation size at the end of the receiving loop. -/
def callAlloc : Nat → Nat → List Chunk → Nat
  | alloc, off, [] => nextAlloc alloc off
  | alloc, off, chunk :: chunks =>
    callAlloc (nextAlloc alloc off) (off + chunk.data.length) chunks

/-- A wrapped allocation: the block ends before the offset, and the offset is
beyond the length of any PDU. -/
def Overrun (b : CSimpleBuffer) : Prop :=
  b.buffer.length < b.writeOffset ∧ 2 ^ 17 ≤ b.writeOffset

namespace CImConn

variable {b : CSimpleBuffer}

@[simp] theorem makeRoom_writeOffset : (makeRoom b).writeOffset = b.writeOffset := by
  unfold makeRoom
  split <;> rfl

/-- The free space test on a valid buffer compares the real amount of free space. -/
theorem makeRoom_eq (h : b.Valid) :
    makeRoom b = if b.allocSize - b.writeOffset < readBufSize then b.extend readBufSize else b := by
  have hfree : u32 (b.allocSize + 2 ^ 32 - b.writeOffset) = b.allocSize - b.writeOffset := by
    have hoffset := h.offset
    have hsize := h.size
    simp only [u32]
    omega
  rw [makeRoom, hfree]

theorem makeRoom_valid (h : b.Valid) (hfit : nextAlloc b.allocSize b.writeOffset < 2 ^ 32) :
    (makeRoom b).Valid ∧ (makeRoom b).content = b.content ∧
      (makeRoom b).allocSize = nextAlloc b.allocSize b.writeOffset ∧
      b.writeOffset + readBufSize ≤ (makeRoom b).allocSize := by
  rw [makeRoom_eq h]
  unfold nextAlloc at hfit ⊢
  split
  · next hfree =>
    rw [if_pos hfree] at hfit
    obtain ⟨hv, hc, hle⟩ := h.extend hfit
    exact ⟨hv, hc, CSimpleBuffer.extend_allocSize hfit, hle⟩
  · next hfree =>
    have hoffset := h.offset
    exact ⟨h, rfl, rfl, by omega⟩

/-- A request that wraps asks for less than the bytes already there. -/
theorem u32_grown_lt {w : Nat} (hw : w < 2 ^ 32)
    (hwrap : 2 ^ 32 ≤ CSimpleBuffer.grown (w + readBufSize)) :
    u32 (u32 (w + readBufSize) + u32 (w + readBufSize) / 4) < w := by
  simp only [CSimpleBuffer.grown, readBufSize] at hwrap
  simp only [u32, readBufSize]
  by_cases hlt : w + 2048 < 2 ^ 32
  · rw [Nat.mod_eq_of_lt hlt]
    omega
  · have hsmall : (w + 2048) % 2 ^ 32 < 2048 := by omega
    refine Nat.lt_of_le_of_lt (Nat.mod_le _ _) ?_
    omega

theorem makeRoom_overrun (h : b.Valid) (hfit : ¬ nextAlloc b.allocSize b.writeOffset < 2 ^ 32) :
    Overrun (makeRoom b) := by
  unfold nextAlloc at hfit
  split at hfit
  · next hfree =>
    have hwrap := Nat.not_lt.mp hfit
    rw [makeRoom_eq h, if_pos hfree]
    refine ⟨?_, ?_⟩
    · simp only [CSimpleBuffer.extend, Block.length_resize]
      exact u32_grown_lt h.offset_lt hwrap
    · simp only [CSimpleBuffer.grown, readBufSize] at hwrap
      simp only [CSimpleBuffer.extend_writeOffset]
      omega
  · exact absurd h.size hfit

theorem recvLoop_cons (h : b.Valid) (hfit : nextAlloc b.allocSize b.writeOffset < 2 ^ 32)
    (chunk : Chunk) :
    ∃ b', (∀ chunks, recvLoop b (chunk :: chunks) = recvLoop b' chunks) ∧ b'.Valid ∧
      b'.content = b.content ++ chunk.data ∧
      b'.allocSize = nextAlloc b.allocSize b.writeOffset ∧
      b'.writeOffset = b.writeOffset + chunk.data.length := by
  obtain ⟨m, hm⟩ : ∃ m, makeRoom b = m := ⟨_, rfl⟩
  obtain ⟨hv, hc, halloc, hroom⟩ := makeRoom_valid h hfit
  have hmoff : m.writeOffset = b.writeOffset := hm ▸ makeRoom_writeOffset
  rw [hm] at hv hc halloc hroom
  have hbound := chunk.bounded
  have hle : b.writeOffset + chunk.data.length ≤ m.allocSize := by omega
  obtain ⟨block, hstore⟩ : ∃ block, Block.store? m.buffer b.writeOffset chunk.data = some block :=
    ⟨_, Block.store?_of_le (by rw [hv.block]; exact hle)⟩
  have hoff : u32 (b.writeOffset + chunk.data.length) = b.writeOffset + chunk.data.length :=
    u32_of_lt (Nat.lt_of_le_of_lt hle hv.size)
  refine ⟨⟨block, m.allocSize, b.writeOffset + chunk.data.length⟩, ?_,
    ⟨(Block.length_of_store? hstore).trans hv.block, hle, hv.size⟩, ?_, halloc, rfl⟩
  · intro chunks
    simp only [recvLoop, hm, CSimpleBuffer.poke, hstore, orFault_some, Exec.ok_bind, Exec.pure_eq,
      hmoff, hoff]
  · rw [← hc]
    simpa only [CSimpleBuffer.content, hmoff] using Block.take_of_store? hstore

theorem recvLoop_ok {chunks : List Chunk} (h : b.Valid)
    (hfit : CallFits b.allocSize b.writeOffset chunks) :
    ∃ b', recvLoop b chunks = .ok b' ∧ b'.Valid ∧ b'.content = b.content ++ chunkBytes chunks ∧
      b'.allocSize = callAlloc b.allocSize b.writeOffset chunks := by
  induction chunks generalizing b with
  | nil =>
    rw [CallFits] at hfit
    obtain ⟨hv, hc, halloc, -⟩ := makeRoom_valid h hfit
    refine ⟨makeRoom b, rfl, hv, ?_, halloc⟩
    rw [hc]
    exact (List.append_nil _).symm
  | cons chunk chunks ih =>
    rw [CallFits] at hfit
    obtain ⟨hfit, hrest⟩ := hfit
    obtain ⟨b₁, hloop, hv, hc, halloc, hoff⟩ := recvLoop_cons h hfit chunk
    rw [← halloc, ← hoff] at hrest
    obtain ⟨b', hb', hvalid, hcontent, hsize⟩ := ih hv hrest
    refine ⟨b', (hloop chunks).trans hb', hvalid, ?_, ?_⟩
    · rw [hcontent, hc, List.append_assoc]
      rfl
    · rw [hsize, callAlloc, halloc, hoff]

/-- Without room the loop stores outside the block or ends with one too short. -/
theorem recvLoop_overrun {chunks : List Chunk} (h : b.Valid)
    (hfit : ¬ CallFits b.allocSize b.writeOffset chunks) :
    recvLoop b chunks = .error .fault ∨ ∃ b', recvLoop b chunks = .ok b' ∧ Overrun b' := by
  induction chunks generalizing b with
  | nil =>
    rw [CallFits] at hfit
    exact .inr ⟨makeRoom b, rfl, makeRoom_overrun h hfit⟩
  | cons chunk chunks ih =>
    rw [CallFits] at hfit
    by_cases hnext : nextAlloc b.allocSize b.writeOffset < 2 ^ 32
    · obtain ⟨b₁, hloop, hv, -, halloc, hoff⟩ := recvLoop_cons h hnext chunk
      rw [hloop chunks]
      apply ih hv
      rw [halloc, hoff]
      exact fun hrest => hfit ⟨hnext, hrest⟩
    · have hover := makeRoom_overrun h hnext
      have hpos := chunk.nonempty
      rw [Overrun, makeRoom_writeOffset] at hover
      have hstore : Block.store? (makeRoom b).buffer b.writeOffset chunk.data = none :=
        Block.store?_of_lt (by omega)
      refine .inl ?_
      simp only [recvLoop, CSimpleBuffer.poke, hstore, orFault_none, Exec.error_bind]

theorem parseStep_of_none (handle : Int) (h : b.Valid)
    (hsize : CImPdu.pduSize? b.content = none) : parseStep handle b = .ok none := by
  have hlen : b.writeOffset ≤ b.buffer.length := by
    rw [h.block]
    exact h.offset
  simp only [parseStep, CImPdu.readPdu_of_none hlen hsize, Exec.ok_bind, Exec.pure_eq]

/-- A complete PDU is handed on whole, and its length modulo `2 ^ 16` is removed. -/
theorem parseStep_of_some (handle : Int) {n : Nat} (h : b.Valid)
    (hsize : CImPdu.pduSize? b.content = some n) :
    ∃ d b', parseStep handle b = .ok (some (d, b')) ∧ b'.Valid ∧
      b'.content = b.content.drop (u16 n) ∧ b'.allocSize = b.allocSize ∧
      d.pdu.header.encode = b.content.take imPduHeaderLen ∧ d.pdu.buf.Valid ∧
      d.pdu.buf.content = b.content.take n ∧ d.pdu.sockHandle = some handle ∧
      d.removed = b.content.take (u16 n) := by
  have hlen : b.writeOffset ≤ b.buffer.length := by
    rw [h.block]
    exact h.offset
  obtain ⟨hheader, -, hn⟩ := CImPdu.pduSize?_eq_some.mp hsize
  rw [h.length_content] at hheader hn
  obtain ⟨q, hq, hv, hc, hoff, hh⟩ := CImPdu.readPdu_of_some hlen hsize
  obtain ⟨b', hb', hv', hc', halloc, -⟩ := h.read (u16 n)
  have htake {k : Nat} (hk : k ≤ b.writeOffset) : b.buffer.take k = b.content.take k := by
    rw [CSimpleBuffer.content, List.take_take, Nat.min_eq_left hk]
  refine ⟨⟨{ q with sockHandle := some handle }, b.content.take (u16 n)⟩, b', ?_, hv', hc', halloc,
    ?_, hv, ?_, rfl, rfl⟩
  · simp only [parseStep, hq, Exec.ok_bind, CImPdu.getLength, hoff, hb', Exec.pure_eq]
  · rw [← htake hheader]
    exact hh
  · rw [← htake hn]
    exact hc

/-- While all PDUs of the content have a 16-bit length, the loop cuts the content
as the framing rule does, in one iteration for each PDU and a last one. -/
theorem parseLoop_spec (handle : Int) {c : List UInt8}
    (hsmall : ∀ frame ∈ (Framing.split CImPdu.framing c).1, frame.length < 2 ^ 16)
    (h : b.Valid) (hc : b.content = c) (fuel : Nat) :
    (fuel ≤ (Framing.split CImPdu.framing c).1.length →
      parseLoop handle fuel b = .error .running) ∧
    ((Framing.split CImPdu.framing c).1.length < fuel →
      ∃ ds b', parseLoop handle fuel b = .ok ⟨ds, b', false⟩ ∧ b'.Valid ∧
        b'.content = (Framing.split CImPdu.framing c).2 ∧ b'.allocSize = b.allocSize ∧
        List.Forall₂ (fun d frame => Delivery.Carries d handle frame) ds
          (Framing.split CImPdu.framing c).1) := by
  induction c using Framing.split_induction CImPdu.framing generalizing b fuel with
  | incomplete c hs =>
    rw [Framing.split_of_none _ hs]
    constructor
    · intro hfuel
      rw [Nat.le_zero.mp hfuel]
      rfl
    · intro hfuel
      obtain ⟨fuel, rfl⟩ := Nat.exists_eq_add_one.mpr hfuel
      have hstep := parseStep_of_none handle h (hc ▸ hs)
      exact ⟨[], b, by simp only [parseLoop, hstep], h, hc, rfl, .nil⟩
  | frame c n hs ih =>
    rw [Framing.split_of_some _ hs] at hsmall ⊢
    have hle : n ≤ c.length := CImPdu.framing.le hs
    have hn : u16 n = n := by
      refine u16_of_lt ?_
      have hfirst := hsmall _ List.mem_cons_self
      rwa [List.length_take_of_le hle] at hfirst
    obtain ⟨d, b₁, hstep, hv, hc₁, halloc, hheader, hvd, hcd, hsock, hremoved⟩ :=
      parseStep_of_some handle h (hc ▸ hs)
    rw [hn, hc] at hc₁ hremoved
    obtain ⟨ihrun, ihok⟩ := ih (fun frame hmem => hsmall frame (List.mem_cons_of_mem _ hmem)) hv
      hc₁ (fuel - 1)
    rw [List.length_cons]
    constructor
    · intro hfuel
      cases fuel with
      | zero => rfl
      | succ fuel =>
        have hrun := ihrun (by omega)
        rw [Nat.add_sub_cancel] at hrun
        simp only [parseLoop, hstep, hrun, Exec.error_bind]
    · intro hfuel
      obtain ⟨fuel, rfl⟩ := Nat.exists_eq_add_one.mpr (Nat.lt_of_le_of_lt (Nat.zero_le _) hfuel)
      obtain ⟨ds, b', hrun, hv', hc', halloc', hds⟩ := ihok (by omega)
      rw [Nat.add_sub_cancel] at hrun
      refine ⟨d :: ds, b', by simp only [parseLoop, hstep, hrun, Exec.ok_bind, Exec.pure_eq],
        hv', hc', halloc'.trans halloc, .cons ⟨?_, hvd, ?_, hsock, hremoved⟩ hds⟩
      · have htwenty : imPduHeaderLen ≤ n := by
          obtain ⟨-, rfl, -⟩ := CImPdu.pduSize?_eq_some.mp hs
          exact Nat.le_add_left _ _
        rw [hheader, hc, List.take_take, Nat.min_eq_left htwenty]
      · rw [hcd, hc]

theorem read_overrun (hover : b.buffer.length < b.writeOffset) (len : Nat) :
    b.read len = .error .fault := by
  obtain ⟨n, hn⟩ : ∃ n, n = if b.writeOffset < len then b.writeOffset else len := ⟨_, rfl⟩
  have hle : n ≤ b.writeOffset := by
    rw [hn]
    split <;> omega
  have hrest : Block.slice? b.buffer n (b.writeOffset - n) = none :=
    Block.slice?_of_lt (by omega)
  simp only [CSimpleBuffer.read, ← hn, hrest]
  cases Block.slice? b.buffer 0 n <;> rfl

/-- With more bytes announced than any PDU has, `ReadPdu` finds a PDU or reads
outside the block. -/
theorem readPdu_of_large (buf : List UInt8) {len : Nat} (hlen : 2 ^ 17 ≤ len) :
    CImPdu.readPdu buf len = .error .fault ∨ ∃ p, CImPdu.readPdu buf len = .ok (some p) := by
  have hheader : imPduHeaderLen = 20 := rfl
  have hone : ¬ len < 1 := by omega
  have htwenty : ¬ len < imPduHeaderLen := by omega
  by_cases hbuf : 20 ≤ buf.length
  · obtain ⟨front, back, rfl, hfront⟩ := Block.exists_cut hbuf
    obtain ⟨hdr, rfl⟩ := PduHeader.exists_encode hfront
    -- With 20 bytes in the block, `IsPduAvailable` sees the same as on those bytes alone.
    obtain ⟨n, hn, havail⟩ : ∃ n, n < 2 ^ 17 ∧
        CImPdu.isPduAvailable (hdr.encode ++ back) len = .ok (some n) := by
      obtain ⟨hi, hhi⟩ : ∃ hi, (hdr.encode ++ back)[18]? = some hi :=
        ⟨_, List.getElem?_eq_getElem (by omega)⟩
      obtain ⟨lo, hlo⟩ : ∃ lo, (hdr.encode ++ back)[19]? = some lo :=
        ⟨_, List.getElem?_eq_getElem (by omega)⟩
      have hfield := (htons (readUint16 hi lo)).toNat_lt
      refine ⟨(htons (readUint16 hi lo)).toNat + imPduHeaderLen, by omega, ?_⟩
      have hfits : ¬ len < (htons (readUint16 hi lo)).toNat + imPduHeaderLen := by omega
      have hpos : (htons (readUint16 hi lo)).toNat + imPduHeaderLen ≠ 0 := Nat.succ_ne_zero _
      simp only [CImPdu.isPduAvailable, if_neg htwenty, hhi, hlo, orFault_some, Exec.ok_bind,
        if_neg hfits, if_neg hpos, Exec.pure_eq]
    simp only [CImPdu.readPdu, if_neg hone, havail, Exec.ok_bind]
    by_cases hslice : 0 + n ≤ (hdr.encode ++ back).length
    · rw [Block.slice?_of_le hslice, orFault_some, Exec.ok_bind]
      obtain ⟨src, hsrc⟩ : ∃ src, src = ((hdr.encode ++ back).drop 0).take n := ⟨_, rfl⟩
      have hsrclen : src.length ≤ n := by
        rw [hsrc]
        exact List.length_take_le _ _
      have hroom : CSimpleBuffer.HasRoom {} src.length := by
        refine .inr ?_
        simp only [CSimpleBuffer.grown]
        omega
      obtain ⟨b, hb, -⟩ := CSimpleBuffer.valid_empty.write (by omega) hroom
      rw [← hsrc]
      refine .inr ⟨{ buf := b, header := hdr }, ?_⟩
      simp only [CImPdu.write, hb, Exec.ok_bind, Exec.pure_eq, CImPdu.readPduHeader_encode]
    · rw [Block.slice?_of_lt (by omega), orFault_none, Exec.error_bind]
      exact .inl rfl
  · have hlo : buf[19]? = none := List.getElem?_eq_none (by omega)
    refine .inl ?_
    simp only [CImPdu.readPdu, CImPdu.isPduAvailable, if_neg hone, if_neg htwenty, hlo]
    cases buf[18]? <;> rfl

/-- On a block that ends before the offset a PDU is found and cannot be removed. -/
theorem parseLoop_overrun {handle : Int} (hover : Overrun b) {fuel : Nat} {r : Parsed} :
    parseLoop handle fuel b ≠ .ok r := by
  have hstep : parseStep handle b = .error .fault := by
    rcases readPdu_of_large b.buffer hover.2 with hfault | ⟨p, hp⟩
    · simp only [parseStep, hfault, Exec.error_bind]
    · simp only [parseStep, hp, Exec.ok_bind, read_overrun hover.1, Exec.error_bind]
  cases fuel with
  | zero => exact nofun
  | succ fuel =>
    simp only [parseLoop, hstep]
    exact nofun

/-- The bytes of a sequence of read events, in the order in which the socket has given them. -/
def callBytes (calls : List (List Chunk)) : List UInt8 := calls.flatMap chunkBytes

/-- No free space test of the read events asks for `2 ^ 32` bytes. Between two
events the unfinished PDU `rest` stays in the buffer. -/
def ReadsFit : Nat → List UInt8 → List (List Chunk) → Prop
  | _, _, [] => True
  | alloc, rest, chunks :: calls =>
    CallFits alloc rest.length chunks ∧
      ReadsFit (callAlloc alloc rest.length chunks)
        (Framing.split CImPdu.framing (rest ++ chunkBytes chunks)).2 calls

variable {conn conn' : CImConn}

theorem onRead_ok {chunks : List Chunk} {fuel : Nat} {frames : List (List UInt8)}
    {rest : List UInt8} (h : conn.inBuf.Valid)
    (hsplit : Framing.split CImPdu.framing (conn.inBuf.content ++ chunkBytes chunks) =
      (frames, rest))
    (hsmall : ∀ frame ∈ frames, frame.length < 2 ^ 16)
    (hfit : CallFits conn.inBuf.allocSize conn.inBuf.content.length chunks)
    (hfuel : frames.length < fuel) :
    ∃ ds conn', onRead fuel conn chunks = .ok (ds, conn') ∧ conn'.inBuf.Valid ∧
      conn'.inBuf.content = rest ∧ conn'.handle = conn.handle ∧
      conn'.inBuf.allocSize = callAlloc conn.inBuf.allocSize conn.inBuf.content.length chunks ∧
      List.Forall₂ (fun d frame => Delivery.Carries d conn.handle frame) ds frames := by
  rw [h.length_content] at hfit ⊢
  obtain ⟨b, hb, hv, hc, halloc⟩ := recvLoop_ok h hfit
  obtain ⟨-, hparse⟩ := parseLoop_spec conn.handle (by rw [hsplit]; exact hsmall) hv hc fuel
  rw [hsplit] at hparse
  obtain ⟨ds, b', hrun, hv', hc', halloc', hds⟩ := hparse hfuel
  refine ⟨ds, { conn with
    inBuf := b'
    recvBytes := u32 (conn.recvBytes + (chunks.map (·.data.length)).sum) }, ?_, hv', hc', rfl,
    halloc'.trans halloc, hds⟩
  simp only [onRead, hb, hrun, Exec.ok_bind, Exec.pure_eq]

/-- A read event that returns had room, and was given enough iterations. -/
theorem onRead_fits {chunks : List Chunk} {fuel : Nat} {frames : List (List UInt8)}
    {rest : List UInt8} {r : List Delivery × CImConn} (h : conn.inBuf.Valid)
    (hsplit : Framing.split CImPdu.framing (conn.inBuf.content ++ chunkBytes chunks) =
      (frames, rest))
    (hsmall : ∀ frame ∈ frames, frame.length < 2 ^ 16)
    (hrun : onRead fuel conn chunks = .ok r) :
    CallFits conn.inBuf.allocSize conn.inBuf.content.length chunks ∧ frames.length < fuel := by
  rw [h.length_content]
  by_cases hfit : CallFits conn.inBuf.allocSize conn.inBuf.writeOffset chunks
  · refine ⟨hfit, Nat.not_le.mp fun hfuel => ?_⟩
    obtain ⟨b, hb, hv, hc, -⟩ := recvLoop_ok h hfit
    obtain ⟨hparse, -⟩ := parseLoop_spec conn.handle (by rw [hsplit]; exact hsmall) hv hc fuel
    rw [hsplit] at hparse
    simp only [onRead, hb, hparse hfuel, Exec.ok_bind, Exec.error_bind] at hrun
    cases hrun
  · rcases recvLoop_overrun h hfit with hfault | ⟨b, hb, hover⟩
    · simp only [onRead, hfault, Exec.error_bind] at hrun
      cases hrun
    · simp only [onRead, hb, Exec.ok_bind] at hrun
      cases hparse : parseLoop conn.handle fuel b with
      | error e =>
        rw [hparse] at hrun
        cases hrun
      | ok r => exact absurd hparse (parseLoop_overrun hover)

theorem callBytes_cons (chunks : List Chunk) (calls : List (List Chunk)) :
    callBytes (chunks :: calls) = chunkBytes chunks ++ callBytes calls := rfl

theorem split_callBytes {content : List UInt8} {chunks : List Chunk} {calls : List (List Chunk)}
    {frames : List (List UInt8)} {rest : List UInt8}
    (hsplit : Framing.split CImPdu.framing (content ++ callBytes (chunks :: calls)) =
      (frames, rest)) :
    ∃ frames₁ rest₁ frames₂,
      Framing.split CImPdu.framing (content ++ chunkBytes chunks) = (frames₁, rest₁) ∧
      Framing.split CImPdu.framing (rest₁ ++ callBytes calls) = (frames₂, rest) ∧
      frames = frames₁ ++ frames₂ := by
  rw [callBytes_cons, ← List.append_assoc, Framing.split_append] at hsplit
  obtain ⟨hframes, hrest⟩ := Prod.mk.inj hsplit
  exact ⟨_, _, _, rfl, Prod.ext rfl hrest, hframes.symm⟩

theorem onReads_ok {calls : List (List Chunk)} {fuel : Nat} {frames : List (List UInt8)}
    {rest : List UInt8} (h : conn.inBuf.Valid)
    (hsplit : Framing.split CImPdu.framing (conn.inBuf.content ++ callBytes calls) =
      (frames, rest))
    (hsmall : ∀ frame ∈ frames, frame.length < 2 ^ 16)
    (hfit : ReadsFit conn.inBuf.allocSize conn.inBuf.content calls)
    (hfuel : frames.length < fuel) (hrest : CImPdu.pduSize? conn.inBuf.content = none) :
    ∃ ds conn', onReads fuel conn calls = .ok (ds, conn') ∧ conn'.inBuf.Valid ∧
      conn'.inBuf.content = rest ∧
      List.Forall₂ (fun d frame => Delivery.Carries d conn.handle frame) ds frames := by
  induction calls generalizing conn frames with
  | nil =>
    have hnil : conn.inBuf.content ++ callBytes [] = conn.inBuf.content := List.append_nil _
    rw [hnil, Framing.split_of_none _ hrest] at hsplit
    obtain ⟨rfl, rfl⟩ := Prod.mk.inj hsplit
    exact ⟨[], conn, rfl, h, rfl, .nil⟩
  | cons chunks calls ih =>
    rw [ReadsFit] at hfit
    obtain ⟨hcall, hcalls⟩ := hfit
    obtain ⟨frames₁, rest₁, frames₂, h₁, h₂, rfl⟩ := split_callBytes hsplit
    rw [List.length_append] at hfuel
    have hfuel₁ : frames₁.length < fuel := by omega
    obtain ⟨ds₁, conn₁, hrun₁, hv₁, hc₁, hhandle, halloc, hds₁⟩ := onRead_ok h h₁
      (fun frame hmem => hsmall frame (List.mem_append_left _ hmem)) hcall hfuel₁
    rw [h₁, ← halloc, ← hc₁] at hcalls
    rw [← hc₁] at h₂
    have hrest₁ : CImPdu.pduSize? conn₁.inBuf.content = none := by
      have hrem := Framing.size?_remainder CImPdu.framing
        (conn.inBuf.content ++ chunkBytes chunks)
      rw [h₁] at hrem
      rw [hc₁]
      exact hrem
    obtain ⟨ds₂, conn₂, hrun₂, hv₂, hc₂, hds₂⟩ := ih hv₁ h₂
      (fun frame hmem => hsmall frame (List.mem_append_right _ hmem)) hcalls (by omega) hrest₁
    rw [hhandle] at hds₂
    refine ⟨ds₁ ++ ds₂, conn₂, ?_, hv₂, hc₂, List.rel_append hds₁ hds₂⟩
    simp only [onReads, hrun₁, hrun₂, Exec.ok_bind, Exec.pure_eq]

theorem onReads_fits {calls : List (List Chunk)} {fuel : Nat} {frames : List (List UInt8)}
    {rest : List UInt8} {r : List Delivery × CImConn} (h : conn.inBuf.Valid)
    (hsplit : Framing.split CImPdu.framing (conn.inBuf.content ++ callBytes calls) =
      (frames, rest))
    (hsmall : ∀ frame ∈ frames, frame.length < 2 ^ 16)
    (hrun : onReads fuel conn calls = .ok r) :
    ReadsFit conn.inBuf.allocSize conn.inBuf.content calls := by
  induction calls generalizing conn frames r with
  | nil => trivial
  | cons chunks calls ih =>
    obtain ⟨frames₁, rest₁, frames₂, h₁, h₂, rfl⟩ := split_callBytes hsplit
    have hsmall₁ : ∀ frame ∈ frames₁, frame.length < 2 ^ 16 :=
      fun frame hmem => hsmall frame (List.mem_append_left _ hmem)
    have hsmall₂ : ∀ frame ∈ frames₂, frame.length < 2 ^ 16 :=
      fun frame hmem => hsmall frame (List.mem_append_right _ hmem)
    rw [onReads] at hrun
    cases hone : onRead fuel conn chunks with
    | error e =>
      rw [hone] at hrun
      cases hrun
    | ok r₁ =>
      obtain ⟨hfit, hfuel⟩ := onRead_fits h h₁ hsmall₁ hone
      obtain ⟨ds₁, conn₁, hrun₁, hv₁, hc₁, -, halloc, -⟩ := onRead_ok h h₁ hsmall₁ hfit hfuel
      rw [hrun₁] at hone
      cases hone
      rw [hrun₁, Exec.ok_bind] at hrun
      cases htwo : onReads fuel conn₁ calls with
      | error e =>
        simp only [htwo, Exec.error_bind] at hrun
        cases hrun
      | ok r₂ =>
        rw [← hc₁] at h₂
        have hcalls := ih hv₁ h₂ hsmall₂ htwo
        rw [ReadsFit, h₁]
        refine ⟨hfit, ?_⟩
        rw [← halloc, ← hc₁]
        exact hcalls

/-- Two gigabytes of stream always fit, since growth is by a quarter. -/
theorem callFits_of_small {chunks : List Chunk} {alloc off : Nat} (halloc : alloc < 2 ^ 32)
    (hsmall : off + (chunkBytes chunks).length ≤ 2 ^ 31) :
    CallFits alloc off chunks ∧ callAlloc alloc off chunks < 2 ^ 32 := by
  have hnext (off : Nat) (hoff : off ≤ 2 ^ 31) {alloc : Nat} (halloc : alloc < 2 ^ 32) :
      nextAlloc alloc off < 2 ^ 32 := by
    unfold nextAlloc
    split
    · simp only [CSimpleBuffer.grown, readBufSize]
      omega
    · exact halloc
  induction chunks generalizing alloc off with
  | nil => exact ⟨hnext off (by omega) halloc, hnext off (by omega) halloc⟩
  | cons chunk chunks ih =>
    have hlen : (chunkBytes (chunk :: chunks)).length =
        chunk.data.length + (chunkBytes chunks).length := List.length_append
    rw [hlen] at hsmall
    have hfirst := hnext off (by omega) halloc
    obtain ⟨hfit, hlast⟩ := ih hfirst
      (show off + chunk.data.length + (chunkBytes chunks).length ≤ 2 ^ 31 by omega)
    rw [CallFits, callAlloc]
    exact ⟨⟨hfirst, hfit⟩, hlast⟩

theorem readsFit_of_small {calls : List (List Chunk)} {alloc : Nat} {rest : List UInt8}
    (halloc : alloc < 2 ^ 32) (hsmall : rest.length + (callBytes calls).length ≤ 2 ^ 31) :
    ReadsFit alloc rest calls := by
  induction calls generalizing alloc rest with
  | nil => trivial
  | cons chunks calls ih =>
    rw [callBytes_cons, List.length_append] at hsmall
    obtain ⟨hfit, hlast⟩ := callFits_of_small halloc
      (show rest.length + (chunkBytes chunks).length ≤ 2 ^ 31 by omega)
    rw [ReadsFit]
    refine ⟨hfit, ih hlast ?_⟩
    have hrem := Framing.length_remainder_le CImPdu.framing (rest ++ chunkBytes chunks)
    rw [List.length_append] at hrem
    omega

theorem length_of_read {len : Nat} {data : List UInt8} {b' : CSimpleBuffer}
    (h : b.read len = .ok (data, b')) : data.length ≤ len := by
  obtain ⟨n, hn⟩ : ∃ n, n = if b.writeOffset < len then b.writeOffset else len := ⟨_, rfl⟩
  have hle : n ≤ len := by
    rw [hn]
    split <;> omega
  simp only [CSimpleBuffer.read, ← hn] at h
  obtain ⟨data', hdata, h⟩ := Exec.bind_eq_ok.mp h
  obtain ⟨rest, -, h⟩ := Exec.bind_eq_ok.mp h
  obtain ⟨block, -, h⟩ := Exec.bind_eq_ok.mp h
  cases h
  by_cases hslice : 0 + n ≤ b.buffer.length
  · rw [Block.slice?_of_le hslice] at hdata
    cases hdata
    exact Nat.le_trans (List.length_take_le _ _) hle
  · rw [Block.slice?_of_lt (by omega)] at hdata
    cases hdata

theorem parseStep_removed {handle : Int} {d : Delivery} {b' : CSimpleBuffer}
    (h : parseStep handle b = .ok (some (d, b'))) : d.removed.length < 2 ^ 16 := by
  obtain ⟨p, -, h⟩ := Exec.bind_eq_ok.mp h
  cases p with
  | none => cases h
  | some p =>
    obtain ⟨⟨removed, b₁⟩, hread, h⟩ := Exec.bind_eq_ok.mp h
    cases h
    exact Nat.lt_of_le_of_lt (length_of_read hread) (Nat.mod_lt _ (by decide))

theorem parseLoop_removed {handle : Int} {fuel : Nat} {r : Parsed}
    (h : parseLoop handle fuel b = .ok r) : ∀ d ∈ r.deliveries, d.removed.length < 2 ^ 16 := by
  induction fuel generalizing b r with
  | zero => cases h
  | succ fuel ih =>
    rw [parseLoop] at h
    split at h
    · cases h
      exact nofun
    · cases h
    · cases h
      exact nofun
    · next d b' hstep =>
      obtain ⟨r', hloop, h⟩ := Exec.bind_eq_ok.mp h
      cases h
      intro d' hd'
      rcases List.mem_cons.mp hd' with rfl | hmem
      · exact parseStep_removed hstep
      · exact ih hloop d' hmem

theorem onReads_removed {calls : List (List Chunk)} {fuel : Nat} {ds : List Delivery}
    (h : onReads fuel conn calls = .ok (ds, conn')) : ∀ d ∈ ds, d.removed.length < 2 ^ 16 := by
  induction calls generalizing conn ds with
  | nil =>
    cases h
    exact nofun
  | cons chunks calls ih =>
    rw [onReads] at h
    obtain ⟨⟨ds₁, conn₁⟩, hone, h⟩ := Exec.bind_eq_ok.mp h
    obtain ⟨⟨ds₂, conn₂⟩, hrest, h⟩ := Exec.bind_eq_ok.mp h
    cases h
    obtain ⟨b₁, -, hone⟩ := Exec.bind_eq_ok.mp hone
    obtain ⟨r, hparse, hone⟩ := Exec.bind_eq_ok.mp hone
    cases hone
    intro d hd
    rcases List.mem_append.mp hd with hfirst | hlater
    · exact parseLoop_removed hparse d hfirst
    · exact ih hrest d hlater

end CImConn

end ImServer
