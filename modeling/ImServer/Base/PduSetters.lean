import ImServer.Base.ImPdu

/-!
# Building a PDU and reading it back

A message is put into a PDU by `SetPBMsg`, which lays out header and body, and by
`SetCommandId` and `SetSessionId`, which store through the raw buffer pointer and
remember the value for the next `WriteHeader`. The setters commute once the
header has its 20 bytes. Before that they write through a null pointer, and above
65515 bytes of body the total no longer fits `GetLength`'s 16 bits.
-/

namespace ImServer

namespace CImPdu

/-- The setters a sender calls, with their arguments. They may be called in any order and more than
once. -/
inductive Setter where
  | commandId (commandId : UInt16)
  | sessionId (sessionId : UidCode)
  | pbMsg (msg : List UInt8)

def Setter.apply (p : CImPdu) : Setter → Exec CImPdu
  | .commandId c => p.setCommandId c
  | .sessionId s => p.setSessionId s
  | .pbMsg msg => p.setPBMsg msg

/-- The calls of `ops` in their order. -/
def applyAll (p : CImPdu) (ops : List Setter) : Exec CImPdu := ops.foldlM Setter.apply p

/-- Whatever follows `bytes`, a receiver recognises exactly them as one PDU and
finds the given command id, session id and body in it. -/
def ReadsBack (bytes : List UInt8) (commandId : UInt16) (sessionId : UidCode)
    (body : List UInt8) : Prop :=
  ∀ rest, (bytes ++ rest).length < 2 ^ 32 →
    isPduAvailable (bytes ++ rest) (bytes ++ rest).length = .ok (some bytes.length) ∧
    ∃ q, readPdu (bytes ++ rest) (bytes ++ rest).length = .ok (some q) ∧
      q.header.cmdId = commandId ∧ q.header.sessionId = sessionId ∧ q.body = body ∧
      q.buf.content = bytes ∧ q.getLength = bytes.length

/-- The setters return, and what `SendPdu` passes on reads back. -/
def RoundTrip (p : CImPdu) (ops : List Setter) (commandId : UInt16) (sessionId : UidCode)
    (body : List UInt8) : Prop :=
  ∃ q bytes, p.applyAll ops = .ok q ∧ q.sent = .ok bytes ∧
    ReadsBack bytes commandId sessionId body

/-- The PDU objects a program holds: the block is null, or has room for a header. -/
def Settable (p : CImPdu) : Prop :=
  p.buf.Valid ∧ (p.buf.allocSize = 0 ∨ imPduHeaderLen ≤ p.buf.allocSize)

theorem settable_fresh : Settable {} := ⟨CSimpleBuffer.valid_empty, .inl rfl⟩

theorem settable_of_readPdu {buf : List UInt8} {len : Nat} {p : CImPdu} (hlen : len ≤ buf.length)
    (h : readPdu buf len = .ok (some p)) : p.Settable := by
  cases hs : pduSize? (buf.take len) with
  | none =>
    rw [readPdu_of_none hlen hs] at h
    cases h
  | some n =>
    obtain ⟨q, hq, hv, -, hoff, -⟩ := readPdu_of_some hlen hs
    rw [h] at hq
    cases hq
    obtain ⟨-, hn, -⟩ := pduSize?_eq_some.mp hs
    refine ⟨hv, .inr (Nat.le_trans ?_ hv.offset)⟩
    omega

section Poke

variable {b : CSimpleBuffer} {h : PduHeader} {back : List UInt8}

private theorem length_byte (x : UInt8) : [x].length = 1 := rfl

private theorem poke_eq {off : Nat} {src block : List UInt8}
    (hstore : Block.store? b.buffer off src = some block) :
    b.poke off src = .ok { b with buffer := block } := by
  simp only [CSimpleBuffer.poke, hstore, orFault_some, Exec.ok_bind, Exec.pure_eq]

theorem poke_pid (hb : b.buffer = h.encode ++ back) (x : UInt16) :
    b.poke 0 (writeUint16 x) =
      .ok { b with buffer := { h with pid := x }.encode ++ back } := by
  apply poke_eq
  rw [hb]
  simp only [PduHeader.encode, List.append_assoc]
  exact Block.store?_head rfl

theorem poke_version (hb : b.buffer = h.encode ++ back) (x : UInt8) :
    b.poke 2 [x] = .ok { b with buffer := { h with version := x }.encode ++ back } := by
  apply poke_eq
  rw [hb]
  simp only [PduHeader.encode, List.append_assoc]
  rw [show 2 = 2 + 0 from rfl, Block.store?_skip (length_writeUint16 _),
    Block.store?_head (length_byte _)]
  rfl

theorem poke_sessionId (hb : b.buffer = h.encode ++ back) (x : UidCode) :
    b.poke 3 x.toList = .ok { b with buffer := { h with sessionId := x }.encode ++ back } := by
  apply poke_eq
  rw [hb]
  simp only [PduHeader.encode, List.append_assoc]
  rw [show 3 = 2 + (1 + 0) from rfl, Block.store?_skip (length_writeUint16 _),
    Block.store?_skip (length_byte _), Block.store?_head (by simp)]
  rfl

theorem poke_encrypt (hb : b.buffer = h.encode ++ back) (x : UInt8) :
    b.poke 15 [x] = .ok { b with buffer := { h with encrypt := x }.encode ++ back } := by
  apply poke_eq
  rw [hb]
  simp only [PduHeader.encode, List.append_assoc]
  rw [show 15 = 2 + (1 + (12 + 0)) from rfl, Block.store?_skip (length_writeUint16 _),
    Block.store?_skip (length_byte _), Block.store?_skip Vector.length_toList,
    Block.store?_head (length_byte _)]
  rfl

theorem poke_cmdId (hb : b.buffer = h.encode ++ back) (x : UInt16) :
    b.poke 16 (writeUint16 (htons x)) =
      .ok { b with buffer := { h with cmdId := x }.encode ++ back } := by
  apply poke_eq
  rw [hb]
  simp only [PduHeader.encode, List.append_assoc]
  rw [show 16 = 2 + (1 + (12 + (1 + 0))) from rfl, Block.store?_skip (length_writeUint16 _),
    Block.store?_skip (length_byte _), Block.store?_skip Vector.length_toList,
      Block.store?_skip (length_byte _),
    Block.store?_head (length_writeUint16 _)]
  rfl

theorem poke_bodySize (hb : b.buffer = h.encode ++ back) (x : UInt16) :
    b.poke 18 (writeUint16 (htons x)) =
      .ok { b with buffer := { h with bodySize := x }.encode ++ back } := by
  apply poke_eq
  rw [hb]
  simp only [PduHeader.encode, List.append_assoc]
  rw [show 18 = 2 + (1 + (12 + (1 + (2 + 0)))) from rfl, Block.store?_skip (length_writeUint16 _),
    Block.store?_skip (length_byte _), Block.store?_skip Vector.length_toList,
      Block.store?_skip (length_byte _),
    Block.store?_skip (length_writeUint16 _), Block.store?_head (length_writeUint16 _)]
  rfl

theorem poke_null {off : Nat} {src : List UInt8} (hb : b.buffer = []) (hsrc : src ≠ []) :
    b.poke off src = .error .fault := by
  have hpos : 0 < src.length := List.length_pos_iff.mpr hsrc
  have hnone : Block.store? b.buffer off src = none := by
    rw [hb]
    exact Block.store?_of_lt (Nat.lt_of_lt_of_le hpos (Nat.le_add_left _ _))
  simp only [CSimpleBuffer.poke, hnone, orFault_none, Exec.error_bind]

end Poke

/-- `WriteHeader` replaces the 20 bytes at the front by the fields of the object
and the size of the body behind them. -/
theorem writeHeader_eq {p : CImPdu} {front back : List UInt8} (hfront : front.length = 20)
    (hb : p.buf.buffer = front ++ back) :
    p.writeHeader = .ok { p with buf := { p.buf with
      buffer := { p.header with bodySize := UInt16.ofNat p.getBodyLength }.encode ++ back } } := by
  obtain ⟨old, rfl⟩ := PduHeader.exists_encode hfront
  simp only [writeHeader]
  rw [poke_pid hb, Exec.ok_bind, poke_version rfl, Exec.ok_bind, poke_sessionId rfl, Exec.ok_bind,
    poke_encrypt rfl, Exec.ok_bind, poke_cmdId rfl, Exec.ok_bind, poke_bodySize rfl, Exec.ok_bind]
  rfl

/-- The effect of a setter on the header fields and the body last laid out. -/
def Setter.effect : PduHeader × Option (List UInt8) → Setter → PduHeader × Option (List UInt8)
  | (h, msg), .commandId c => ({ h with cmdId := c }, msg)
  | (h, msg), .sessionId s => ({ h with sessionId := s }, msg)
  | (h, _), .pbMsg msg => (h, some msg)

/-- The block has room for a header, and if a body was laid out the block begins
with the header of the object and that body. `WriteHeader` takes the body size
from the buffer, so the field `nBodySize` of the object plays no part. -/
structure Holds (p : CImPdu) (msg : Option (List UInt8)) : Prop where
  valid : p.buf.Valid
  room : imPduHeaderLen ≤ p.buf.allocSize
  offset : ∀ body ∈ msg, p.buf.writeOffset = imPduHeaderLen + body.length
  layout : ∀ body ∈ msg, ∃ back, p.buf.buffer =
    { p.header with bodySize := UInt16.ofNat body.length }.encode ++ (body ++ back)

/-- The largest body whose PDU has a 16-bit length. -/
abbrev maxBody : Nat := 65515

variable {p : CImPdu}

theorem Holds.exists_header {msg : Option (List UInt8)} (hp : p.Holds msg) :
    ∃ h back, p.buf.buffer = PduHeader.encode h ++ back := by
  have hlen : imPduHeaderLen ≤ p.buf.buffer.length := by
    rw [hp.valid.block]
    exact hp.room
  obtain ⟨front, back, hb, hfront⟩ := Block.exists_cut hlen
  obtain ⟨h, rfl⟩ := PduHeader.exists_encode hfront
  exact ⟨h, back, hb⟩

theorem valid_of_encode {h h' : PduHeader} {back : List UInt8} (hv : p.buf.Valid)
    (hb : p.buf.buffer = h.encode ++ back) :
    CSimpleBuffer.Valid { p.buf with buffer := h'.encode ++ back } := by
  refine ⟨?_, hv.offset, hv.size⟩
  rw [← hv.block, hb]
  simp only [List.length_append, PduHeader.length_encode]

/-- A setter that patches one header field, in the object and in the block. -/
theorem Holds.patch {msg : Option (List UInt8)} {f : PduHeader → PduHeader} {q : CImPdu}
    (hp : p.Holds msg)
    (hsize : ∀ h n, f { h with bodySize := n } = { f h with bodySize := n })
    (hbuffer : ∀ h back, p.buf.buffer = PduHeader.encode h ++ back →
      q.buf = { p.buf with buffer := (f h).encode ++ back })
    (hheader : q.header = f p.header) : q.Holds msg := by
  obtain ⟨h, back, hb⟩ := hp.exists_header
  have hbuf := hbuffer h back hb
  refine ⟨?_, ?_, ?_, ?_⟩
  · rw [hbuf]
    exact valid_of_encode hp.valid hb
  · rw [hbuf]
    exact hp.room
  · intro body hbody
    rw [hbuf]
    exact hp.offset body hbody
  · intro body hbody
    obtain ⟨back, hb⟩ := hp.layout body hbody
    refine ⟨back, ?_⟩
    rw [hbuffer _ _ hb, hheader, hsize]

theorem Holds.setCommandId {msg : Option (List UInt8)} (hp : p.Holds msg) (c : UInt16) :
    ∃ q, p.setCommandId c = .ok q ∧ q.Holds msg ∧ q.header = { p.header with cmdId := c } := by
  have hpoke {h : PduHeader} {back : List UInt8} (hb : p.buf.buffer = h.encode ++ back) :
      p.setCommandId c = .ok { p with
        buf := { p.buf with buffer := { h with cmdId := c }.encode ++ back }
        header := { p.header with cmdId := c } } := by
    simp only [CImPdu.setCommandId, poke_cmdId hb, Exec.ok_bind, Exec.pure_eq]
  obtain ⟨h, back, hb⟩ := hp.exists_header
  refine ⟨_, hpoke hb, hp.patch (f := fun h => { h with cmdId := c }) (fun _ _ => rfl) ?_ rfl, rfl⟩
  intro h' back' hb'
  have hsame := (hpoke hb).symm.trans (hpoke hb')
  exact congrArg CImPdu.buf (Except.ok.inj hsame)

theorem Holds.setSessionId {msg : Option (List UInt8)} (hp : p.Holds msg) (s : UidCode) :
    ∃ q, p.setSessionId s = .ok q ∧ q.Holds msg ∧
      q.header = { p.header with sessionId := s } := by
  have hpoke {h : PduHeader} {back : List UInt8} (hb : p.buf.buffer = h.encode ++ back) :
      p.setSessionId s = .ok { p with
        buf := { p.buf with buffer := { h with sessionId := s }.encode ++ back }
        header := { p.header with sessionId := s } } := by
    simp only [CImPdu.setSessionId, poke_sessionId hb, Exec.ok_bind, Exec.pure_eq]
  obtain ⟨h, back, hb⟩ := hp.exists_header
  refine ⟨_, hpoke hb, hp.patch (f := fun h => { h with sessionId := s }) (fun _ _ => rfl) ?_ rfl,
    rfl⟩
  intro h' back' hb'
  have hsame := (hpoke hb).symm.trans (hpoke hb')
  exact congrArg CImPdu.buf (Except.ok.inj hsame)

theorem getBodyLength_eq (h₁ : imPduHeaderLen ≤ p.buf.writeOffset)
    (h₂ : p.buf.writeOffset < imPduHeaderLen + 2 ^ 16) :
    p.getBodyLength = p.buf.writeOffset - imPduHeaderLen := by
  have hheader : imPduHeaderLen = 20 := rfl
  simp only [getBodyLength, u16, u32]
  omega

/-- `SetPBMsg` lays out header and body, whatever the PDU held before and however long the body. -/
theorem setPBMsg_lays_out (hv : p.buf.Valid) {body : List UInt8} (hbody : body.length < 2 ^ 31) :
    ∃ q, p.setPBMsg body = .ok q ∧ q.Holds (some body) ∧ q.header = p.header := by
  have hheader : imPduHeaderLen = 20 := rfl
  obtain ⟨b₁, h₁, hv₁, -, -, hoff₁⟩ := hv.read p.buf.writeOffset
  rw [Nat.sub_self] at hoff₁
  have hroom₁ : b₁.HasRoom imPduHeaderLen := by
    refine .inr ?_
    simp only [CSimpleBuffer.grown]
    omega
  obtain ⟨hv₂, hoff₂⟩ := hv₁.reserve hroom₁
  have hroom₂ : (b₁.reserve imPduHeaderLen).HasRoom body.length := by
    refine .inr ?_
    simp only [CSimpleBuffer.grown]
    omega
  obtain ⟨b₃, h₃, hv₃, hc₃, -, hoff₃⟩ := hv₂.write (by omega) hroom₂
  have hreserved : (b₁.reserve imPduHeaderLen).content.length = 20 := by
    rw [hv₂.length_content]
    omega
  have hb₃ : b₃.buffer = (b₁.reserve imPduHeaderLen).content ++
      (body ++ b₃.buffer.drop b₃.writeOffset) := by
    rw [← List.append_assoc, ← hc₃]
    exact (List.take_append_drop _ _).symm
  have hlength : UInt16.ofNat (CImPdu.getBodyLength { p with buf := b₃ }) =
      UInt16.ofNat body.length := by
    have hsize : CImPdu.getBodyLength { p with buf := b₃ } = body.length % 2 ^ 16 := by
      simp only [getBodyLength, u16, u32]
      omega
    rw [hsize]
    exact UInt16.toNat_inj.mp (by simp)
  have hset : p.setPBMsg body = .ok { p with buf := { b₃ with
      buffer := { p.header with bodySize := UInt16.ofNat body.length }.encode ++
        (body ++ b₃.buffer.drop b₃.writeOffset) } } := by
    simp only [setPBMsg, h₁, h₃, Exec.ok_bind]
    rw [writeHeader_eq (p := { p with buf := b₃ }) hreserved hb₃, hlength]
  have halloc := hv₃.offset
  refine ⟨_, hset, ⟨⟨?_, hv₃.offset, hv₃.size⟩, ?_, ?_, ?_⟩, rfl⟩
  · rw [← hv₃.block, hb₃]
    simp only [List.length_append, PduHeader.length_encode, hreserved, List.length_drop]
    omega
  · show imPduHeaderLen ≤ b₃.allocSize
    omega
  · rintro body' ⟨⟩
    show b₃.writeOffset = imPduHeaderLen + body.length
    omega
  · rintro body' ⟨⟩
    exact ⟨_, rfl⟩

theorem setPBMsg_holds (hv : p.buf.Valid) {body : List UInt8} (hbody : body.length ≤ maxBody) :
    ∃ q, p.setPBMsg body = .ok q ∧ q.Holds (some body) ∧ q.header = p.header := by
  refine setPBMsg_lays_out hv ?_
  have hmax : maxBody = 65515 := rfl
  omega

/-- `SetPBWithoutMsg` does what `SetPBMsg` does on an empty message with the other two setters behind
it. -/
theorem setPBWithoutMsg_eq (hv : p.buf.Valid) (commandId : UInt16) (sessionId : UidCode) :
    p.setPBWithoutMsg commandId sessionId =
      p.applyAll [.pbMsg [], .commandId commandId, .sessionId sessionId] := by
  obtain ⟨b, hread, hvb, -, -, hoff⟩ := hv.read p.buf.writeOffset
  rw [Nat.sub_self] at hoff
  have hroom : b.HasRoom imPduHeaderLen := by
    refine .inr ?_
    rw [hoff]
    decide
  have hmsg : p.setPBMsg [] = writeHeader { p with buf := b.reserve imPduHeaderLen } := by
    simp only [setPBMsg, hread, Exec.ok_bind, (hvb.reserve hroom).1.write_nil]
  simp only [applyAll, List.foldlM_cons, List.foldlM_nil, Setter.apply, hmsg, setPBWithoutMsg, hread,
    Exec.ok_bind, bind_pure]

theorem Holds.apply {msg : Option (List UInt8)} (hp : p.Holds msg) {op : Setter}
    (hfit : ∀ body, op = .pbMsg body → body.length ≤ maxBody) :
    ∃ q, Setter.apply p op = .ok q ∧ q.Holds (Setter.effect (p.header, msg) op).2 ∧
      q.header = (Setter.effect (p.header, msg) op).1 := by
  cases op with
  | commandId c => exact hp.setCommandId c
  | sessionId s => exact hp.setSessionId s
  | pbMsg body => exact setPBMsg_holds hp.valid (hfit body rfl)

/-- Any sequence of setters on a PDU with room for its header. -/
theorem Holds.applyAll {ops : List Setter} {msg : Option (List UInt8)} (hp : p.Holds msg)
    (hfit : ∀ body, .pbMsg body ∈ ops → body.length ≤ maxBody) :
    ∃ q, p.applyAll ops = .ok q ∧ q.Holds (ops.foldl Setter.effect (p.header, msg)).2 ∧
      q.header = (ops.foldl Setter.effect (p.header, msg)).1 := by
  induction ops generalizing p msg with
  | nil => exact ⟨p, rfl, hp, rfl⟩
  | cons op ops ih =>
    have hop : ∀ body, op = .pbMsg body → body.length ≤ maxBody := by
      rintro body rfl
      exact hfit body List.mem_cons_self
    obtain ⟨q, hq, hq', hheader⟩ := hp.apply hop
    obtain ⟨r, hr, hr', hrheader⟩ := ih hq' (fun body hop => hfit body (List.mem_cons_of_mem _ hop))
    rw [hheader] at hr' hrheader
    refine ⟨r, ?_, hr', hrheader⟩
    simp only [CImPdu.applyAll, List.foldlM_cons, hq, Exec.ok_bind]
    exact hr

/-- The three setters touch different parts, so their order does not matter. -/
theorem foldl_effect_of_perm {ops : List Setter} {c : UInt16} {s : UidCode} {body : List UInt8}
    (hops : ops.Perm [.commandId c, .sessionId s, .pbMsg body])
    (start : PduHeader × Option (List UInt8)) :
    ops.foldl Setter.effect start =
      ({ start.1 with cmdId := c, sessionId := s }, some body) := by
  have hcomm : ∀ x ∈ ops, ∀ y ∈ ops, ∀ z,
      Setter.effect (Setter.effect z x) y = Setter.effect (Setter.effect z y) x := by
    intro x hx y hy z
    have hx := hops.mem_iff.mp hx
    have hy := hops.mem_iff.mp hy
    simp only [List.mem_cons, List.not_mem_nil, or_false] at hx hy
    rcases hx with rfl | rfl | rfl <;> rcases hy with rfl | rfl | rfl <;> rfl
  rw [hops.foldl_eq' hcomm]
  rfl

theorem encode_injective {h h' : PduHeader} (heq : h.encode = h'.encode) : h = h' := by
  have hread := readPduHeader_encode {} h []
  rw [heq, readPduHeader_encode {} h' []] at hread
  have hpair := Prod.mk.inj (Except.ok.inj hread)
  exact (congrArg CImPdu.header hpair.2).symm

theorem body_eq (h₁ : imPduHeaderLen ≤ p.buf.writeOffset)
    (h₂ : p.buf.writeOffset < imPduHeaderLen + 2 ^ 16) :
    p.body = p.buf.content.drop imPduHeaderLen := by
  rw [body, getBodyLength_eq h₁ h₂, CSimpleBuffer.content, List.drop_take]

theorem Holds.readsBack {msg : List UInt8} (hp : p.Holds (some msg))
    (hmsg : msg.length ≤ maxBody) :
    ∃ bytes, p.sent = .ok bytes ∧
      ReadsBack bytes p.header.cmdId p.header.sessionId msg := by
  have hheader : imPduHeaderLen = 20 := rfl
  have hmax : maxBody = 65515 := rfl
  obtain ⟨back, hb⟩ := hp.layout msg rfl
  have hoff := hp.offset msg rfl
  obtain ⟨h, hh⟩ : ∃ h, h = { p.header with bodySize := UInt16.ofNat msg.length } := ⟨_, rfl⟩
  have hlen : (h.encode ++ msg).length = imPduHeaderLen + msg.length := by
    simp only [List.length_append, PduHeader.length_encode]
  have hfield : h.bodySize.toNat = msg.length := by
    rw [hh]
    exact UInt16.toNat_ofNat_of_lt (by show msg.length < 65536; omega)
  refine ⟨h.encode ++ msg, ?_, ?_⟩
  · have hget : p.getLength = (h.encode ++ msg).length := by
      rw [getLength, hoff, hlen]
      exact u16_of_lt (by omega)
    have hslice : Block.slice? p.buf.buffer 0 p.getLength = some (h.encode ++ msg) := by
      rw [hb, ← hh, ← List.append_assoc]
      exact Block.slice?_head hget.symm
    rw [sent, hslice, orFault_some]
  · intro rest hrest
    have hsize : pduSize? (h.encode ++ msg ++ rest) = some (h.encode ++ msg).length := by
      refine framing.stable rest (pduSize?_eq_some.mpr ⟨by omega, ?_, Nat.le_refl _⟩)
      rw [lengthField_encode, hfield, hlen, Nat.add_comm]
    rw [← List.take_length (l := h.encode ++ msg ++ rest)] at hsize
    refine ⟨by rw [isPduAvailable_eq (Nat.le_refl _), hsize], ?_⟩
    obtain ⟨q, hq, hv, hc, hqoff, hqheader⟩ := readPdu_of_some (Nat.le_refl _) hsize
    rw [List.take_left] at hc
    have hfront : (h.encode ++ msg ++ rest).take imPduHeaderLen = h.encode := by
      rw [List.append_assoc]
      exact List.take_left' (PduHeader.length_encode h)
    have hqh : q.header = h := encode_injective (hqheader.trans hfront)
    refine ⟨q, hq, ?_, ?_, ?_, hc, ?_⟩
    · rw [hqh, hh]
    · rw [hqh, hh]
    · rw [body_eq (by omega) (by omega), hc]
      exact List.drop_left' (PduHeader.length_encode h)
    · rw [getLength, hqoff]
      exact u16_of_lt (by omega)

/-- The body that is read back is what stands behind the header. -/
theorem ReadsBack.body_eq {bytes body : List UInt8} {c : UInt16} {s : UidCode}
    (h : ReadsBack bytes c s body) (hshort : bytes.length < 2 ^ 16) :
    body = bytes.drop imPduHeaderLen := by
  have hheader : imPduHeaderLen = 20 := rfl
  obtain ⟨havail, r, hr, -, -, hbody, hc, -⟩ := h [] (by simp only [List.append_nil]; omega)
  rw [List.append_nil] at havail hr
  rw [isPduAvailable_eq (Nat.le_refl _)] at havail
  obtain ⟨r', hr', -, -, hoff, -⟩ := readPdu_of_some (Nat.le_refl _) (Except.ok.inj havail)
  rw [hr] at hr'
  cases hr'
  obtain ⟨hge, -, -⟩ := pduSize?_eq_some.mp (Except.ok.inj havail)
  rw [List.take_length] at hge
  rw [← hbody, CImPdu.body_eq (by omega) (by omega), hc]

theorem Holds.sent_eq {msg : List UInt8} (hp : p.Holds (some msg)) :
    ∃ h : PduHeader, p.sent = .ok ((h.encode ++ msg).take p.getLength) ∧ p.getLength < 2 ^ 16 := by
  obtain ⟨back, hb⟩ := hp.layout msg rfl
  refine ⟨{ p.header with bodySize := UInt16.ofNat msg.length }, ?_, Nat.mod_lt _ (by decide)⟩
  have hoff := hp.offset msg rfl
  have hle : p.getLength ≤ imPduHeaderLen + msg.length := by
    rw [getLength, hoff]
    exact Nat.mod_le _ _
  have hheader : imPduHeaderLen = 20 := rfl
  rw [sent, Block.slice?_of_le, orFault_some, List.drop_zero, hb, ← List.append_assoc,
    List.take_append_of_le_length]
  · rw [List.length_append, PduHeader.length_encode]
    exact hle
  · rw [hb]
    simp only [List.length_append, PduHeader.length_encode]
    omega

theorem RoundTrip.length_le {ops : List Setter} {c : UInt16} {s : UidCode} {msg : List UInt8}
    (h : RoundTrip p ops c s msg) : msg.length ≤ maxBody := by
  obtain ⟨q, bytes, -, hsent, hread⟩ := h
  have hheader : imPduHeaderLen = 20 := rfl
  have hmax : maxBody = 65515 := rfl
  have hshort : bytes.length < 2 ^ 16 := by
    have hget : q.getLength < 2 ^ 16 := Nat.mod_lt _ (by decide)
    unfold sent at hsent
    by_cases hle : 0 + q.getLength ≤ q.buf.buffer.length
    · rw [Block.slice?_of_le hle, orFault_some] at hsent
      rw [← Except.ok.inj hsent, List.length_take]
      omega
    · rw [Block.slice?_of_lt (by omega)] at hsent
      cases hsent
  rw [hread.body_eq hshort, List.length_drop]
  omega

theorem applyAll_null {ops : List Setter} {q : CImPdu} {c : UInt16} {s : UidCode}
    {msg : List UInt8} (hops : ops.Perm [.commandId c, .sessionId s, .pbMsg msg])
    (hnull : p.buf.buffer = []) (hrun : p.applyAll ops = .ok q) :
    ops.head? = some (.pbMsg msg) := by
  cases ops with
  | nil => cases hops.length_eq
  | cons op ops =>
    have hop := hops.mem_iff.mp List.mem_cons_self
    simp only [List.mem_cons, List.not_mem_nil, or_false] at hop
    rcases hop with rfl | rfl | rfl
    · have hpoke : p.buf.poke 16 (writeUint16 (htons c)) = .error .fault :=
        poke_null hnull (List.cons_ne_nil _ _)
      simp only [applyAll, List.foldlM_cons, Setter.apply, setCommandId, hpoke,
        Exec.error_bind] at hrun
      cases hrun
    · have hsession : s.toList ≠ [] := by
        intro hnil
        have hlen := congrArg List.length hnil
        rw [Vector.length_toList] at hlen
        cases hlen
      simp only [applyAll, List.foldlM_cons, Setter.apply, setSessionId,
        poke_null hnull hsession, Exec.error_bind] at hrun
      cases hrun
    · rfl

/-- The setters in any order, sending and reading back lose nothing exactly when
the total fits 16 bits and no setter runs before the header has been laid out. -/
theorem roundTrip_iff {ops : List Setter} {c : UInt16} {s : UidCode} {msg : List UInt8}
    (hp : p.Settable) (hops : ops.Perm [.commandId c, .sessionId s, .pbMsg msg]) :
    RoundTrip p ops c s msg ↔
      msg.length ≤ maxBody ∧ (p.buf.allocSize = 0 → ops.head? = some (.pbMsg msg)) := by
  obtain ⟨hv, halloc⟩ := hp
  constructor
  · intro h
    refine ⟨h.length_le, fun hnull => ?_⟩
    obtain ⟨q, -, hrun, -⟩ := h
    exact applyAll_null hops (List.length_eq_zero_iff.mp (hv.block.trans hnull)) hrun
  · rintro ⟨hmsg, hfirst⟩
    have hfit : ∀ body, .pbMsg body ∈ ops → body.length ≤ maxBody := by
      intro body hbody
      have hmem := hops.mem_iff.mp hbody
      simp only [List.mem_cons, reduceCtorEq, List.not_mem_nil, or_false, false_or,
        Setter.pbMsg.injEq] at hmem
      rw [hmem]
      exact hmsg
    have hfinal (msg₀ : Option (List UInt8)) := foldl_effect_of_perm hops (p.header, msg₀)
    obtain ⟨q, hrun, hq, hheader⟩ : ∃ q, p.applyAll ops = .ok q ∧ q.Holds (some msg) ∧
        q.header = { p.header with cmdId := c, sessionId := s } := by
      rcases halloc with hnull | hroom
      · -- The block is null: the first call lays it out and the rest patch it.
        obtain ⟨ops, rfl⟩ := List.head?_eq_some_iff.mp (hfirst hnull)
        obtain ⟨p₁, h₁, hp₁, hheader₁⟩ := setPBMsg_holds hv hmsg
        obtain ⟨q, hq, hq', hqheader⟩ := hp₁.applyAll
          (fun body hbody => hfit body (List.mem_cons_of_mem _ hbody))
        have hrest : ops.foldl Setter.effect (p₁.header, some msg) =
            ({ p.header with cmdId := c, sessionId := s }, some msg) := by
          rw [hheader₁]
          exact hfinal none
        rw [hrest] at hq' hqheader
        refine ⟨q, ?_, hq', hqheader⟩
        simp only [CImPdu.applyAll, List.foldlM_cons, Setter.apply, h₁, Exec.ok_bind]
        exact hq
      · have hp : p.Holds none := ⟨hv, hroom, nofun, nofun⟩
        obtain ⟨q, hq, hq', hqheader⟩ := hp.applyAll hfit
        rw [hfinal none] at hq' hqheader
        exact ⟨q, hq, hq', hqheader⟩
    obtain ⟨bytes, hsent, hread⟩ := hq.readsBack hmsg
    rw [hheader] at hread
    exact ⟨q, bytes, hrun, hsent, hread⟩

/-- A three-byte message set up the way the servers do it. -/
theorem roundTrip_three_bytes :
    RoundTrip {} [.pbMsg [1, 2, 3], .commandId 0x0301, .sessionId (Vector.replicate 12 7)] 0x0301
      (Vector.replicate 12 7) [1, 2, 3] := by
  refine (roundTrip_iff settable_fresh ?_).mpr ⟨by decide, fun _ => rfl⟩
  exact (List.Perm.swap _ _ _).trans ((List.Perm.swap _ _ _).cons _)

/-- With 65516 bytes of body the total is 65536, of which `GetLength` keeps 0. -/
theorem roundTrip_fails_65516 :
    ¬ RoundTrip {} [.pbMsg (List.replicate 65516 0), .commandId 1,
      .sessionId (Vector.replicate 12 0)] 1 (Vector.replicate 12 0) (List.replicate 65516 0) := by
  intro h
  have hle := h.length_le
  rw [List.length_replicate] at hle
  exact absurd hle (by decide)

end CImPdu

end ImServer
