import ImServer.Base.PduSetters
import ImServer.Base.Receive

/-!
# PDU streams

The two facts a peer can rely on, or not: which PDUs a stream is turned into, and
that the parsing loop ends. Both hold up to one conversion. `GetLength` keeps 16
bits of a length that reaches `20 + 65535`, so a length field of 65516 removes
nothing and larger ones remove the first few bytes of the PDU only.
-/

namespace ImServer

/-- A well-formed PDU of a stream: any header whose length field is the length of
the body behind it. -/
structure WirePdu where
  header : PduHeader
  body : List UInt8
  size : header.bodySize.toNat = body.length

def WirePdu.bytes (p : WirePdu) : List UInt8 := p.header.encode ++ p.body

/-- The handler got the PDU `p`, and its bytes were removed. -/
def Delivery.Of (d : Delivery) (handle : Int) (p : WirePdu) : Prop :=
  d.pdu.header = p.header ∧ d.pdu.body = p.body ∧ d.pdu.sockHandle = some handle ∧
    d.removed = p.bytes

@[simp] theorem WirePdu.length_bytes (p : WirePdu) :
    p.bytes.length = imPduHeaderLen + p.body.length := by
  simp only [WirePdu.bytes, List.length_append, PduHeader.length_encode]

theorem WirePdu.pduSize?_bytes (p : WirePdu) : CImPdu.pduSize? p.bytes = some p.bytes.length := by
  refine CImPdu.pduSize?_eq_some.mpr ⟨?_, ?_, Nat.le_refl _⟩
  · rw [p.length_bytes]
    exact Nat.le_add_right _ _
  · rw [p.length_bytes, WirePdu.bytes, CImPdu.lengthField_encode, p.size, Nat.add_comm]

theorem length_bytes_lt {ps : List WirePdu} (hsmall : ∀ p ∈ ps, p.body.length ≤ CImPdu.maxBody) :
    ∀ frame ∈ ps.map WirePdu.bytes, frame.length < 2 ^ 16 := by
  intro frame hframe
  obtain ⟨p, hp, rfl⟩ := List.mem_map.mp hframe
  have hmax : CImPdu.maxBody = 65515 := rfl
  have hheader : imPduHeaderLen = 20 := rfl
  have hle := hsmall p hp
  rw [p.length_bytes]
  omega

theorem split_stream {ps : List WirePdu} {tail : List UInt8}
    (htail : CImPdu.pduSize? tail = none) :
    Framing.split CImPdu.framing (ps.flatMap WirePdu.bytes ++ tail) =
      (ps.map WirePdu.bytes, tail) := by
  rw [List.flatMap_def]
  refine Framing.split_flatten_append CImPdu.framing ?_ htail
  intro frame hframe
  obtain ⟨p, -, rfl⟩ := List.mem_map.mp hframe
  exact p.pduSize?_bytes

/-- A delivery of the bytes of a PDU with a 16-bit length shows its header and body. -/
theorem Delivery.Carries.of {d : Delivery} {handle : Int} {p : WirePdu}
    (h : d.Carries handle p.bytes) : d.Of handle p := by
  have hheader : imPduHeaderLen = 20 := rfl
  have hsize := p.header.bodySize.toNat_lt
  rw [p.size] at hsize
  have hoff : d.pdu.buf.writeOffset = imPduHeaderLen + p.body.length := by
    rw [← h.valid.length_content, h.content, p.length_bytes]
  refine ⟨CImPdu.encode_injective ?_, ?_, h.sockHandle, h.removed⟩
  · rw [h.header]
    exact List.take_left' p.header.length_encode
  · rw [CImPdu.body_eq (by omega) (by omega), h.content]
    exact List.drop_left' p.header.length_encode

namespace CImConn

/-- The read events hand on exactly the PDUs `ps`, in order, and leave `tail`. -/
def DeliversExactly (handle : Int) (calls : List (List Chunk)) (ps : List WirePdu)
    (tail : List UInt8) : Prop :=
  ∃ fuel ds conn', onReads fuel { handle } calls = .ok (ds, conn') ∧
    List.Forall₂ (fun d p => Delivery.Of d handle p) ds ps ∧ conn'.inBuf.content = tail

theorem split_reads {calls : List (List Chunk)} {ps : List WirePdu} {tail : List UInt8}
    (htail : CImPdu.pduSize? tail = none)
    (hstream : callBytes calls = ps.flatMap WirePdu.bytes ++ tail) :
    Framing.split CImPdu.framing (CSimpleBuffer.content {} ++ callBytes calls) =
      (ps.map WirePdu.bytes, tail) := by
  rw [CSimpleBuffer.content_empty, List.nil_append, hstream, split_stream htail]

/-- Read events over a stream of PDUs of 16-bit length with room in the buffer. -/
theorem deliversExactly_of_fits {handle : Int} {calls : List (List Chunk)} {ps : List WirePdu}
    {tail : List UInt8} (htail : CImPdu.pduSize? tail = none)
    (hstream : callBytes calls = ps.flatMap WirePdu.bytes ++ tail)
    (hsmall : ∀ p ∈ ps, p.body.length ≤ CImPdu.maxBody) (hfit : ReadsFit 0 [] calls) :
    DeliversExactly handle calls ps tail := by
  have hvalid : CSimpleBuffer.Valid (CImConn.inBuf { handle }) := CSimpleBuffer.valid_empty
  obtain ⟨ds, conn', hrun, -, hcontent, hds⟩ := onReads_ok hvalid (split_reads htail hstream)
    (length_bytes_lt hsmall) hfit (Nat.lt_succ_self _) rfl
  refine ⟨_, ds, conn', hrun, ?_, hcontent⟩
  rw [List.forall₂_map_right_iff] at hds
  exact hds.imp fun _ _ hd => hd.of

theorem DeliversExactly.body_le {handle : Int} {calls : List (List Chunk)} {ps : List WirePdu}
    {tail : List UInt8} (h : DeliversExactly handle calls ps tail) :
    ∀ p ∈ ps, p.body.length ≤ CImPdu.maxBody := by
  obtain ⟨fuel, ds, conn', hrun, hds, -⟩ := h
  have hremoved := onReads_removed hrun
  clear hrun
  induction hds with
  | nil => exact nofun
  | @cons d p ds ps hd _ ih =>
    intro q hq
    rcases List.mem_cons.mp hq with rfl | hq
    · have hlen := hremoved d List.mem_cons_self
      have hmax : CImPdu.maxBody = 65515 := rfl
      have hheader : imPduHeaderLen = 20 := rfl
      rw [hd.2.2.2, WirePdu.length_bytes] at hlen
      omega
    · exact ih (fun d hd => hremoved d (List.mem_cons_of_mem _ hd)) q hq

/-- Two runs handed on the same PDUs and left the same bytes. -/
def SameDeliveries (handle : Int) (calls calls' : List (List Chunk)) : Prop :=
  ∃ fuel fuel' ds ds' conn conn', onReads fuel { handle } calls = .ok (ds, conn) ∧
    onReads fuel' { handle } calls' = .ok (ds', conn') ∧
    List.Forall₂ (fun d d' => d.pdu.header = d'.pdu.header ∧ d.pdu.body = d'.pdu.body ∧
      d.pdu.sockHandle = d'.pdu.sockHandle ∧ d.removed = d'.removed) ds ds' ∧
    conn.inBuf.content = conn'.inBuf.content

theorem DeliversExactly.same {handle : Int} {calls calls' : List (List Chunk)}
    {ps : List WirePdu} {tail : List UInt8} (h : DeliversExactly handle calls ps tail)
    (h' : DeliversExactly handle calls' ps tail) : SameDeliveries handle calls calls' := by
  obtain ⟨fuel, ds, conn, hrun, hds, hc⟩ := h
  obtain ⟨fuel', ds', conn', hrun', hds', hc'⟩ := h'
  refine ⟨fuel, fuel', ds, ds', conn, conn', hrun, hrun', ?_, hc.trans hc'.symm⟩
  clear hrun hrun'
  induction hds generalizing ds' with
  | nil =>
    cases hds'
    exact .nil
  | cons hd _ ih =>
    cases hds' with
    | cons hd' hds' =>
      obtain ⟨h₁, h₂, h₃, h₄⟩ := hd
      obtain ⟨h₁', h₂', h₃', h₄'⟩ := hd'
      exact .cons ⟨h₁.trans h₁'.symm, h₂.trans h₂'.symm, h₃.trans h₃'.symm, h₄.trans h₄'.symm⟩
        (ih _ hds')

/-- Whatever the chunks, a stream is delivered exactly when every PDU of it has a
16-bit length and the buffer never has to grow beyond 32 bits; then any two ways
of cutting the stream deliver the same PDUs. -/
theorem onReads_framing {handle : Int} {calls : List (List Chunk)} {ps : List WirePdu}
    {tail : List UInt8} (htail : CImPdu.pduSize? tail = none)
    (hstream : callBytes calls = ps.flatMap WirePdu.bytes ++ tail) :
    (DeliversExactly handle calls ps tail ↔
      (∀ p ∈ ps, p.body.length ≤ CImPdu.maxBody) ∧ ReadsFit 0 [] calls) ∧
    ∀ calls', callBytes calls' = callBytes calls →
      (∀ p ∈ ps, p.body.length ≤ CImPdu.maxBody) → ReadsFit 0 [] calls → ReadsFit 0 [] calls' →
      SameDeliveries handle calls calls' := by
  refine ⟨⟨?_, ?_⟩, ?_⟩
  · intro h
    have hsmall := h.body_le
    refine ⟨hsmall, ?_⟩
    obtain ⟨fuel, ds, conn', hrun, -⟩ := h
    have hvalid : CSimpleBuffer.Valid (CImConn.inBuf { handle }) := CSimpleBuffer.valid_empty
    exact onReads_fits hvalid (split_reads htail hstream) (length_bytes_lt hsmall) hrun
  · rintro ⟨hsmall, hfit⟩
    exact deliversExactly_of_fits htail hstream hsmall hfit
  · intro calls' hsame hsmall hfit hfit'
    exact (deliversExactly_of_fits htail hstream hsmall hfit).same
      (deliversExactly_of_fits htail (hsame.trans hstream) hsmall hfit')

/-- A PDU with one byte of body that arrives in two read events. -/
theorem onReads_framing_two_chunks :
    DeliversExactly 5
      [[⟨[0x55, 0x53, 1, 0, 0, 0, 0, 0, 0, 0], by decide, by decide⟩],
        [⟨[0, 0, 0, 0, 0, 0, 0, 0, 1, 0, 9], by decide, by decide⟩]]
      [⟨{ PduHeader.initial with bodySize := 1 }, [9], by decide⟩] [] := by
  refine ((onReads_framing (by decide) (by decide)).1).mpr ⟨by decide, ?_⟩
  exact readsFit_of_small (by decide) (by decide)

/-- A PDU whose length field is 65516, all zero behind the header. -/
def longPdu : WirePdu where
  header := { PduHeader.initial with bodySize := 65516 }
  body := List.replicate 65516 0
  size := by
    rw [List.length_replicate]
    rfl

/-- Its bytes in one read event: the header, 31 full chunks and the last 2028 bytes. -/
def longPduChunks : List Chunk :=
  ⟨longPdu.header.encode, by rw [PduHeader.length_encode]; decide,
    by rw [PduHeader.length_encode]; decide⟩ ::
  (List.replicate 31 ⟨List.replicate 2048 0, by rw [List.length_replicate]; decide,
    Nat.le_of_eq List.length_replicate⟩ ++
    [⟨List.replicate 2028 0, by rw [List.length_replicate]; decide,
      by rw [List.length_replicate]; decide⟩])

theorem chunkBytes_longPduChunks : chunkBytes longPduChunks = longPdu.bytes := by
  simp only [chunkBytes, longPduChunks, List.flatMap_cons, List.flatMap_append, List.flatMap_nil,
    List.append_nil, List.flatMap_replicate, List.flatten_replicate_replicate,
    List.replicate_append_replicate]
  rfl

/-- It is never delivered and removed as the one PDU it is. -/
theorem onReads_framing_fails_65516 :
    callBytes [longPduChunks] = [longPdu].flatMap WirePdu.bytes ++ [] ∧
      ¬ DeliversExactly 5 [longPduChunks] [longPdu] [] := by
  constructor
  · simp only [callBytes, List.flatMap_cons, List.flatMap_nil, chunkBytes_longPduChunks,
      List.append_nil]
  · intro h
    have hle := h.body_le longPdu List.mem_cons_self
    rw [longPdu, List.length_replicate] at hle
    exact absurd hle (by decide)

/-- The content makes the loop arrive at a PDU whose length field is 65516, so
whose total is `2 ^ 16`. Behind a PDU of total `n` the loop continues at
`n % 2 ^ 16`. -/
inductive Stuck : List UInt8 → Prop where
  | here {c : List UInt8} : CImPdu.pduSize? c = some (2 ^ 16) → Stuck c
  | later {c : List UInt8} {n : Nat} :
      CImPdu.pduSize? c = some n → Stuck (c.drop (u16 n)) → Stuck c

/-- The buffers in front of the iterations of the parsing loop. -/
inductive LoopReaches (handle : Int) : CSimpleBuffer → CSimpleBuffer → Prop where
  | refl {b : CSimpleBuffer} : LoopReaches handle b b
  | step {b b₁ b' : CSimpleBuffer} {d : Delivery} :
      parseStep handle b = .ok (some (d, b₁)) → LoopReaches handle b₁ b' →
      LoopReaches handle b b'

/-- The loop ends, and every PDU it handles shortens the buffer, so that each turn brings it nearer
to its end. -/
def ParsesToEnd (handle : Int) (b : CSimpleBuffer) : Prop :=
  (∃ fuel r, parseLoop handle fuel b = .ok r) ∧
    ∀ b' d b'', LoopReaches handle b b' → parseStep handle b' = .ok (some (d, b'')) →
      b''.writeOffset < b'.writeOffset

variable {b : CSimpleBuffer}

/-- A total of `2 ^ 16` leaves the content as it was, and the loop with it. -/
theorem parseLoop_of_total {handle : Int} (h : b.Valid)
    (hsize : CImPdu.pduSize? b.content = some (2 ^ 16)) (fuel : Nat) :
    parseLoop handle fuel b = .error .running := by
  induction fuel generalizing b with
  | zero => rfl
  | succ fuel ih =>
    obtain ⟨d, b', hstep, hv, hc, -⟩ := parseStep_of_some handle h hsize
    have hsame : b'.content = b.content := hc
    simp only [parseLoop, hstep, ih hv (hsame ▸ hsize), Exec.error_bind]

theorem parseLoop_of_stuck {handle : Int} {c : List UInt8} (hstuck : Stuck c) (h : b.Valid)
    (hc : b.content = c) (fuel : Nat) : parseLoop handle fuel b = .error .running := by
  induction hstuck generalizing b fuel with
  | here hsize => exact parseLoop_of_total h (hc ▸ hsize) fuel
  | later hsize _ ih =>
    cases fuel with
    | zero => rfl
    | succ fuel =>
      obtain ⟨d, b', hstep, hv, hc', -⟩ := parseStep_of_some handle h (hc ▸ hsize)
      rw [hc] at hc'
      simp only [parseLoop, hstep, ih hv hc' fuel, Exec.error_bind]

/-- A PDU whose total is not `2 ^ 16` shortens the buffer. -/
theorem parseStep_shortens {handle : Int} {n : Nat} {d : Delivery} {b' : CSimpleBuffer}
    (h : b.Valid) (hsize : CImPdu.pduSize? b.content = some n) (hn : n ≠ 2 ^ 16)
    (hstep : parseStep handle b = .ok (some (d, b'))) :
    b'.Valid ∧ b'.content = b.content.drop (u16 n) ∧ b'.writeOffset < b.writeOffset := by
  obtain ⟨d₁, b₁, hstep₁, hv, hc, -⟩ := parseStep_of_some handle h hsize
  rw [hstep] at hstep₁
  cases hstep₁
  refine ⟨hv, hc, ?_⟩
  obtain ⟨hheader, htotal, hle⟩ := CImPdu.pduSize?_eq_some.mp hsize
  have hfield := CImPdu.lengthField_lt b.content
  have htwenty : imPduHeaderLen = 20 := rfl
  rw [h.length_content] at hheader hle
  rw [← hv.length_content, hc, List.length_drop, h.length_content]
  simp only [u16]
  omega

theorem parsesToEnd_of_not_stuck {handle : Int} {c : List UInt8} (hstuck : ¬ Stuck c)
    (h : b.Valid) (hc : b.content = c) : ParsesToEnd handle b := by
  induction hlen : b.writeOffset using Nat.strongRecOn generalizing b c with
  | ind k ih =>
    cases hsize : CImPdu.pduSize? c with
    | none =>
      have hstep := parseStep_of_none handle h (hc ▸ hsize)
      refine ⟨⟨1, ⟨[], b, false⟩, by simp only [parseLoop, hstep]⟩, ?_⟩
      intro b' d b'' hreach hd
      cases hreach with
      | refl =>
        rw [hstep] at hd
        cases hd
      | step hfirst _ =>
        rw [hstep] at hfirst
        cases hfirst
    | some n =>
      have hn : n ≠ 2 ^ 16 := by
        rintro rfl
        exact hstuck (.here hsize)
      obtain ⟨d, b₁, hstep, -⟩ := parseStep_of_some handle h (hc ▸ hsize)
      obtain ⟨hv₁, hc₁, hlt⟩ := parseStep_shortens h (hc ▸ hsize) hn hstep
      rw [hc] at hc₁
      have hrest : ¬ Stuck (c.drop (u16 n)) := fun hs => hstuck (.later hsize hs)
      obtain ⟨⟨fuel, r, hloop⟩, hshort⟩ := ih b₁.writeOffset (hlen ▸ hlt) hrest hv₁ hc₁ rfl
      refine ⟨⟨fuel + 1, { r with deliveries := d :: r.deliveries }, ?_⟩, ?_⟩
      · simp only [parseLoop, hstep, hloop, Exec.ok_bind, Exec.pure_eq]
      · intro b' d' b'' hreach hd
        cases hreach with
        | refl =>
          rw [hstep] at hd
          cases hd
          exact hlt
        | step hfirst hreach =>
          rw [hstep] at hfirst
          cases hfirst
          exact hshort b' d' b'' hreach hd

/-- The parsing loop ends on the content of `m_in_buf`, each PDU shortening it,
exactly when it does not arrive at a length field of 65516. -/
theorem parsesToEnd_iff {handle : Int} (h : b.Valid) :
    ParsesToEnd handle b ↔ ¬ Stuck b.content := by
  constructor
  · rintro ⟨⟨fuel, r, hloop⟩, -⟩ hstuck
    rw [parseLoop_of_stuck hstuck h rfl fuel] at hloop
    cases hloop
  · intro hstuck
    exact parsesToEnd_of_not_stuck hstuck h rfl

/-- A buffer that holds one PDU with one byte of body. -/
theorem parsesToEnd_one_pdu :
    ParsesToEnd 5 ⟨[0x55, 0x53, 1, 0, 0, 0, 0, 0, 0, 0, 0, 0, 0, 0, 0, 0, 0, 0, 1, 0, 9], 21, 21⟩ := by
  refine (parsesToEnd_iff ⟨rfl, Nat.le_refl _, by decide⟩).mpr ?_
  intro hstuck
  have hend : ¬ Stuck [] := by
    rintro (hsize | ⟨hsize, -⟩) <;> cases hsize
  rcases hstuck with hsize | ⟨hsize, hrest⟩
  · exact absurd hsize (by decide)
  · obtain rfl : 21 = _ := Option.some.inj hsize
    exact hend hrest

/-- On the bytes of one PDU with length field 65516, received by a connection that
is otherwise idle, `OnRead` never returns. -/
theorem onRead_diverges_65516 :
    ¬ ∃ fuel r, onRead fuel { handle := 5 } longPduChunks = .ok r := by
  have hlen : longPdu.bytes.length = 2 ^ 16 := by
    have hbody : longPdu.body.length = 65516 := List.length_replicate
    rewrite [longPdu.length_bytes, hbody]
    rfl
  have hsmall : 0 + (chunkBytes longPduChunks).length ≤ 2 ^ 31 := by
    rw [chunkBytes_longPduChunks, hlen]
    decide
  obtain ⟨hfit, -⟩ := callFits_of_small (show 0 < 2 ^ 32 by decide) hsmall
  obtain ⟨b, hb, hv, hc, -⟩ := recvLoop_ok CSimpleBuffer.valid_empty hfit
  have hsize : CImPdu.pduSize? b.content = some (2 ^ 16) := by
    rw [hc, CSimpleBuffer.content_empty, List.nil_append, chunkBytes_longPduChunks,
      longPdu.pduSize?_bytes, hlen]
  rintro ⟨fuel, r, hrun⟩
  simp only [onRead, hb, Exec.ok_bind, parseLoop_of_total hv hsize, Exec.error_bind] at hrun
  cases hrun

end CImConn

end ImServer
