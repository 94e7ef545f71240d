import ImServer.Base.ImConn

/-!
# Sending: from calls to the socket

Bytes leave a connection on two paths: `Send` passes them to the socket directly
while the connection is not busy, and `OnWrite` resumes from `m_out_buf` when the
socket takes bytes again. The two paths together are a queue. What breaks it is
the queue's own size: appending to a busy connection whose buffer would have to
grow beyond 32 bits writes outside the block.
-/

namespace ImServer

/-- The calls on one open connection. The length of a `Send` is an `int`. -/
inductive ConnCall where
  | send (data : List UInt8) (len : data.length < 2 ^ 31) (rooms : List Int)
  | onWrite (rooms : List Int)

/-- The bytes that a call adds to the queue. Only a call of `Send` has any, whether they are sent at
once or kept. -/
def ConnCall.data : ConnCall → List UInt8
  | .send data _ _ => data
  | .onWrite _ => []

/-- A connection with the bytes its socket accepted so far. -/
structure Outgoing where
  conn : CImConn := {}
  wire : List UInt8 := []

namespace Outgoing

def call (s : Outgoing) : ConnCall → Exec Outgoing
  | .send data _ rooms => do
    let (accepted, conn) ← s.conn.send data rooms
    return ⟨conn, s.wire ++ accepted⟩
  | .onWrite rooms => do
    let (accepted, conn) ← s.conn.onWrite rooms
    return ⟨conn, s.wire ++ accepted⟩

/-- Accepted bytes followed by pending ones are the bytes `sent`, and the busy flag
says whether any are pending. -/
def Fifo (s : Outgoing) (sent : List UInt8) : Prop :=
  s.wire ++ s.conn.outBuf.content = sent ∧ (s.conn.busy = true ↔ s.conn.outBuf.content ≠ [])

/-- All calls return, and the queue property holds before, between and after them. -/
def KeepsFifo : Outgoing → List UInt8 → List ConnCall → Prop
  | s, sent, [] => s.Fifo sent
  | s, sent, c :: calls =>
    s.Fifo sent ∧ ∃ s', s.call c = .ok s' ∧ KeepsFifo s' (sent ++ c.data) calls

/-- A `Send` on a busy connection finds or gets the room it needs within 32 bits. -/
def RoomFor (s : Outgoing) : ConnCall → Prop
  | .send data _ _ => s.conn.busy = true → s.conn.outBuf.HasRoom data.length
  | .onWrite _ => True

/-- Every call of the run meets `RoomFor` in the state it is made in. -/
def RoomThroughout : Outgoing → List ConnCall → Prop
  | _, [] => True
  | s, c :: calls => s.RoomFor c ∧ ∀ s', s.call c = .ok s' → RoomThroughout s' calls

end Outgoing

namespace CImConn

theorem sendLoop_append (data : List UInt8) (rooms : List Int) :
    (sendLoop data rooms).1 ++ (sendLoop data rooms).2 = data := by
  induction rooms generalizing data with
  | nil => rfl
  | cons room rooms ih =>
    rw [sendLoop]
    split
    · rfl
    · simp only
      split
      · rfl
      · rw [List.append_assoc, ih, List.take_append_drop]

theorem writeLoop_append {b : CSimpleBuffer} (h : b.Valid) (rooms : List Int) :
    ∃ accepted b', writeLoop b rooms = .ok (accepted, b') ∧ b'.Valid ∧
      accepted ++ b'.content = b.content := by
  induction rooms generalizing b with
  | nil => exact ⟨[], b, rfl, h, rfl⟩
  | cons room rooms ih =>
    rw [writeLoop]
    split
    · exact ⟨[], b, rfl, h, rfl⟩
    · simp only
      split
      · exact ⟨[], b, rfl, h, rfl⟩
      · obtain ⟨ret, hret⟩ : ∃ ret, ret = netlibSend (sendSize (i32 b.writeOffset)) room :=
          ⟨_, rfl⟩
        obtain ⟨b₁, hread, hv, hc, -⟩ := h.read ret.toNat
        obtain ⟨accepted, b', hloop, hv', hc'⟩ := ih hv
        rw [← hret]
        refine ⟨b.content.take ret.toNat ++ accepted, b', ?_, hv', ?_⟩
        · simp only [hread, hloop, Exec.ok_bind, Exec.pure_eq]
        · rw [List.append_assoc, hc', hc, List.take_append_drop]

end CImConn

namespace Outgoing

variable {s : Outgoing} {sent : List UInt8}

/-- The queue property on a well-formed buffer, with the bytes that the callers have sent so far. -/
structure Inv (s : Outgoing) (sent : List UInt8) : Prop where
  valid : s.conn.outBuf.Valid
  fifo : s.Fifo sent

theorem inv_initial : Inv {} [] :=
  ⟨CSimpleBuffer.valid_empty, rfl, by simp only [CSimpleBuffer.content_empty]; decide⟩

theorem content_eq_nil {b : CSimpleBuffer} (h : b.Valid) :
    b.content = [] ↔ b.writeOffset = 0 := by
  rw [← h.length_content, List.length_eq_zero_iff]

theorem Inv.send_busy (h : s.Inv sent) {data : List UInt8} {rooms : List Int}
    (hlen : data.length < 2 ^ 31) (hbusy : s.conn.busy = true)
    (hroom : s.conn.outBuf.HasRoom data.length) :
    ∃ s', s.call (.send data hlen rooms) = .ok s' ∧ s'.Inv (sent ++ data) := by
  obtain ⟨b', hb', hv, hc, -⟩ := h.valid.write (by omega) hroom
  have hne : s.conn.outBuf.content ≠ [] := h.fifo.2.mp hbusy
  refine ⟨⟨{ s.conn with outBuf := b' }, s.wire ++ []⟩, ?_, hv, ?_, ?_⟩
  · simp only [call, CImConn.send, hbusy, if_true, hb', Exec.ok_bind, Exec.pure_eq]
  · simp only [hc, List.append_nil]
    rw [← List.append_assoc, h.fifo.1]
  · simp only [hbusy, hc, true_iff]
    exact List.append_ne_nil_of_left_ne_nil hne _

theorem Inv.send_idle (h : s.Inv sent) {data : List UInt8} {rooms : List Int}
    (hlen : data.length < 2 ^ 31) (hidle : ¬ s.conn.busy = true) :
    ∃ s', s.call (.send data hlen rooms) = .ok s' ∧ s'.Inv (sent ++ data) := by
  have hempty : s.conn.outBuf.content = [] := by
    by_contra hne
    exact hidle (h.fifo.2.mpr hne)
  have hwire : s.wire = sent := by
    rw [← h.fifo.1, hempty, List.append_nil]
  obtain ⟨accepted, remain, hloop, hsplit⟩ : ∃ accepted remain,
      CImConn.sendLoop data rooms = (accepted, remain) ∧ accepted ++ remain = data :=
    ⟨_, _, rfl, CImConn.sendLoop_append data rooms⟩
  by_cases hremain : remain = []
  · refine ⟨⟨s.conn, s.wire ++ accepted⟩, ?_, h.valid, ?_, h.fifo.2⟩
    · simp only [call, CImConn.send, hloop, hidle, hremain, if_true, Exec.pure_eq]
      rfl
    · rw [hremain, List.append_nil] at hsplit
      rw [hempty, List.append_nil, hwire, hsplit]
  · have hle : remain.length ≤ data.length := by
      rw [← hsplit, List.length_append]
      exact Nat.le_add_left _ _
    have hroom : s.conn.outBuf.HasRoom remain.length := by
      refine .inr ?_
      rw [(content_eq_nil h.valid).mp hempty]
      simp only [CSimpleBuffer.grown]
      omega
    obtain ⟨b', hb', hv, hc, -⟩ := h.valid.write (by omega) hroom
    rw [hempty, List.nil_append] at hc
    refine ⟨⟨{ s.conn with outBuf := b', busy := true }, s.wire ++ accepted⟩, ?_, hv, ?_, ?_⟩
    · simp only [call, CImConn.send, hloop, hidle, hremain, if_false, hb', Exec.ok_bind,
        Exec.pure_eq]
      rfl
    · rw [hc, List.append_assoc, hsplit, hwire]
    · simp only [hc, true_iff]
      exact hremain

theorem Inv.onWrite (h : s.Inv sent) (rooms : List Int) :
    ∃ s', s.call (.onWrite rooms) = .ok s' ∧ s'.Inv sent := by
  by_cases hbusy : s.conn.busy = true
  · obtain ⟨accepted, b', hloop, hv, hc⟩ := CImConn.writeLoop_append h.valid rooms
    have hfifo : s.wire ++ accepted ++ b'.content = sent := by
      rw [List.append_assoc, hc, h.fifo.1]
    by_cases hzero : b'.writeOffset = 0
    · refine ⟨⟨{ s.conn with outBuf := b', busy := false }, s.wire ++ accepted⟩, ?_, hv, hfifo, ?_⟩
      · simp only [call, CImConn.onWrite, hbusy, hloop, hzero, Bool.not_true, if_true,
          Exec.ok_bind, Exec.pure_eq]
        rfl
      · simp [(content_eq_nil hv).mpr hzero]
    · refine ⟨⟨{ s.conn with outBuf := b' }, s.wire ++ accepted⟩, ?_, hv, hfifo, ?_⟩
      · simp only [call, CImConn.onWrite, hbusy, hloop, hzero, Bool.not_true, if_false,
          Exec.ok_bind, Exec.pure_eq]
        rfl
      · simp only [hbusy, true_iff]
        exact fun hnil => hzero ((content_eq_nil hv).mp hnil)
  · refine ⟨⟨s.conn, s.wire ++ []⟩, ?_, h.valid, ?_, h.fifo.2⟩
    · simp only [call, CImConn.onWrite, hbusy, Bool.not_false, if_true, Exec.ok_bind, Exec.pure_eq]
    · rw [List.append_nil]
      exact h.fifo.1

/-- One call keeps the queue as long as there is room for its bytes. -/
theorem Inv.call (h : s.Inv sent) {c : ConnCall} (hroom : s.RoomFor c) :
    ∃ s', s.call c = .ok s' ∧ s'.Inv (sent ++ c.data) := by
  cases c with
  | send data hlen rooms =>
    by_cases hbusy : s.conn.busy = true
    · exact h.send_busy hlen hbusy (hroom hbusy)
    · exact h.send_idle hlen hbusy
  | onWrite rooms =>
    obtain ⟨s', hs', h'⟩ := h.onWrite rooms
    exact ⟨s', hs', (List.append_nil sent).symm ▸ h'⟩

theorem Inv.call_fault (h : s.Inv sent) {c : ConnCall} (hroom : ¬ s.RoomFor c) :
    s.call c = .error .fault := by
  cases c with
  | send data hlen rooms =>
    obtain ⟨hbusy, hfull⟩ : s.conn.busy = true ∧ ¬ s.conn.outBuf.HasRoom data.length := by
      simpa only [RoomFor, Classical.not_imp] using hroom
    have hwrite := h.valid.write_fault (by omega) hfull
    simp only [Outgoing.call, CImConn.send, hbusy, if_true, hwrite, Exec.error_bind]
  | onWrite rooms => exact absurd trivial hroom

theorem Inv.keepsFifo_iff_room (h : s.Inv sent) (calls : List ConnCall) :
    s.KeepsFifo sent calls ↔ s.RoomThroughout calls := by
  induction calls generalizing s sent with
  | nil => exact ⟨fun _ => trivial, fun _ => h.fifo⟩
  | cons c calls ih =>
    by_cases hroom : s.RoomFor c
    · obtain ⟨s', hs', h'⟩ := h.call hroom
      constructor
      · rintro ⟨-, s'', hs'', hrest⟩
        rw [hs'] at hs''
        cases hs''
        refine ⟨hroom, ?_⟩
        intro t ht
        rw [hs'] at ht
        cases ht
        exact (ih h').mp hrest
      · rintro ⟨-, hrest⟩
        exact ⟨h.fifo, s', hs', (ih h').mpr (hrest s' hs')⟩
    · constructor
      · rintro ⟨-, s', hs', -⟩
        rw [h.call_fault hroom] at hs'
        cases hs'
      · rintro ⟨hroom', -⟩
        exact absurd hroom' hroom

/-- The bytes sent so far are the accepted ones followed by the pending ones, and
`m_busy` tells whether any are pending, in every state of a run on a new
connection exactly when no `Send` of the run on a busy connection makes
`m_out_buf` grow beyond 32 bits. -/
theorem keepsFifo_iff (calls : List ConnCall) :
    KeepsFifo {} [] calls ↔ RoomThroughout {} calls := inv_initial.keepsFifo_iff_room calls

/-- `Send` of `data` while the socket would block. -/
def blockedSend (data : List UInt8) (len : data.length < 2 ^ 31) : ConnCall := .send data len []

theorem wire_of_blockedSend {data : List UInt8} {len : data.length < 2 ^ 31} {s' : Outgoing}
    (h : s.call (blockedSend data len) = .ok s') : s'.wire = s.wire := by
  obtain ⟨⟨accepted, conn⟩, hsend, h⟩ := Exec.bind_eq_ok.mp h
  cases h
  have hnone : accepted = [] := by
    rw [CImConn.send] at hsend
    split at hsend
    · obtain ⟨b, -, hsend⟩ := Exec.bind_eq_ok.mp hsend
      cases hsend
      rfl
    · split at hsend
      next accepted' remain hloop =>
      cases hloop
      split at hsend
      · cases hsend
        rfl
      · obtain ⟨b, -, hsend⟩ := Exec.bind_eq_ok.mp hsend
        cases hsend
        rfl
  rw [hnone, List.append_nil]

/-- If the queue property survives a run of blocked sends, everything is pending. -/
theorem KeepsFifo.pending {data : List UInt8} {len : data.length < 2 ^ 31} {n : Nat}
    (h : s.Inv sent) (hkeeps : s.KeepsFifo sent (List.replicate n (blockedSend data len))) :
    ∃ s' : Outgoing, s'.wire = s.wire ∧
      s'.Inv (sent ++ (List.replicate n data).flatten) := by
  induction n generalizing s sent with
  | zero =>
    refine ⟨s, rfl, ?_⟩
    rw [List.replicate_zero, List.flatten_nil, List.append_nil]
    exact h
  | succ n ih =>
    obtain ⟨-, s₁, hs₁, hrest⟩ := hkeeps
    have hroom : s.RoomFor (blockedSend data len) := by
      by_contra hroom
      rw [h.call_fault hroom] at hs₁
      cases hs₁
    obtain ⟨s₂, hs₂, h₂⟩ := h.call hroom
    rw [hs₁] at hs₂
    cases hs₂
    obtain ⟨s', hwire, h'⟩ := ih h₂ hrest
    refine ⟨s', hwire.trans (wire_of_blockedSend hs₁), ?_⟩
    rw [List.replicate_succ, List.flatten_cons, ← List.append_assoc]
    exact h'

/-- 65538 sends of 65535 bytes to a peer that takes nothing: more than `2 ^ 32`
bytes would have to be pending. -/
theorem keepsFifo_fails_blocked :
    ¬ KeepsFifo {} [] (List.replicate 65538
      (blockedSend (List.replicate 65535 0) (by rw [List.length_replicate]; decide))) := by
  intro hkeeps
  obtain ⟨s', hwire, h'⟩ := hkeeps.pending inv_initial
  have hfifo := h'.fifo.1
  rw [hwire, List.nil_append, List.nil_append, List.flatten_replicate_replicate] at hfifo
  have hlt := h'.valid.offset_lt
  rw [← h'.valid.length_content, hfifo, List.length_replicate] at hlt
  exact absurd hlt (by decide)

end Outgoing

end ImServer
