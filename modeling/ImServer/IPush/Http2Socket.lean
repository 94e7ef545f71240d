import ImServer.Lib.Run
import Mathlib.Data.Fintype.Basic
import Mathlib.Data.Fintype.Option
import Mathlib.Logic.Function.Basic

/-!
# Answers on an HTTP/2 connection

A connection to the push service (ipush/ssl_http2.cpp) keeps a map from the streams of its session
to the requests that were submitted on them. `Send` submits a request and then enters it into the
map. The header callbacks look the stream of an answer up. `Close` clears the map, closes the socket
and deletes the session; `ReConnect` makes a new session, whose streams are numbered from the
beginning.

Senders and `Recv` exclude each other by a mutex. `Close` and the callbacks do not take it, so the
steps of `Close` come between those of the others.
-/

namespace ImServer

inductive PostStatus where
  | init
  | requestSend
  | responeEcode
  | responeApnsId
  deriving DecidableEq, Repr

/-- What is kept for a stream. `ρ` are the requests, each of which is an object of its own. -/
structure StreamData (ρ : Type) where
  iPostStatus : PostStatus
  pPostData : ρ
  streamId : Nat
  deriving DecidableEq, Repr

/-- What is under the streams. -/
abbrev CStreamMap (ρ : Type) : Type := Nat → Option (StreamData ρ)

namespace CStreamMap

variable {ρ : Type} (map : CStreamMap ρ)

def getStream (streamId : Nat) : Option (StreamData ρ) :=
  (map streamId).filter (·.streamId = streamId)

def getAndDel (streamId : Nat) : Option (StreamData ρ × CStreamMap ρ) :=
  (map.getStream streamId).map fun data => (data, Function.update map streamId none)

/-- It fails if there is something under the stream. -/
def insert (data : StreamData ρ) : CStreamMap ρ :=
  match map data.streamId with
  | some _ => map
  | none => Function.update map data.streamId (some data)

def clear : CStreamMap ρ := fun _ => none

end CStreamMap

/-- What the header callback tells apart. -/
inductive Header where
  | status (value : String)
  | apnsId (value : String)
  deriving DecidableEq, Repr

/-- A header that was read, with the session and the stream it was read on. -/
structure HeaderField where
  session : Nat
  stream : Nat
  header : Header
  deriving DecidableEq, Repr

/-- How far the answer on a stream has been read. -/
inductive PushAnswer where
  | none
  | status
  | complete
  deriving DecidableEq, Repr

/-- A header callback has run, and found the request `entry`. -/
structure Credit (ρ : Type) where
  session : Nat
  stream : Nat
  entry : Option ρ
  deriving DecidableEq, Repr

/-- What `nghttp2_session_send` does with a request. -/
inductive FrameWritten where
  | all
  | wouldBlock
  | failed
  | refused
  deriving DecidableEq, Repr

/-- Those who close the connection: a sender whose write fails, the thread of the events, and the one
that checks the heartbeats. -/
inductive Closer (ι : Type) where
  | sender (i : ι)
  | dispatch
  | check
  deriving DecidableEq, Repr

/-- The next step of `Close`. -/
inductive Closing where
  | clear
  | closeSocket
  | sessionDel
  deriving DecidableEq, Repr

/-- The next step of `ReConnect`. -/
inductive Reconnect where
  | sessionDel
  | connect
  | sessionNew
  deriving DecidableEq, Repr

/-- A connection, with the senders `ι`. The thread that receives and the senders share the map of
the streams. -/
structure CHttp2Socket (ι ρ : Type) where
  session : Option Nat := some 0
  nextStreamId : Nat := 1
  socket : Bool := true
  writeable : Bool := true
  streamDataMap : CStreamMap ρ := fun _ => none
  sendRecvLineRun : Option (Closer ι) := none
  inserting : ι → Option (StreamData ρ) := fun _ => none
  closing : Closer ι → Option Closing := fun _ => none
  reconnect : Option Reconnect := none
  pending : List HeaderField := []
  apnsRetStatus : ρ → String := fun _ => ""
  respone : List ρ := []
  -- the sessions so far, and what has happened in each of them
  sessions : Nat := 1
  submitted : Nat → Nat → Option ρ := fun _ _ => none
  answer : Nat → Nat → PushAnswer := fun _ _ => .none
  credits : List (Credit ρ) := []

namespace CHttp2Socket

variable {ι ρ : Type}

inductive Event (ι ρ : Type) where
  | send (i : ι) (data : ρ) (written : FrameWritten)
  | insert (i : ι)
  | recv (stream : Nat) (header : Header)
  | recvFailed
  | header
  | onWrite
  | close (check : Bool)
  | closeStep (c : Closer ι)
  | reconnect (ok : Bool)
  deriving DecidableEq, Repr

section Steps

variable [DecidableEq ι] [DecidableEq ρ] (s : CHttp2Socket ι ρ)

/-- `Send` up to the insertion. The mutex is free. -/
def send (i : ι) (data : ρ) (written : FrameWritten) : CHttp2Socket ι ρ :=
  match s.session with
  | none => s
  | some n =>
    if s.writeable = false ∨ written = .refused then s
    else
      let streamId := s.nextStreamId
      let s := { s with nextStreamId := streamId + 2 }
      -- the send callback looks at the socket first
      if s.socket = false then s
      else
        match written with
        | .failed =>
          { s with
            sendRecvLineRun := some (.sender i)
            closing := Function.update s.closing (.sender i) (some .clear) }
        | _ =>
          { s with
            writeable := !decide (written = .wouldBlock)
            sendRecvLineRun := some (.sender i)
            inserting := Function.update s.inserting i
              (some { iPostStatus := .requestSend, pPostData := data, streamId })
            submitted := Function.update s.submitted n
              (Function.update (s.submitted n) streamId (some data)) }

/-- `_On_header_callback`. If there is no entry, the rest of what was read is lost. -/
def onHeaderCallback (field : HeaderField) : CHttp2Socket ι ρ :=
  match field.header with
  | .status value =>
    match s.streamDataMap.getStream field.stream with
    | none => { s with pending := [], credits := ⟨field.session, field.stream, none⟩ :: s.credits }
    | some data =>
      { s with
        apnsRetStatus := Function.update s.apnsRetStatus data.pPostData value
        streamDataMap := Function.update s.streamDataMap field.stream
          (some { data with iPostStatus := .responeEcode })
        credits := ⟨field.session, field.stream, some data.pPostData⟩ :: s.credits }
  | .apnsId _ =>
    match s.streamDataMap.getAndDel field.stream with
    | none => { s with pending := [], credits := ⟨field.session, field.stream, none⟩ :: s.credits }
    | some (data, map) =>
      { s with
        streamDataMap := map
        respone := s.respone ++ [data.pPostData]
        credits := ⟨field.session, field.stream, some data.pPostData⟩ :: s.credits }

/-- What the answer on a stream is after another header. It has a status and then an id. -/
def PushAnswer.read : PushAnswer → Header → Option PushAnswer
  | .none, .status _ => some .status
  | .status, .apnsId _ => some .complete
  | _, _ => none

theorem PushAnswer.ne_complete_of_read {answer answer' : PushAnswer} {header : Header}
    (h : PushAnswer.read answer header = some answer') : answer ≠ .complete := by
  rintro rfl
  cases header <;> cases h

theorem PushAnswer.eq_complete_of_read {answer answer' : PushAnswer} {value : String}
    (h : PushAnswer.read answer (.apnsId value) = some answer') : answer' = .complete := by
  cases answer <;> cases h
  rfl

/-- `Recv` reads a header on a stream that was submitted in the session. -/
def recv (stream : Nat) (header : Header) : Option (CHttp2Socket ι ρ) :=
  match s.session with
  | none => none
  | some n =>
    match s.submitted n stream, PushAnswer.read (s.answer n stream) header with
    | some _, some answer =>
      some { s with
        pending := s.pending ++ [⟨n, stream, header⟩]
        answer := Function.update s.answer n (Function.update (s.answer n) stream answer) }
    | _, _ => none

/-- A step of `Close`. The last one of them frees the mutex, if it was taken for this. -/
def closeStep (c : Closer ι) : Option (CHttp2Socket ι ρ) :=
  match s.closing c with
  | none => none
  | some .clear => some { s with
      streamDataMap := CStreamMap.clear
      closing := Function.update s.closing c (some .closeSocket) }
  | some .closeSocket => some { s with
      socket := false
      closing := Function.update s.closing c (some .sessionDel) }
  | some .sessionDel => some { s with
      session := none
      closing := Function.update s.closing c none
      sendRecvLineRun := if s.sendRecvLineRun = some c then none else s.sendRecvLineRun
      reconnect := if c = .check then some .sessionDel else s.reconnect }

/-- A step of `ReConnect`. -/
def reconnectStep (ok : Bool) : Option (CHttp2Socket ι ρ) :=
  match s.reconnect with
  | none => none
  | some .sessionDel => some { s with session := none, reconnect := some .connect }
  | some .connect =>
    some { s with socket := ok, reconnect := if ok then some .sessionNew else none }
  | some .sessionNew =>
    if ok then
      some { s with
        session := some s.sessions
        sessions := s.sessions + 1
        nextStreamId := 1
        writeable := true
        reconnect := none }
    else some { s with reconnect := none }

/-- The thread that checks the heartbeats closes the connection before it makes a new one. The thread
of the events closes it between its callbacks. -/
def step : Event ι ρ → Option (CHttp2Socket ι ρ)
  | .send i data written =>
    if s.sendRecvLineRun = none ∧ s.closing (.sender i) = none then some (s.send i data written)
    else none
  | .insert i =>
    match s.inserting i with
    | none => none
    | some data => some { s with
        streamDataMap := s.streamDataMap.insert data
        inserting := Function.update s.inserting i none
        sendRecvLineRun := none }
  | .recv stream header =>
    if s.sendRecvLineRun = none ∧ s.closing .dispatch = none ∧ s.socket = true then
      s.recv stream header
    else none
  | .recvFailed =>
    if s.sendRecvLineRun = none ∧ s.closing .dispatch = none ∧ s.pending = [] ∧ s.session ≠ none ∧
        s.socket = true then
      some { s with
        sendRecvLineRun := some .dispatch
        closing := Function.update s.closing .dispatch (some .clear) }
    else none
  | .header =>
    match s.pending with
    | [] => none
    | field :: rest =>
      if s.closing .dispatch = none then
        some ({ s with pending := rest }.onHeaderCallback field)
      else none
  | .onWrite => some { s with writeable := true }
  | .close false =>
    if s.closing .dispatch = none ∧ s.pending = [] then
      some { s with closing := Function.update s.closing .dispatch (some .clear) }
    else none
  | .close true =>
    if s.closing .check = none ∧ s.reconnect = none then
      some { s with closing := Function.update s.closing .check (some .clear) }
    else none
  | .closeStep c => s.closeStep c
  | .reconnect ok => s.reconnectStep ok

end Steps

/-- Each header was credited to the request that was submitted on its stream in its session. -/
def Attributed (s : CHttp2Socket ι ρ) : Prop :=
  ∀ credit ∈ s.credits,
    credit.entry ≠ none ∧ credit.entry = s.submitted credit.session credit.stream

section Good

variable (s : CHttp2Socket ι ρ)

/-- Someone has cleared the map and not yet deleted the session. -/
def Cleared : Prop := ∃ c, s.closing c = some .closeSocket ∨ s.closing c = some .sessionDel

/-- No request is between the submission and its insertion, and no header waits for its callback. -/
def Quiet : Prop := (∀ i, s.inserting i = none) ∧ s.pending = []

/-- `Submit_request` returns a stream. -/
def Submits (written : FrameWritten) : Prop :=
  s.session ≠ none ∧ s.writeable = true ∧ s.socket = true ∧ (written = .all ∨ written = .wouldBlock)

/-- The map is cleared while nothing is on its way through the connection, and until the session is
deleted nothing is submitted and no answer is read. -/
def Good : Event ι ρ → Prop
  | .send _ _ written => s.Submits written → ¬ s.Cleared
  | .recv .. => ¬ s.Cleared
  | .closeStep c => s.closing c = some .clear → s.Quiet
  | _ => True

end Good

/-- A stream of the session on which the answer is not complete. -/
def Open (s : CHttp2Socket ι ρ) (n stream : Nat) : Prop :=
  s.session = some n ∧ s.submitted n stream ≠ none ∧ s.answer n stream ≠ .complete

/-- The map has entries for requests of the current session only, each open stream has an entry or
is about to get it, and so has each header that waits for its callback. -/
structure Inv (s : CHttp2Socket ι ρ) : Prop where
  credits : s.Attributed
  entries : ∀ k data, s.streamDataMap k = some data → data.streamId = k ∧
    ∃ n, s.session = some n ∧ s.submitted n k = some data.pPostData
  inserting : ∀ i data, s.inserting i = some data → s.sendRecvLineRun = some (.sender i) ∧
    s.streamDataMap data.streamId = none ∧
      ∃ n, s.session = some n ∧ s.submitted n data.streamId = some data.pPostData
  opened : ¬ s.Cleared → ∀ n k, s.Open n k →
    s.streamDataMap k ≠ none ∨ ∃ i data, s.inserting i = some data ∧ data.streamId = k
  pending : ∀ field ∈ s.pending, s.session = some field.session ∧
    s.streamDataMap field.stream ≠ none
  lasts : s.pending.Pairwise fun field later => ∀ value, field.header = .apnsId value →
    later.stream ≠ field.stream
  complete : ∀ field ∈ s.pending, ∀ value, field.header = .apnsId value →
    s.answer field.session field.stream = .complete
  cleared : s.Cleared → s.Quiet ∧ ∀ k, s.streamDataMap k = none
  fresh : ∀ n, s.session = some n → n < s.sessions ∧ ∀ k, s.nextStreamId ≤ k → s.submitted n k = none
  later : ∀ n, s.sessions ≤ n → ∀ k, s.submitted n k = none
  reconnect : s.reconnect ≠ none → s.session = none

section Kept

variable {s s' : CHttp2Socket ι ρ}

theorem recv_cases {stream : Nat} {header : Header} (h : s.recv stream header = some s') :
    ∃ n answer, s.session = some n ∧ s.submitted n stream ≠ none ∧
      PushAnswer.read (s.answer n stream) header = some answer ∧ s' = { s with
        pending := s.pending ++ [⟨n, stream, header⟩]
        answer := Function.update s.answer n (Function.update (s.answer n) stream answer) } := by
  rw [CHttp2Socket.recv] at h
  split at h
  · cases h
  · split at h
    · cases h
      exact ⟨_, _, ‹_›, by simp_all, ‹_›, rfl⟩
    · cases h

theorem Inv.of_session_none (h : s.Inv) (hsession : s.session = none) :
    s.Quiet ∧ ∀ k, s.streamDataMap k = none := by
  refine ⟨⟨fun i => ?_, ?_⟩, fun k => ?_⟩
  · cases hdata : s.inserting i with
    | none => rfl
    | some data =>
      obtain ⟨-, -, n, hn, -⟩ := h.inserting i data hdata
      cases hsession.symm.trans hn
  · refine List.eq_nil_iff_forall_not_mem.mpr fun field hmem => ?_
    cases hsession.symm.trans (h.pending field hmem).1
  · cases hdata : s.streamDataMap k with
    | none => rfl
    | some data =>
      obtain ⟨-, n, hn, -⟩ := h.entries k data hdata
      cases hsession.symm.trans hn

theorem Inv.inserting_none (h : s.Inv) (hfree : s.sendRecvLineRun = none) (i : ι) :
    s.inserting i = none := by
  cases hdata : s.inserting i with
  | none => rfl
  | some data => cases hfree.symm.trans (h.inserting i data hdata).1

theorem Inv.lock (h : s.Inv) (hfree : s.sendRecvLineRun = none) (c : Closer ι) :
    Inv { s with sendRecvLineRun := some c } :=
  { h with inserting := fun i data hdata => by cases (h.inserting_none hfree i).symm.trans hdata }

theorem Inv.sessionNew (h : s.Inv) (hsession : s.session = none) :
    Inv { s with
      session := some s.sessions
      sessions := s.sessions + 1
      nextStreamId := 1
      writeable := true
      reconnect := none } := by
  obtain ⟨hquiet, hmap⟩ := h.of_session_none hsession
  exact {
    credits := h.credits
    entries := fun k data hdata => by cases (hmap k).symm.trans hdata
    inserting := fun i data hdata => by cases (hquiet.1 i).symm.trans hdata
    opened := fun _ n k hopen => by
      cases hopen.1
      exact absurd (h.later _ le_rfl k) hopen.2.1
    pending := fun field hmem => absurd hmem (List.eq_nil_iff_forall_not_mem.mp hquiet.2 field)
    lasts := h.lasts
    complete := h.complete
    cleared := fun _ => ⟨hquiet, hmap⟩
    fresh := fun n hn => by
      cases hn
      exact ⟨Nat.lt_succ_self _, fun k _ => h.later _ le_rfl k⟩
    later := fun n hn k => h.later n (Nat.le_of_succ_le hn) k
    reconnect := fun hne => absurd rfl hne }

theorem Inv.skip (h : s.Inv) {stream : Nat} (hstream : s.nextStreamId ≤ stream) :
    Inv { s with nextStreamId := stream } :=
  { h with fresh := fun n hn =>
      ⟨(h.fresh n hn).1, fun k hk => (h.fresh n hn).2 k (hstream.trans hk)⟩ }

/-- A header is read. Its stream is open, so it has an entry. -/
theorem Inv.recv (h : s.Inv) (hfree : s.sendRecvLineRun = none) (hopen : ¬ s.Cleared)
    {stream : Nat} {header : Header} (hrecv : s.recv stream header = some s') : s'.Inv := by
  obtain ⟨n, answer, hsession, hsubmitted, hread, rfl⟩ := recv_cases hrecv
  have hentry : s.streamDataMap stream ≠ none := by
    obtain hentry | ⟨i, data, hdata, -⟩ :=
      h.opened hopen n stream ⟨hsession, hsubmitted, (PushAnswer.ne_complete_of_read hread)⟩
    · exact hentry
    · cases (h.inserting_none hfree i).symm.trans hdata
  have hkept : ∀ n' k, s.answer n' k = .complete → Function.update s.answer n
      (Function.update (s.answer n) stream answer) n' k = .complete := by
    intro n' k hk
    by_cases hn' : n' = n
    · subst hn'
      rw [Function.update_self, Function.update_of_ne, hk]
      rintro rfl
      exact (PushAnswer.ne_complete_of_read hread) hk
    · rw [Function.update_of_ne hn', hk]
  refine { h with
    opened := fun _ n' k hstream => ?_
    pending := fun field hmem => ?_
    lasts := ?_
    complete := fun field hmem value hvalue => ?_
    cleared := fun hcleared => absurd hcleared hopen }
  · exact h.opened hopen n' k ⟨hstream.1, hstream.2.1, fun hk => hstream.2.2 (hkept n' k hk)⟩
  · obtain hmem | hmem := List.mem_append.mp hmem
    · exact h.pending field hmem
    · cases List.mem_singleton.mp hmem
      exact ⟨hsession, hentry⟩
  · refine List.pairwise_append.mpr ⟨h.lasts, List.pairwise_singleton .., ?_⟩
    rintro field hmem later hlater value hvalue
    cases List.mem_singleton.mp hlater
    rintro rfl
    have hcomplete := h.complete field hmem value hvalue
    cases hsession.symm.trans (h.pending field hmem).1
    exact (PushAnswer.ne_complete_of_read hread) hcomplete
  · obtain hmem | hmem := List.mem_append.mp hmem
    · exact hkept _ _ (h.complete field hmem value hvalue)
    · cases List.mem_singleton.mp hmem
      cases hvalue
      simpa using PushAnswer.eq_complete_of_read hread

theorem Inv.header [DecidableEq ρ] (h : s.Inv) {field : HeaderField} {rest : List HeaderField}
    (hpending : s.pending = field :: rest) :
    Inv ({ s with pending := rest }.onHeaderCallback field) := by
  obtain ⟨hsession, hentry⟩ := h.pending field (hpending ▸ List.mem_cons_self)
  obtain ⟨data, hdata⟩ := Option.ne_none_iff_exists'.mp hentry
  obtain ⟨hstream, n, hn, hsubmitted⟩ := h.entries _ data hdata
  cases hsession.symm.trans hn
  have hget : s.streamDataMap.getStream field.stream = some data := by
    rw [CStreamMap.getStream, hdata]
    exact Option.filter_some_pos (decide_eq_true hstream)
  have hopen : ¬ s.Cleared := fun hcleared => by
    cases hpending.symm.trans (h.cleared hcleared).1.2
  have hlasts := h.lasts
  rw [hpending, List.pairwise_cons] at hlasts
  have hrest : ∀ later ∈ rest, later ∈ s.pending := fun later hmem =>
    hpending ▸ List.mem_cons_of_mem _ hmem
  have hcredits : ∀ credit ∈ ⟨field.session, field.stream, some data.pPostData⟩ :: s.credits,
      credit.entry ≠ none ∧ credit.entry = s.submitted credit.session credit.stream := by
    refine List.forall_mem_cons.mpr ⟨⟨by simp, hsubmitted.symm⟩, h.credits⟩
  have hinserting : ∀ i data', s.inserting i = some data' → data'.streamId ≠ field.stream := by
    rintro i data' hdata' hk
    cases (hk ▸ (h.inserting i data' hdata').2.1).symm.trans hdata
  rw [onHeaderCallback]
  split
  · -- the entry stays with its request
    rw [hget]
    have hkept : ∀ k, s.streamDataMap k ≠ none → Function.update s.streamDataMap field.stream
        (some { data with iPostStatus := .responeEcode }) k ≠ none := by
      intro k hk
      by_cases hstream : k = field.stream
      · simp [hstream]
      · rwa [Function.update_of_ne hstream]
    refine { h with
      credits := hcredits
      entries := fun k data' hdata' => ?_
      inserting := fun i data' hdata' => ?_
      opened := fun _ n k hk => (h.opened hopen n k hk).imp_left (hkept k)
      pending := fun later hmem =>
        ⟨(h.pending later (hrest later hmem)).1, hkept _ (h.pending later (hrest later hmem)).2⟩
      lasts := hlasts.2
      complete := fun later hmem => h.complete later (hrest later hmem)
      cleared := fun hcleared => absurd hcleared hopen }
    · by_cases hk : k = field.stream
      · subst hk
        simp only [Function.update_self] at hdata'
        cases hdata'
        exact ⟨hstream, _, hsession, hsubmitted⟩
      · simp only [Function.update_of_ne hk] at hdata'
        exact h.entries k data' hdata'
    · obtain ⟨hlock, hnone, hsubmitted'⟩ := h.inserting i data' hdata'
      exact ⟨hlock, (Function.update_of_ne (hinserting i data' hdata') ..).trans hnone, hsubmitted'⟩
  · -- the entry goes, and no header of the stream follows
    rename_i value hvalue
    rw [CStreamMap.getAndDel, hget, Option.map_some]
    have hcomplete := h.complete field (hpending ▸ List.mem_cons_self) value hvalue
    have hkept : ∀ k, k ≠ field.stream → s.streamDataMap k ≠ none →
        Function.update s.streamDataMap field.stream none k ≠ none := fun k hk hsome =>
      (Function.update_of_ne hk ..).trans_ne hsome
    refine { h with
      credits := hcredits
      entries := fun k data' hdata' => ?_
      inserting := fun i data' hdata' => ?_
      opened := fun _ n k hk => (h.opened hopen n k hk).imp_left (hkept k ?_)
      pending := fun later hmem =>
        ⟨(h.pending later (hrest later hmem)).1, hkept _ (hlasts.1 later hmem value hvalue)
          (h.pending later (hrest later hmem)).2⟩
      lasts := hlasts.2
      complete := fun later hmem => h.complete later (hrest later hmem)
      cleared := fun hcleared => absurd hcleared hopen }
    · by_cases hk : k = field.stream
      · subst hk
        simp at hdata'
      · dsimp only at hdata'
        rw [Function.update_of_ne hk] at hdata'
        exact h.entries k data' hdata'
    · obtain ⟨hlock, hnone, hsubmitted'⟩ := h.inserting i data' hdata'
      exact ⟨hlock, (Function.update_of_ne (hinserting i data' hdata') ..).trans hnone, hsubmitted'⟩
    · rintro rfl
      cases hsession.symm.trans hk.1
      exact hk.2.2 hcomplete

theorem Inv.reconnectStep (h : s.Inv) {ok : Bool} (hstep : s.reconnectStep ok = some s') :
    s'.Inv := by
  rw [CHttp2Socket.reconnectStep] at hstep
  split at hstep
  case h_1 => cases hstep
  case h_2 hreconnect =>
    have hnone : s.session = none := h.reconnect (by simp [hreconnect])
    cases hstep
    rw [← hnone]
    exact { h with reconnect := fun _ => hnone }
  case h_3 hreconnect =>
    have hnone : s.session = none := h.reconnect (by simp [hreconnect])
    cases hstep
    exact { h with reconnect := fun _ => hnone }
  case h_4 hreconnect =>
    have hnone : s.session = none := h.reconnect (by simp [hreconnect])
    split at hstep
    · cases hstep
      exact h.sessionNew hnone
    · cases hstep
      exact { h with reconnect := fun hne => absurd rfl hne }

variable [DecidableEq ι]

theorem cleared_iff {c : Closer ι} (hnone : s.closing c = none)
    (hclosing : s'.closing = Function.update s.closing c (some .clear)) :
    s'.Cleared ↔ s.Cleared := by
  refine exists_congr fun c' => ?_
  rw [hclosing]
  by_cases hc : c' = c
  · simp [hc, hnone]
  · rw [Function.update_of_ne hc]

theorem Inv.close (h : s.Inv) {c : Closer ι} (hnone : s.closing c = none) :
    Inv { s with closing := Function.update s.closing c (some .clear) } :=
  have hcleared := cleared_iff hnone rfl
  { h with
    opened := fun hopen => h.opened fun hc => hopen (hcleared.mpr hc)
    cleared := fun hc => h.cleared (hcleared.mp hc) }

theorem Inv.clear (h : s.Inv) {c : Closer ι} (hquiet : s.Quiet) :
    Inv { s with
      streamDataMap := CStreamMap.clear
      closing := Function.update s.closing c (some .closeSocket) } where
  credits := h.credits
  entries _ _ hdata := by cases hdata
  inserting i data hdata := by cases (hquiet.1 i).symm.trans hdata
  opened hopen := absurd ⟨c, .inl (Function.update_self ..)⟩ hopen
  pending field hmem := absurd hmem (List.eq_nil_iff_forall_not_mem.mp hquiet.2 field)
  lasts := h.lasts
  complete := h.complete
  cleared _ := ⟨hquiet, fun _ => rfl⟩
  fresh := h.fresh
  later := h.later
  reconnect := h.reconnect

theorem Inv.closeSocket (h : s.Inv) {c : Closer ι} (hclosing : s.closing c = some .closeSocket) :
    Inv { s with
      socket := false
      closing := Function.update s.closing c (some .sessionDel) } :=
  have hcleared : s.Cleared := ⟨c, .inl hclosing⟩
  { h with
    opened := fun hopen => absurd ⟨c, .inr (Function.update_self ..)⟩ hopen
    cleared := fun _ => h.cleared hcleared }

theorem Inv.sessionDel (h : s.Inv) {c : Closer ι} (hclosing : s.closing c = some .sessionDel)
    (lock : Option (Closer ι)) (reconnect : Option Reconnect) :
    Inv { s with
      session := none
      closing := Function.update s.closing c none
      sendRecvLineRun := lock
      reconnect } := by
  obtain ⟨hquiet, hmap⟩ := h.cleared ⟨c, .inr hclosing⟩
  exact {
    credits := h.credits
    entries := fun k data hdata => by cases (hmap k).symm.trans hdata
    inserting := fun i data hdata => by cases (hquiet.1 i).symm.trans hdata
    opened := fun _ n k hopen => by cases hopen.1
    pending := fun field hmem => absurd hmem (List.eq_nil_iff_forall_not_mem.mp hquiet.2 field)
    lasts := h.lasts
    complete := h.complete
    cleared := fun _ => ⟨hquiet, hmap⟩
    fresh := fun _ hn => by cases hn
    later := h.later
    reconnect := fun _ => rfl }

theorem Inv.insert (h : s.Inv) {i : ι} {data : StreamData ρ} (hinsert : s.inserting i = some data) :
    Inv { s with
      streamDataMap := s.streamDataMap.insert data
      inserting := Function.update s.inserting i none
      sendRecvLineRun := none } := by
  obtain ⟨hlock, hnone, n, hsession, hsubmitted⟩ := h.inserting i data hinsert
  have hothers : ∀ j, Function.update s.inserting i none j = none := by
    intro j
    by_cases hj : j = i
    · rw [hj, Function.update_self]
    · rw [Function.update_of_ne hj]
      by_contra hsome
      obtain ⟨data', hdata'⟩ := Option.ne_none_iff_exists'.mp hsome
      cases hlock.symm.trans (h.inserting j data' hdata').1
      exact hj rfl
  have hmap : s.streamDataMap.insert data =
      Function.update s.streamDataMap data.streamId (some data) := by
    rw [CStreamMap.insert, hnone]
  have hkept : ∀ k, s.streamDataMap k ≠ none →
      Function.update s.streamDataMap data.streamId (some data) k = s.streamDataMap k := by
    intro k hk
    refine Function.update_of_ne ?_ ..
    rintro rfl
    exact hk hnone
  rw [hmap]
  refine { h with
    entries := fun k data' hdata' => ?_
    inserting := fun j data' hdata' => by cases (hothers j).symm.trans hdata'
    opened := fun hopen n k hstream => .inl ?_
    pending := fun field hmem => ?_
    cleared := fun hcleared => by cases ((h.cleared hcleared).1.1 i).symm.trans hinsert }
  · dsimp only at hdata'
    by_cases hk : k = data.streamId
    · subst hk
      rw [Function.update_self] at hdata'
      cases hdata'
      exact ⟨rfl, n, hsession, hsubmitted⟩
    · rw [Function.update_of_ne hk] at hdata'
      exact h.entries k data' hdata'
  · obtain hentry | ⟨j, data', hdata', rfl⟩ := h.opened hopen n k hstream
    · exact (hkept k hentry).trans_ne hentry
    · by_cases hj : j = i
      · subst hj
        cases hinsert.symm.trans hdata'
        simp
      · have hother := hothers j
        rw [Function.update_of_ne hj] at hother
        cases hother.symm.trans hdata'
  · obtain ⟨hcurrent, hentry⟩ := h.pending field hmem
    exact ⟨hcurrent, (hkept _ hentry).trans_ne hentry⟩

theorem Inv.submit (h : s.Inv) (hfree : s.sendRecvLineRun = none) (hopen : ¬ s.Cleared) {n : Nat}
    (hsession : s.session = some n) (i : ι) (data : ρ) (writeable : Bool) :
    Inv { s with
      nextStreamId := s.nextStreamId + 2
      writeable
      sendRecvLineRun := some (.sender i)
      inserting := Function.update s.inserting i
        (some ⟨.requestSend, data, s.nextStreamId⟩)
      submitted := Function.update s.submitted n
        (Function.update (s.submitted n) s.nextStreamId (some data)) } := by
  obtain ⟨hn, hfresh⟩ := h.fresh n hsession
  have hkept : ∀ n' k, s.submitted n' k ≠ none → Function.update s.submitted n
      (Function.update (s.submitted n) s.nextStreamId (some data)) n' k = s.submitted n' k := by
    intro n' k hk
    by_cases hn' : n' = n
    · subst hn'
      rw [Function.update_self]
      refine Function.update_of_ne ?_ ..
      rintro rfl
      exact hk (hfresh _ le_rfl)
    · rw [Function.update_of_ne hn']
  have hentries : ∀ k data', s.streamDataMap k = some data' → s.submitted n k ≠ none := by
    intro k data' hdata'
    obtain ⟨-, n', hn', hsubmitted⟩ := h.entries k data' hdata'
    cases hsession.symm.trans hn'
    simp [hsubmitted]
  have hnone : s.streamDataMap s.nextStreamId = none := by
    by_contra hsome
    obtain ⟨data', hdata'⟩ := Option.ne_none_iff_exists'.mp hsome
    exact hentries _ data' hdata' (hfresh _ le_rfl)
  have hfirst : Function.update s.submitted n
      (Function.update (s.submitted n) s.nextStreamId (some data)) n s.nextStreamId = some data := by
    rw [Function.update_self, Function.update_self]
  refine { h with
    credits := fun credit hmem => ?_
    entries := fun k data' hdata' => ?_
    inserting := fun j data' hdata' => ?_
    opened := fun _ n' k hstream => ?_
    cleared := fun hcleared => absurd hcleared hopen
    fresh := fun n' hn' => ?_
    later := fun n' hn' k => ?_ }
  · obtain ⟨hentry, hcredit⟩ := h.credits credit hmem
    exact ⟨hentry, hcredit.trans (hkept _ _ (hcredit ▸ hentry)).symm⟩
  · obtain ⟨hk, n', hn', hsubmitted⟩ := h.entries k data' hdata'
    exact ⟨hk, n', hn', (hkept n' k (by simp [hsubmitted])).trans hsubmitted⟩
  · by_cases hj : j = i
    · subst hj
      dsimp only at hdata'
      rw [Function.update_self] at hdata'
      cases hdata'
      exact ⟨rfl, hnone, n, hsession, hfirst⟩
    · dsimp only at hdata'
      rw [Function.update_of_ne hj] at hdata'
      cases (h.inserting_none hfree j).symm.trans hdata'
  · obtain ⟨hn', hsubmitted, hanswer⟩ := hstream
    cases hsession.symm.trans hn'
    by_cases hk : k = s.nextStreamId
    · subst hk
      exact .inr ⟨i, _, Function.update_self .., rfl⟩
    · dsimp only at hsubmitted
      rw [Function.update_self, Function.update_of_ne hk] at hsubmitted
      obtain hentry | ⟨j, data', hdata', -⟩ := h.opened hopen n k ⟨hsession, hsubmitted, hanswer⟩
      · exact .inl hentry
      · cases (h.inserting_none hfree j).symm.trans hdata'
  · cases hsession.symm.trans hn'
    refine ⟨hn, fun k hk => ?_⟩
    have hne : k ≠ s.nextStreamId := by
      rintro rfl
      exact absurd hk (by simp)
    simp only [Function.update_self, Function.update_of_ne hne]
    exact hfresh k (Nat.le_of_add_right_le hk)
  · have hne : n' ≠ n := by
      rintro rfl
      exact absurd hn (Nat.not_lt_of_le hn')
    simp only [Function.update_of_ne hne]
    exact h.later n' hn' k

theorem Inv.send [DecidableEq ρ] (h : s.Inv) (hfree : s.sendRecvLineRun = none) {i : ι} {data : ρ}
    {written : FrameWritten} (hclosing : s.closing (.sender i) = none)
    (hopen : s.Submits written → ¬ s.Cleared) : (s.send i data written).Inv := by
  have hskip := h.skip (Nat.le_add_right s.nextStreamId 2)
  rw [CHttp2Socket.send]
  split
  case h_1 => exact h
  case h_2 n hsession =>
    by_cases hrefused : s.writeable = false ∨ written = .refused
    · rw [if_pos hrefused]
      exact h
    · rw [if_neg hrefused]
      dsimp only
      by_cases hsocket : s.socket = false
      · rw [if_pos hsocket]
        exact hskip
      · rw [if_neg hsocket]
        split
        · exact (hskip.lock hfree (.sender i)).close hclosing
        · have hsubmits : s.Submits written := by
            refine ⟨by simp [hsession], ?_, ?_, ?_⟩
            · simpa using not_or.mp hrefused |>.1
            · simpa using hsocket
            · cases written <;> simp_all
          exact h.submit hfree (hopen hsubmits) hsession i data _

theorem Inv.step [DecidableEq ρ] {e : Event ι ρ} (h : s.Inv) (hgood : s.Good e)
    (hstep : s.step e = some s') : s'.Inv := by
  cases e with
  | send i data written =>
    obtain ⟨⟨hfree, hclosing⟩, hsend⟩ := Option.ite_none_right_eq_some.mp hstep
    cases hsend
    exact h.send hfree hclosing hgood
  | insert i =>
    simp only [CHttp2Socket.step] at hstep
    split at hstep
    · cases hstep
    · cases hstep
      exact h.insert ‹_›
  | recv stream header =>
    obtain ⟨⟨hfree, -, -⟩, hrecv⟩ := Option.ite_none_right_eq_some.mp hstep
    exact h.recv hfree hgood hrecv
  | recvFailed =>
    obtain ⟨⟨hfree, hclosing, -⟩, hs'⟩ := Option.ite_none_right_eq_some.mp hstep
    cases hs'
    exact (h.lock hfree .dispatch).close hclosing
  | header =>
    simp only [CHttp2Socket.step] at hstep
    split at hstep
    · cases hstep
    · obtain ⟨-, hs'⟩ := Option.ite_none_right_eq_some.mp hstep
      cases hs'
      exact h.header ‹_›
  | onWrite =>
    cases hstep
    exact { h with }
  | close check =>
    cases check with
    | false =>
      obtain ⟨hclosing, hs'⟩ := Option.ite_none_right_eq_some.mp hstep
      cases hs'
      exact h.close hclosing.1
    | true =>
      obtain ⟨hclosing, hs'⟩ := Option.ite_none_right_eq_some.mp hstep
      cases hs'
      exact h.close hclosing.1
  | closeStep c =>
    simp only [CHttp2Socket.step, CHttp2Socket.closeStep] at hstep
    split at hstep
    · cases hstep
    · cases hstep
      exact h.clear (hgood ‹_›)
    · cases hstep
      exact h.closeSocket ‹_›
    · cases hstep
      exact h.sessionDel ‹_› _ _
  | reconnect ok =>
    exact h.reconnectStep hstep

end Kept

theorem inv_start : Inv ({} : CHttp2Socket ι ρ) where
  credits := List.forall_mem_nil _
  entries _ _ hdata := by cases hdata
  inserting _ _ hdata := by cases hdata
  opened _ _ _ hopen := absurd rfl hopen.2.1
  pending := List.forall_mem_nil _
  lasts := List.Pairwise.nil
  complete := List.forall_mem_nil _
  cleared hcleared := by
    obtain ⟨c, hclosing | hclosing⟩ := hcleared <;> cases hclosing
  fresh n hn := by
    cases hn
    exact ⟨Nat.zero_lt_one, fun _ _ => rfl⟩
  later _ _ _ := rfl
  reconnect hne := absurd rfl hne

/-- In a run in which `Close` clears the map and deletes the session at quiet times, the answers are
credited to their requests. -/
theorem attributed_of_good [DecidableEq ι] [DecidableEq ρ] {s : CHttp2Socket ι ρ}
    (h : Run.Reaches step Good {} s) : s.Attributed :=
  (h.invariant Inv inv_start fun _ _ _ hinv hgood hstep => hinv.step hgood hstep).credits

section Runs

variable [Fintype ι]

instance decidableCleared (s : CHttp2Socket ι ρ) : Decidable s.Cleared :=
  let cleared (c : Closer ι) : Prop :=
    s.closing c = some .closeSocket ∨ s.closing c = some .sessionDel
  decidable_of_iff ((∃ i, cleared (.sender i)) ∨ cleared .dispatch ∨ cleared .check) <| by
    constructor
    · rintro (⟨i, h⟩ | h | h)
      · exact ⟨.sender i, h⟩
      · exact ⟨.dispatch, h⟩
      · exact ⟨.check, h⟩
    · rintro ⟨i | _ | _, h⟩
      · exact .inl ⟨i, h⟩
      · exact .inr (.inl h)
      · exact .inr (.inr h)

instance decidableQuiet (s : CHttp2Socket ι ρ) : Decidable s.Quiet :=
  inferInstanceAs (Decidable (_ ∧ _))

instance decidableGood (s : CHttp2Socket ι ρ) : (e : Event ι ρ) → Decidable (s.Good e)
  | .send _ _ written => inferInstanceAs (Decidable ((_ ∧ _ ∧ _ ∧ (written = .all ∨ _)) → ¬ s.Cleared))
  | .recv .. => inferInstanceAs (Decidable (¬ s.Cleared))
  | .closeStep c => inferInstanceAs (Decidable (s.closing c = some .clear → s.Quiet))
  | .insert _ | .recvFailed | .header | .onWrite | .close _ | .reconnect _ => .isTrue trivial

end Runs

/-- `Close` of the thread that checks the heartbeats, and then `ReConnect`. -/
def renewal : List (Event Unit Nat) :=
  [.closeStep .check, .closeStep .check, .reconnect true, .reconnect true, .reconnect true]

/-- Two requests have the same stream in two sessions, one after the other. -/
def twoSessions : List (Event Unit Nat) :=
  let first : List (Event Unit Nat) :=
    [.send () 7 .all, .insert (), .recv 1 (.status "200"), .recv 1 (.apnsId "7"), .header, .header,
      .send () 8 .wouldBlock, .insert (), .close true, .closeStep .check]
  let second : List (Event Unit Nat) :=
    [.send () 9 .all, .insert (), .recv 1 (.status "403"), .header, .recv 1 (.apnsId "9"), .header]
  first ++ renewal ++ second

theorem attributed_of_good_twoSessions :
    ((Run.runGood step Good {} twoSessions).map fun s => (s.respone, s.apnsRetStatus 9)) =
        some ([7, 9], "403") ∧
      ∀ s ∈ Run.runGood step Good {} twoSessions, s.Attributed :=
  ⟨by decide, fun _ hrun => attributed_of_good (Run.reaches_of_runGood hrun)⟩

/-- The map is cleared between a submission and its insertion. -/
def lateInsertion : List (Event Unit Nat) :=
  let first : List (Event Unit Nat) :=
    [.send () 1 .all, .close true, .closeStep .check, .insert ()]
  let second : List (Event Unit Nat) :=
    [.send () 2 .all, .insert (), .recv 1 (.status "200"), .header]
  first ++ renewal ++ second

/-- The map is cleared, and an answer comes before the session is deleted. -/
def lateAnswer : List (Event Unit Nat) :=
  [.send () 1 .all, .insert (), .close true, .closeStep .check, .recv 1 (.status "200"), .header]

theorem not_attributed_kept :
    (∃ s, Run.run step {} lateInsertion = some s ∧
      s.credits = [⟨1, 1, some 1⟩] ∧ s.submitted 1 1 = some 2) ∧
    (∃ s, Run.run step {} lateAnswer = some s ∧
      s.credits = [⟨0, 1, none⟩] ∧ s.submitted 0 1 = some 1) :=
  ⟨⟨_, rfl, by decide⟩, ⟨_, rfl, by decide⟩⟩

end CHttp2Socket

end ImServer
