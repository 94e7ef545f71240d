import ImServer.Base.ServerLink

/-!
# The session map of links to associated servers

`OnAssocSvrRegistAck` enters a link under the session id of the acknowledgement, and
`Close` removes the entry under the session id that the link has then. Nothing removes the
entry when the link takes another session id in between, from a second acknowledgement or
because it registers again.
-/

namespace ImServer

namespace CServerLinkMgr

variable {m m' : CServerLinkMgr} {c : SocketId} {r : EntryRef} {fd : Fd} {handles : Handles}
  {s s' : CServerLinkMgr × Handles} {e : Event} {sid : UidCode} {pdu : AssocPdu}

/-- The session id that the link `c` takes when it handles a packet. -/
def takenSession (m : CServerLinkMgr) (c : SocketId) (pdu : AssocPdu) : Option UidCode :=
  if (m.links c).bRegist = false ∧ pdu.commandId ≠ systemAssocsvrRegistAck then some zeroUid
  else if pdu.commandId = systemAssocsvrRegistAck then
    if pdu.registAck = none ∨ pdu.registAck = some errSysRegist then none
    else some pdu.sessionId
  else none

/-- The link `c` has no entry under the session id it has, or keeps that session id. -/
def MayTake (m : CServerLinkMgr) (c : SocketId) (sid : UidCode) : Prop :=
  m.sessionLink (m.links c).sessionId = some c → sid = (m.links c).sessionId

/-- No link with an entry in the session map takes another session id. -/
def SessionKept (m : CServerLinkMgr) : Event → Prop
  | .confirm fd => ∀ c ∈ m.net.linkMap .server fd, m.MayTake c zeroUid
  | .pdu fd pdu =>
    ∀ c ∈ m.net.linkMap .server fd, ∀ sid ∈ m.takenSession c pdu, m.MayTake c sid
  | _ => True

instance (m : CServerLinkMgr) (c : SocketId) (sid : UidCode) : Decidable (m.MayTake c sid) :=
  inferInstanceAs (Decidable (_ → _))

-- Session ids are finitely many; the decision is not to go through them.
instance (m : CServerLinkMgr) : (e : Event) → Decidable (m.SessionKept e)
  | .confirm fd => Option.decidableForallMem (m.net.linkMap .server fd)
  | .pdu fd pdu =>
    have (c : SocketId) : Decidable (∀ sid ∈ m.takenSession c pdu, m.MayTake c sid) :=
      Option.decidableForallMem (m.takenSession c pdu)
    Option.decidableForallMem (m.net.linkMap .server fd)
  | .servInit _ | .timeout _ | .close _ => .isTrue trivial

/-- The link `c` has the session id `sid`, and at most that entry is new. -/
structure Taken (m m' : CServerLinkMgr) (c : SocketId) (sid : UidCode) : Prop where
  net : m'.net = m.net
  own : (m'.links c).sessionId = sid
  other : ∀ c' ≠ c, (m'.links c').sessionId = (m.links c').sessionId
  entry : ∀ k c', m'.sessionLink k = some c' → m.sessionLink k = some c' ∨ k = sid ∧ c' = c

/-- No session id and no entry is changed. -/
structure SameSessions (m m' : CServerLinkMgr) : Prop where
  net : m'.net = m.net
  sessionId : ∀ c, (m'.links c).sessionId = (m.links c).sessionId
  sessionLink : m'.sessionLink = m.sessionLink

theorem taken_assocSvrRegist (c : SocketId) : Taken m (m.assocSvrRegist c) c zeroUid := by
  refine ⟨rfl, ?_, ?_, fun _ _ => .inl⟩
  · simp only [assocSvrRegist, modify, Function.update_self]
  · intro c' hc'
    simp only [assocSvrRegist, modify, Function.update_of_ne hc']

theorem taken_onConfirm (hinfo : (m.links c).assocSvrInfo = some r) :
    Taken m (m.onConfirm c) c zeroUid := by
  rw [onConfirm_eq hinfo]
  refine ⟨rfl, ?_, ?_, fun _ _ => .inl⟩
  · simp only [assocSvrRegist, modify, Function.update_self]
  · intro c' hc'
    simp only [assocSvrRegist, modify, modifyEntry, Function.update_of_ne hc']

theorem sameSessions_modify {f : CServerLink → CServerLink}
    (hsid : (f (m.links c)).sessionId = (m.links c).sessionId) :
    SameSessions m (m.modify c f) := by
  refine ⟨rfl, ?_, rfl⟩
  intro c'
  by_cases hc : c' = c
  · simp only [modify, hc, Function.update_self, hsid]
  · simp only [modify, Function.update_of_ne hc]

theorem Taken.same {m'' : CServerLinkMgr} (h : Taken m m' c sid) (hsame : SameSessions m' m'') :
    Taken m m'' c sid := by
  refine ⟨hsame.net.trans h.net, (hsame.sessionId c).trans h.own, ?_, ?_⟩
  · intro c' hc'
    exact (hsame.sessionId c').trans (h.other c' hc')
  · rw [hsame.sessionLink]
    exact h.entry

theorem taken_addLinkBySessionId (sid : UidCode) :
    Taken m ((m.modify c fun l => { l with sessionId := sid }).addLinkBySessionId sid c) c sid := by
  have hother : ∀ c' ≠ c, ((m.modify c fun l => { l with sessionId := sid }).links c').sessionId =
      (m.links c').sessionId := by
    intro c' hc'
    simp only [modify, Function.update_of_ne hc']
  have hown : ((m.modify c fun l => { l with sessionId := sid }).links c).sessionId = sid := by
    simp only [modify, Function.update_self]
  unfold addLinkBySessionId
  split
  · refine ⟨rfl, hown, hother, ?_⟩
    intro k c' hk
    obtain ⟨rfl, rfl⟩ | ⟨-, hk⟩ := Index.update_some_eq_some.mp hk
    · exact .inr ⟨rfl, rfl⟩
    · exact .inl hk
  · exact ⟨rfl, hown, hother, fun _ _ => .inl⟩

/-- `HandlePdu` lets the link take the session id that `takenSession` says, or changes no
session. -/
theorem handlePdu_sessions (m : CServerLinkMgr) (c : SocketId) (pdu : AssocPdu) :
    (∃ sid ∈ m.takenSession c pdu, Taken m (m.handlePdu c pdu) c sid) ∨
      SameSessions m (m.handlePdu c pdu) := by
  unfold handlePdu takenSession
  split
  · exact .inl ⟨zeroUid, rfl, taken_assocSvrRegist c⟩
  · split
    · unfold onAssocSvrRegistAck
      split
      · exact .inr (sameSessions_modify rfl)
      · refine .inl ⟨pdu.sessionId, rfl, ?_⟩
        exact (taken_addLinkBySessionId pdu.sessionId).same (sameSessions_modify rfl)
    · exact .inr ⟨rfl, fun _ => rfl, rfl⟩

/-- Every entry of the session map refers to a link in the physical map that has the
session id of the entry. -/
def SessionsOpen (m : CServerLinkMgr) : Prop :=
  ∀ sid c, m.sessionLink sid = some c →
    (m.links c).sessionId = sid ∧ ∃ fd, m.net.linkMap .server fd = some c

theorem SessionsOpen.same (h : m.SessionsOpen) (hsame : SameSessions m m') : m'.SessionsOpen := by
  intro sid c hc
  rw [hsame.sessionLink] at hc
  rw [hsame.sessionId, hsame.net]
  exact h sid c hc

theorem SessionsOpen.taken (h : m.SessionsOpen) (hc : m.net.linkMap .server fd = some c)
    (hmay : m.MayTake c sid) (htaken : Taken m m' c sid) : m'.SessionsOpen := by
  intro k c' hk
  rw [htaken.net]
  obtain hk | ⟨rfl, rfl⟩ := htaken.entry k c' hk
  · obtain ⟨hsid, hopen⟩ := h k c' hk
    refine ⟨?_, hopen⟩
    by_cases heq : c' = c
    · subst heq
      rw [htaken.own, hmay (by rw [hsid, hk]), hsid]
    · rw [htaken.other c' heq, hsid]
  · exact ⟨htaken.own, fd, hc⟩

theorem SessionsOpen.attempted (h : m.SessionsOpen) (hlinked : m.Linked) {handle : Option Fd}
    (hfree : ∀ fd ∈ handle, m.net.socketMap fd = none) : (m.attempted r handle).SessionsOpen := by
  intro sid c hc
  obtain ⟨hsid, fd, hfd⟩ := h sid c hc
  rw [attempted_links, Function.update_of_ne (Nat.ne_of_lt (hlinked.lt_next hfd))]
  exact ⟨hsid, fd, (hlinked.attempted_linkMap hfree).mpr (.inr hfd)⟩

theorem sameSessions_of_onlyCounters (h : OnlyCounters m m') : SameSessions m m' := by
  refine ⟨h.net, ?_, h.sessionLink⟩
  intro c
  rw [h.links]

theorem SessionsOpen.bodyStep (h : s.1.SessionsOpen) (hlinked : s.1.Linked)
    (hbody : BodyStep s r s') : s'.1.SessionsOpen := by
  cases hbody with
  | keep same => exact h.same (sameSessions_of_onlyCounters same)
  | attempt before null taken free after =>
    have h₁ := h.same (sameSessions_of_onlyCounters before)
    have h₂ := h₁.attempted (r := r) (hlinked.same before.sameLinks) free
    exact h₂.same (sameSessions_of_onlyCounters after)

theorem SessionsOpen.not_closed (h : m.SessionsOpen) (hclosed : Closed m m' c fd r)
    (sid : UidCode) : m'.sessionLink sid ≠ some c := by
  rw [hclosed.sessionLink]
  intro hc
  obtain ⟨hne, hc⟩ := Index.update_none_eq_some.mp hc
  exact hne (h sid c hc).1.symm

theorem SessionsOpen.closed (h : m.SessionsOpen) (hlinked : m.Linked)
    (hc : m.net.linkMap .server fd = some c) (hclosed : Closed m m' c fd r) :
    m'.SessionsOpen := by
  intro sid c' hc'
  have hne : c' ≠ c := by
    rintro rfl
    exact h.not_closed hclosed sid hc'
  rw [hclosed.sessionLink] at hc'
  obtain ⟨hsid, fd', hfd'⟩ := h sid c' (Index.update_none_eq_some.mp hc').2
  rw [hclosed.sessionId, hclosed.net, hlinked.net.closeLink_linkMap ⟨fd, .server⟩]
  refine ⟨hsid, fd', Index.update_none_eq_some.mpr ⟨?_, hfd'⟩⟩
  rintro rfl
  exact hne (Option.some.inj (hfd'.symm.trans hc))

theorem SessionsOpen.step (h : m.SessionsOpen) (hlinked : m.Linked) (hkept : m.SessionKept e)
    (hstep : m.step e = some m') : m'.SessionsOpen := by
  cases effect_step hstep with
  | servInit run =>
    refine (Run.run_invariant (fun s => s.1.Linked ∧ s.1.SessionsOpen) ⟨hlinked, h⟩ ?_ run).2
    rintro s s' r - ⟨hs, hsessions⟩ hbody
    have hstep := bodyStep_servInitEntry hbody
    exact ⟨hstep.linked hs, hsessions.bodyStep hs hstep⟩
  | timeout run =>
    refine (Run.run_invariant (fun s => s.1.Linked ∧ s.1.SessionsOpen) ⟨hlinked, h⟩ ?_ run).2
    rintro s s' r - ⟨hs, hsessions⟩ hbody
    have hstep := bodyStep_servCheckEntry hbody
    exact ⟨hstep.linked hs, hsessions.bodyStep hs hstep⟩
  | ignored => exact h
  | confirmed found =>
    obtain ⟨-, r, hr, -⟩ := hlinked.link _ _ found
    exact h.taken found (hkept _ found) (taken_onConfirm hr)
  | @handled fd c pdu found =>
    obtain ⟨sid, hsid, htaken⟩ | hsame := m.handlePdu_sessions c pdu
    · exact h.taken found (hkept c found sid hsid) htaken
    · exact h.same hsame
  | closed found =>
    obtain ⟨hhandle, r, hr, -⟩ := hlinked.link _ _ found
    exact h.closed hlinked found (closed_close hhandle hr)

/-- The link has a handle that is open and that the physical map finds it under. -/
def IsOpenLink (m : CServerLinkMgr) (c : SocketId) : Prop :=
  ∃ fd, (m.links c).handle = some fd ∧ m.net.socketMap fd = some c ∧
    m.net.linkMap .server fd = some c

/-- What is claimed of the session map in a state: its entries are open links under their own ids,
and a link that is closed leaves none behind. -/
structure SessionMapCurrent (m : CServerLinkMgr) : Prop where
  entry : ∀ sid c, m.sessionLink sid = some c → m.IsOpenLink c ∧ (m.links c).sessionId = sid
  closed : ∀ fd c m', m.net.linkMap .server fd = some c → m.step (.close fd) = some m' →
    ∀ sid, m'.sessionLink sid ≠ some c

theorem SessionsOpen.sessionMapCurrent (h : m.SessionsOpen) (hlinked : m.Linked) :
    m.SessionMapCurrent := by
  constructor
  · intro sid c hc
    obtain ⟨hsid, fd, hfd⟩ := h sid c hc
    have hsocket := (hlinked.net.link .server fd c hfd).1
    exact ⟨⟨fd, (hlinked.link fd c hfd).1, hsocket, hfd⟩, hsid⟩
  · intro fd c m' hc hstep
    obtain ⟨hhandle, r, hr, -⟩ := hlinked.link fd c hc
    simp only [CServerLinkMgr.step, imconnCallback, hc, Option.some.injEq] at hstep
    rw [← hstep]
    exact h.not_closed (closed_close hhandle hr)

/-- In every run in which no link with an entry takes another session id, the session map
refers to open links under their session ids. -/
theorem sessionMap_current {services : List AssocSvrInfo} {host : EntryRef → String × UInt16}
    (hreach : Run.Reaches step SessionKept (unconnected services host) m) :
    m.SessionMapCurrent := by
  have hinv : m.Linked ∧ m.SessionsOpen := by
    refine hreach.invariant (fun m => m.Linked ∧ m.SessionsOpen) ⟨linked_unconnected _ _, ?_⟩ ?_
    · intro sid c hc
      cases hc
    · rintro m e m' ⟨hlinked, hsessions⟩ hkept hstep
      exact ⟨hlinked.step hstep, hsessions.step hlinked hkept hstep⟩
  exact hinv.2.sessionMapCurrent hinv.1

/-- An acknowledgement with a session id of equal bytes. -/
def registAckOf (b : UInt8) : AssocPdu :=
  ⟨systemAssocsvrRegistAck, Vector.replicate 12 b, some 0⟩

/-- A link that is acknowledged, closed, and made again. -/
theorem sessionMap_current_after_reconnect :
    ∃ m, Run.run step oneServer [.servInit [some 5], .confirm 5, .pdu 5 (registAckOf 1), .close 5,
        .timeout [], .timeout [], .timeout [], .timeout [some 5], .confirm 5,
        .pdu 5 (registAckOf 2)] = some m ∧
      m.sessionLink (Vector.replicate 12 2) = some 1 ∧ m.SessionMapCurrent := by
  have hrun : (Run.runGood step SessionKept oneServer [.servInit [some 5], .confirm 5,
      .pdu 5 (registAckOf 1), .close 5, .timeout [], .timeout [], .timeout [], .timeout [some 5],
      .confirm 5, .pdu 5 (registAckOf 2)]).map (·.sessionLink (Vector.replicate 12 2)) =
        some (some 1) := by
    decide +kernel
  obtain ⟨m, hgood, hentry⟩ := Option.map_eq_some_iff.mp hrun
  exact ⟨m, Run.run_of_runGood hgood, hentry, sessionMap_current (Run.reaches_of_runGood hgood)⟩

/-- A second acknowledgement with another session id leaves the first entry behind, and
after the link is closed that entry refers to it. -/
theorem stale_entry_after_second_ack :
    ∃ m, Run.run step oneServer [.servInit [some 5], .confirm 5, .pdu 5 (registAckOf 1),
        .pdu 5 (registAckOf 2), .close 5] = some m ∧
      m.sessionLink (Vector.replicate 12 1) = some 0 ∧ ¬ m.IsOpenLink 0 ∧
      ¬ m.SessionMapCurrent := by
  have hrun : ∃ m, Run.run step oneServer [.servInit [some 5], .confirm 5, .pdu 5 (registAckOf 1),
        .pdu 5 (registAckOf 2), .close 5] = some m ∧
      m.sessionLink (Vector.replicate 12 1) = some 0 ∧ (m.links 0).handle = some 5 ∧
      m.net.linkMap .server 5 = none :=
    ⟨_, rfl, by decide, by decide, by decide⟩
  obtain ⟨m, hrun, hentry, hhandle, hnone⟩ := hrun
  have hclosed : ¬ m.IsOpenLink 0 := by
    rintro ⟨fd, hfd, -, hlink⟩
    obtain rfl : 5 = fd := Option.some.inj (hhandle.symm.trans hfd)
    rw [hnone] at hlink
    cases hlink
  exact ⟨m, hrun, hentry, hclosed, fun h => hclosed (h.entry _ _ hentry).1⟩

end CServerLinkMgr

end ImServer
