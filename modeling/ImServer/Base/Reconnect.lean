import ImServer.Base.ServerLink

/-!
# Reconnecting to associated servers

An entry without a link waits for as many ticks of the timer as its counter says, and then
an attempt is made. The counters stay in range in every run. An entry with a link is in
order only if the attempt that made the link got a handle: `serv_init` and
`serv_check_reconnect` set `serv_conn` without looking at it.
-/

namespace ImServer

/-- The counters of an entry that is tried again when it loses its link. -/
structure ServInfo.InRange (e : ServInfo) : Prop where
  pos : 0 < e.reconnectCnt.toNat
  le : e.reconnectCnt.toNat ≤ maxReconnectCnt.toNat
  idle : e.servConn = none → e.idleCnt.toNat < e.reconnectCnt.toNat

theorem ServInfo.inRange_of_idle {e : ServInfo} (hpos : 0 < e.reconnectCnt.toNat)
    (hle : e.reconnectCnt.toNat ≤ maxReconnectCnt.toNat)
    (hidle : e.servConn = none → e.idleCnt = 0) : e.InRange := by
  refine ⟨hpos, hle, ?_⟩
  intro hnull
  rw [hidle hnull]
  exact hpos

namespace CServerLinkMgr

variable {m m' : CServerLinkMgr} {c : SocketId} {r r' : EntryRef} {fd : Fd} {handles : Handles}
  {s s' : CServerLinkMgr × Handles} {e : Event} {events : List Event}

theorem servReset_inRange (h : (m.entries r).InRange) : ((m.servReset r).entries r).InRange := by
  have hdouble : ((m.entries r).reconnectCnt * 2).toNat = (m.entries r).reconnectCnt.toNat * 2 := by
    have hle : (m.entries r).reconnectCnt.toNat ≤ 64 := h.le
    rw [UInt32.toNat_mul]
    exact Nat.mod_eq_of_lt (by change _ * 2 < 4294967296; omega)
  simp only [servReset, modifyEntry, Function.update_self]
  apply ServInfo.inRange_of_idle
  · simp only
    split
    · decide
    · rw [hdouble]
      exact Nat.mul_pos h.pos (by decide)
  · simp only
    split
    · decide
    · next hsmall => exact Nat.le_of_not_lt fun hlt => hsmall (UInt32.lt_iff_toNat_lt.mpr hlt)
  · exact fun _ => rfl

theorem servInitEntry_entries (h : servInitEntry s r = some s') :
    (∀ r' ≠ r, s'.1.entries r' = s.1.entries r') ∧
      ((s.1.entries r).servConn ≠ none ∧ s'.1.entries r = s.1.entries r ∨
        (s'.1.entries r).servConn ≠ none ∧
          (s'.1.entries r).reconnectCnt = minReconnectCnt / 2) := by
  unfold servInitEntry at h
  split at h
  · obtain ⟨s₁, hs₁, rfl⟩ := Option.map_eq_some_iff.mp h
    obtain ⟨handle, -, -, hattempt⟩ := connectEntry_eq_some hs₁
    simp only [hattempt, modifyEntry, attempted_entries]
    constructor
    · intro r' hr'
      simp only [Function.update_of_ne hr']
    · refine .inr ⟨?_, ?_⟩ <;> simp only [Function.update_self]
      exact Option.some_ne_none _
  · next hconn =>
    cases h
    exact ⟨fun _ _ => rfl, .inl ⟨hconn, rfl⟩⟩

theorem servCheckEntry_entries (h : servCheckEntry s r = some s') :
    (∀ r' ≠ r, s'.1.entries r' = s.1.entries r') ∧
      (¬ ((s.1.entries r).servConn = none ∧ 0 < (s.1.entries r).reconnectCnt) ∧
          s'.1.entries r = s.1.entries r ∨
        (s.1.entries r).servConn = none ∧
          (s'.1.entries r).reconnectCnt = (s.1.entries r).reconnectCnt ∧
          ((s'.1.entries r).servConn ≠ none ∨
            (s'.1.entries r).idleCnt = (s.1.entries r).idleCnt + 1 ∧
              (s'.1.entries r).idleCnt < (s'.1.entries r).reconnectCnt)) := by
  unfold servCheckEntry at h
  split at h
  · next hnull =>
    simp only at h
    split at h
    · obtain ⟨handle, -, -, hattempt⟩ := connectEntry_eq_some h
      simp only [hattempt, modifyEntry, attempted_entries]
      constructor
      · intro r' hr'
        simp only [Function.update_of_ne hr']
      · refine .inr ⟨hnull.1, ?_, .inl ?_⟩ <;> simp only [Function.update_self]
        exact Option.some_ne_none _
    · next hwait =>
      cases h
      simp only [modifyEntry, Function.update_self] at hwait ⊢
      constructor
      · intro r' hr'
        rw [Function.update_of_ne hr']
      · exact .inr ⟨hnull.1, trivial, .inr ⟨trivial, UInt32.not_le.mp hwait⟩⟩
  · next hskip =>
    cases h
    exact ⟨fun _ _ => rfl, .inl ⟨hskip, rfl⟩⟩

theorem servInitEntry_inRange (h : servInitEntry s r = some s') (hr' : (s.1.entries r').InRange) :
    (s'.1.entries r').InRange := by
  obtain ⟨hother, heq⟩ := servInitEntry_entries h
  by_cases hr : r' = r
  · subst hr
    obtain ⟨-, heq⟩ | ⟨hconn, hcnt⟩ := heq
    · rwa [heq]
    · apply ServInfo.inRange_of_idle
      · rw [hcnt]
        decide
      · rw [hcnt]
        decide
      · exact fun hnull => absurd hnull hconn
  · rwa [hother r' hr]

theorem servCheckEntry_inRange (h : servCheckEntry s r = some s') (hr' : (s.1.entries r').InRange) :
    (s'.1.entries r').InRange := by
  obtain ⟨hother, heq⟩ := servCheckEntry_entries h
  by_cases hr : r' = r
  · subst hr
    obtain ⟨-, heq⟩ | ⟨-, hcnt, hidle⟩ := heq
    · rwa [heq]
    · refine ⟨?_, ?_, ?_⟩
      · rw [hcnt]
        exact hr'.pos
      · rw [hcnt]
        exact hr'.le
      · intro hnull
        obtain hconn | ⟨-, hlt⟩ := hidle
        · exact absurd hnull hconn
        · exact UInt32.lt_iff_toNat_lt.mp hlt
  · rwa [hother r' hr]

theorem onConfirm_inRange (hinfo : (m.links c).assocSvrInfo = some r)
    (hconn : (m.entries r).servConn = some c) (hr' : (m.entries r').InRange) :
    ((m.onConfirm c).entries r').InRange := by
  rw [onConfirm_eq hinfo]
  simp only [assocSvrRegist, modify, modifyEntry]
  by_cases hr : r' = r
  · subst hr
    simp only [Function.update_self]
    apply ServInfo.inRange_of_idle
    · change 0 < (minReconnectCnt / 2).toNat
      decide
    · change (minReconnectCnt / 2).toNat ≤ _
      decide
    · intro hnull
      rw [hconn] at hnull
      cases hnull
  · rwa [Function.update_of_ne hr]

theorem addLinkBySessionId_entries (sid : UidCode) :
    (m.addLinkBySessionId sid c).entries = m.entries := by
  unfold addLinkBySessionId
  split <;> rfl

theorem handlePdu_entries (pdu : AssocPdu) : (m.handlePdu c pdu).entries = m.entries := by
  unfold handlePdu onAssocSvrRegistAck
  split
  · rfl
  · split
    · split
      · rfl
      · exact addLinkBySessionId_entries pdu.sessionId
    · rfl

theorem Closed.inRange (h : Closed m m' c fd r) (hr' : (m.entries r').InRange) :
    (m'.entries r').InRange := by
  rw [h.entries]
  by_cases heq : r' = r
  · subst heq
    exact servReset_inRange hr'
  · simp only [servReset, modifyEntry, Function.update_of_ne heq]
    exact hr'

theorem inRange_step (hlinked : m.Linked) (h : ∀ r ∈ m.refs, (m.entries r).InRange)
    (hstep : m.step e = some m') : ∀ r ∈ m.refs, (m'.entries r).InRange := by
  cases effect_step hstep with
  | servInit run =>
    intro r hr
    exact Run.run_invariant (fun s => (s.1.entries r).InRange) (h r hr)
      (fun _ _ _ _ hs hbody => servInitEntry_inRange hbody hs) run
  | timeout run =>
    intro r hr
    exact Run.run_invariant (fun s => (s.1.entries r).InRange) (h r hr)
      (fun _ _ _ _ hs hbody => servCheckEntry_inRange hbody hs) run
  | ignored => exact h
  | confirmed found =>
    intro r hr
    obtain ⟨-, r', hr', hconn⟩ := hlinked.link _ _ found
    exact onConfirm_inRange hr' hconn (h r hr)
  | handled found =>
    intro r hr
    rw [handlePdu_entries]
    exact h r hr
  | closed found =>
    intro r hr
    obtain ⟨hhandle, r', hr', -⟩ := hlinked.link _ _ found
    exact (closed_close hhandle hr').inRange (h r hr)

theorem inRange_servInit {services : List AssocSvrInfo} {host : EntryRef → String × UInt16}
    (h : (unconnected services host).servInit handles = some m) :
    ∀ r ∈ (unconnected services host).refs, (m.entries r).InRange := by
  -- an entry that was not reached yet has no link, one that has a link was reached
  refine Run.run_establishes
    (fun s => ∀ r, (s.1.entries r).servConn = none ∨ (s.1.entries r).InRange)
    (fun r s => (s.1.entries r).InRange) (fun _ => .inl rfl) ?_ ?_ (forEntries_eq_some h)
  · intro s s' r _ hinv hbody
    obtain ⟨hother, heq⟩ := servInitEntry_entries hbody
    have hr : (s'.1.entries r).InRange := by
      obtain ⟨hconn, heq⟩ | ⟨hconn, hcnt⟩ := heq
      · rw [heq]
        exact (hinv r).resolve_left hconn
      · apply ServInfo.inRange_of_idle
        · rw [hcnt]
          decide
        · rw [hcnt]
          decide
        · exact fun hnull => absurd hnull hconn
    refine ⟨?_, hr⟩
    intro r'
    by_cases hr' : r' = r
    · subst hr'
      exact .inr hr
    · rw [hother r' hr']
      exact hinv r'
  · intro s s' r _ r' _ hr' hbody
    exact servInitEntry_inRange hbody hr'

/-- An entry without a link is tried, or it has waited for `n` ticks more. -/
def Waited (before after : ServInfo) (n : Nat) : Prop :=
  after.servConn ≠ none ∨
    after.servConn = none ∧ after.reconnectCnt = before.reconnectCnt ∧
      before.idleCnt.toNat + n ≤ after.idleCnt.toNat

theorem Waited.refl {e : ServInfo} (hnull : e.servConn = none) : Waited e e 0 :=
  .inr ⟨hnull, rfl, Nat.le_refl _⟩

theorem Waited.mono {before after : ServInfo} {n k : Nat} (h : Waited before after n)
    (hk : k ≤ n) : Waited before after k := by
  obtain hconn | ⟨hnull, hcnt, hle⟩ := h
  · exact .inl hconn
  · exact .inr ⟨hnull, hcnt, Nat.le_trans (Nat.add_le_add_left hk _) hle⟩

theorem waited_servInitEntry (h : servInitEntry s r = some s') {before : ServInfo}
    (hw : Waited before (s.1.entries r') 0) : Waited before (s'.1.entries r') 0 := by
  obtain ⟨hother, heq⟩ := servInitEntry_entries h
  by_cases hr : r' = r
  · subst hr
    obtain ⟨-, heq⟩ | ⟨hconn, -⟩ := heq
    · rwa [heq]
    · exact .inl hconn
  · rwa [hother r' hr]

theorem idle_succ {i : ServInfo} (h : i.InRange) (hnull : i.servConn = none) :
    (i.idleCnt + 1).toNat = i.idleCnt.toNat + 1 := by
  have hlt := h.idle hnull
  have hle : i.reconnectCnt.toNat ≤ 64 := h.le
  rw [UInt32.toNat_add]
  exact Nat.mod_eq_of_lt (by change _ + 1 < 4294967296; omega)

/-- The body of `serv_check_reconnect` makes its entry wait one tick more. -/
theorem waited_servCheckEntry (h : servCheckEntry s r = some s') {before : ServInfo} {n : Nat}
    (hrange : (s.1.entries r').InRange) (hw : Waited before (s.1.entries r') n) :
    Waited before (s'.1.entries r') (if r' = r then n + 1 else n) := by
  obtain ⟨hother, heq⟩ := servCheckEntry_entries h
  by_cases hr : r' = r
  · subst hr
    rw [if_pos rfl]
    obtain ⟨hskip, heq⟩ | ⟨hnull, hcnt, hidle⟩ := heq
    · left
      rw [heq]
      exact fun hnull => hskip ⟨hnull, UInt32.lt_iff_toNat_lt.mpr hrange.pos⟩
    · by_cases hconn : (s'.1.entries r').servConn = none
      · obtain ⟨hidle, -⟩ := hidle.resolve_left (not_not_intro hconn)
        obtain ⟨-, hbefore, hle⟩ := hw.resolve_left (not_not_intro hnull)
        refine .inr ⟨hconn, hcnt.trans hbefore, ?_⟩
        rw [hidle, idle_succ hrange hnull]
        exact Nat.succ_le_succ hle
      · exact .inl hconn
  · rw [if_neg hr, hother r' hr]
    exact hw

theorem waited_step (hlinked : m.Linked) (hrange : ∀ r ∈ m.refs, (m.entries r).InRange)
    (hr : r ∈ m.refs) (hnull : (m.entries r).servConn = none) (hstep : m.step e = some m') :
    Waited (m.entries r) (m'.entries r) (if e.isTick then 1 else 0) := by
  have hself : Waited (m.entries r) (m.entries r) 0 := .refl hnull
  -- a link that is found has an entry of its own
  have hother : ∀ {fd c r'}, m.net.linkMap .server fd = some c →
      (m.links c).assocSvrInfo = some r' → r ≠ r' := by
    rintro fd c r' hc hr' rfl
    obtain ⟨-, r'', hr'', hconn⟩ := hlinked.link fd c hc
    obtain rfl : r = r'' := Option.some.inj (hr'.symm.trans hr'')
    rw [hnull] at hconn
    cases hconn
  cases effect_step hstep with
  | servInit run =>
    exact Run.run_invariant (fun s => Waited (m.entries r) (s.1.entries r) 0) hself
      (fun _ _ _ _ hs hbody => waited_servInitEntry hbody hs) run
  | timeout run =>
    refine Run.run_establishes
      (fun s => (s.1.entries r).InRange ∧ Waited (m.entries r) (s.1.entries r) 0)
      (fun r' s => r = r' → Waited (m.entries r) (s.1.entries r) 1) ⟨hrange r hr, hself⟩ ?_ ?_
      run r hr rfl
    · rintro s s' r' - ⟨hs, hw⟩ hbody
      have hw' := waited_servCheckEntry hbody hs hw
      refine ⟨⟨servCheckEntry_inRange hbody hs, hw'.mono (Nat.zero_le _)⟩, ?_⟩
      intro heq
      rwa [if_pos heq] at hw'
    · rintro s s' r' - r'' ⟨hs, -⟩ hpost hbody heq
      have hw' := waited_servCheckEntry hbody hs (hpost heq)
      refine hw'.mono ?_
      split
      · exact Nat.le_succ 1
      · exact Nat.le_refl 1
  | ignored message =>
    rw [message]
    exact hself
  | confirmed found =>
    obtain ⟨-, r', hr', -⟩ := hlinked.link _ _ found
    rw [onConfirm_eq hr']
    simp only [assocSvrRegist, modify, modifyEntry, Function.update_of_ne (hother found hr')]
    exact hself
  | handled found =>
    rw [handlePdu_entries]
    exact hself
  | closed found =>
    obtain ⟨hhandle, r', hr', -⟩ := hlinked.link _ _ found
    rw [(closed_close hhandle hr').entries]
    simp only [servReset, modifyEntry, Function.update_of_ne (hother found hr')]
    exact hself

/-- In every run with so many ticks an attempt is made for the entry. -/
def TriedWithin (m : CServerLinkMgr) (r : EntryRef) (n : Nat) : Prop :=
  ∀ events m', Run.run step m events = some m' → n ≤ events.countP Event.isTick →
    ∃ before, before <+: events ∧
      ∃ m₁, Run.run step m before = some m₁ ∧ (m₁.entries r).servConn ≠ none

theorem triedWithin (hlinked : m.Linked) (hrange : ∀ r ∈ m.refs, (m.entries r).InRange)
    (hr : r ∈ m.refs) (hnull : (m.entries r).servConn = none) :
    m.TriedWithin r ((m.entries r).reconnectCnt.toNat - (m.entries r).idleCnt.toNat) := by
  intro events
  induction events generalizing m with
  | nil =>
    intro m' _ hticks
    have hidle := (hrange r hr).idle hnull
    simp only [List.countP_nil] at hticks
    omega
  | cons e events ih =>
    intro m' hrun hticks
    obtain ⟨m₁, hstep, hrest⟩ := Run.run_cons.mp hrun
    obtain hconn | ⟨hnull₁, hcnt, hidle⟩ := waited_step hlinked hrange hr hnull hstep
    · refine ⟨[e], ⟨events, rfl⟩, m₁, ?_, hconn⟩
      exact Run.run_cons.mpr ⟨m₁, hstep, rfl⟩
    · have hrefs : m₁.refs = m.refs := by rw [refs, services_step hlinked hstep, refs]
      have hrange₁ : ∀ r ∈ m₁.refs, (m₁.entries r).InRange := by
        rw [hrefs]
        exact inRange_step hlinked hrange hstep
      have hticks₁ : (m₁.entries r).reconnectCnt.toNat - (m₁.entries r).idleCnt.toNat ≤
          events.countP Event.isTick := by
        rw [List.countP_cons] at hticks
        rw [hcnt]
        omega
      obtain ⟨before, ⟨after, happend⟩, m₂, hrun₂, htried⟩ :=
        ih (hlinked.step hstep) hrange₁ (hrefs ▸ hr) hnull₁ m' hrest hticks₁
      refine ⟨e :: before, ⟨after, by rw [List.cons_append, happend]⟩, m₂, ?_, htried⟩
      exact Run.run_cons.mpr ⟨m₁, hstep, hrun₂⟩

/-- Every link of an entry points back to it and is in the physical map. -/
def Open (m : CServerLinkMgr) : Prop :=
  ∀ r c, (m.entries r).servConn = some c →
    (m.links c).assocSvrInfo = some r ∧ ∃ fd, m.net.linkMap .server fd = some c

theorem Open.same (h : m.Open) (hsame : SameLinks m m') : m'.Open := by
  intro r c hc
  rw [hsame.servConn] at hc
  rw [hsame.assocSvrInfo, hsame.net]
  exact h r c hc

theorem Open.attempted (h : m.Open) (hlinked : m.Linked) (hfree : m.net.socketMap fd = none) :
    (m.attempted r (some fd)).Open := by
  have hfree' : ∀ fd' ∈ some fd, m.net.socketMap fd' = none := by
    rintro fd' ⟨⟩
    exact hfree
  intro r' c hc
  rw [attempted_links]
  simp only [hlinked.attempted_linkMap hfree']
  rw [attempted_entries] at hc
  by_cases hr : r' = r
  · subst hr
    rw [Function.update_self] at hc
    obtain rfl : m.net.next = c := Option.some.inj hc
    rw [Function.update_self]
    exact ⟨rfl, fd, .inl ⟨rfl, rfl⟩⟩
  · rw [Function.update_of_ne hr] at hc
    obtain ⟨hinfo, fd', hfd'⟩ := h r' c hc
    rw [Function.update_of_ne (Nat.ne_of_lt (hlinked.lt_next hfd'))]
    exact ⟨hinfo, fd', .inr hfd'⟩

theorem Open.closed (h : m.Open) (hlinked : m.Linked) (hc : m.net.linkMap .server fd = some c)
    (hinfo : (m.links c).assocSvrInfo = some r) (hclosed : Closed m m' c fd r) : m'.Open := by
  intro r' c' hc'
  rw [hclosed.entries] at hc'
  rw [hclosed.assocSvrInfo, hclosed.net, hlinked.net.closeLink_linkMap ⟨fd, .server⟩]
  by_cases hr : r' = r
  · subst hr
    simp only [servReset, modifyEntry, Function.update_self] at hc'
    cases hc'
  · simp only [servReset, modifyEntry, Function.update_of_ne hr] at hc'
    obtain ⟨hinfo', fd', hfd'⟩ := h r' c' hc'
    refine ⟨hinfo', fd', Index.update_none_eq_some.mpr ⟨?_, hfd'⟩⟩
    rintro rfl
    obtain rfl : c = c' := Option.some.inj (hc.symm.trans hfd')
    exact hr (Option.some.inj (hinfo'.symm.trans hinfo))

/-- No attempt of the event fails at once: `netlib_connect` gives a handle for each, which may still
be lost later. -/
def HandlesValid : Event → Prop
  | .servInit handles => none ∉ handles
  | .timeout handles => none ∉ handles
  | _ => True

instance (e : Event) : Decidable (HandlesValid e) := by
  cases e <;> unfold HandlesValid <;> infer_instance

/-- The part of the invariant that a loop keeps while its attempts get handles. -/
def LoopOpen (s : CServerLinkMgr × Handles) : Prop := s.1.Linked ∧ s.1.Open ∧ none ∉ s.2

theorem LoopOpen.bodyStep (h : LoopOpen s) (hbody : BodyStep s r s') : LoopOpen s' := by
  obtain ⟨hlinked, hopen, hvalid⟩ := h
  refine ⟨hbody.linked hlinked, ?_⟩
  cases hbody with
  | keep same => exact ⟨hopen.same same.sameLinks, hvalid⟩
  | @attempt m₁ m' handle handles before null taken free after =>
    rw [taken, List.mem_cons, not_or] at hvalid
    refine ⟨?_, hvalid.2⟩
    cases handle with
    | none => exact absurd rfl hvalid.1
    | some fd =>
      have hopen₁ := (hopen.same before.sameLinks).attempted (r := r)
        (hlinked.same before.sameLinks) (free fd rfl)
      exact hopen₁.same after.sameLinks

theorem Open.step (h : m.Open) (hlinked : m.Linked) (hvalid : HandlesValid e)
    (hstep : m.step e = some m') : m'.Open := by
  cases effect_step hstep with
  | @servInit handles _ run =>
    have hloop : LoopOpen (m, handles) := ⟨hlinked, h, hvalid⟩
    exact (Run.run_invariant LoopOpen hloop
      (fun _ _ _ _ hs hbody => hs.bodyStep (bodyStep_servInitEntry hbody)) run).2.1
  | @timeout handles _ run =>
    have hloop : LoopOpen (m, handles) := ⟨hlinked, h, hvalid⟩
    exact (Run.run_invariant LoopOpen hloop
      (fun _ _ _ _ hs hbody => hs.bodyStep (bodyStep_servCheckEntry hbody)) run).2.1
  | ignored => exact h
  | confirmed found =>
    obtain ⟨-, r, hr, -⟩ := hlinked.link _ _ found
    exact h.same (sameLinks_onConfirm hr)
  | handled found => exact h.same (sameLinks_handlePdu _)
  | closed found =>
    obtain ⟨hhandle, r, hr, -⟩ := hlinked.link _ _ found
    exact h.closed hlinked found hr (closed_close hhandle hr)

/-- The entry has a link with an open handle that the physical map finds. -/
def HasOpenLink (m : CServerLinkMgr) (r : EntryRef) : Prop :=
  ∃ c fd, (m.entries r).servConn = some c ∧ (m.links c).handle = some fd ∧
    m.net.socketMap fd = some c ∧ m.net.linkMap .server fd = some c

/-- The entry has no link, and an attempt is made within the ticks that its counters say. -/
structure IsRetried (m : CServerLinkMgr) (r : EntryRef) : Prop where
  null : (m.entries r).servConn = none
  inRange : (m.entries r).InRange
  tried : m.TriedWithin r ((m.entries r).reconnectCnt.toNat - (m.entries r).idleCnt.toNat)

/-- What holds in every state after the first attempts. -/
structure Connecting (m : CServerLinkMgr) : Prop where
  linked : m.Linked
  inRange : ∀ r ∈ m.refs, (m.entries r).InRange
  isOpen : m.Open

theorem connecting_servInit {services : List AssocSvrInfo} {host : EntryRef → String × UInt16}
    (h : (unconnected services host).servInit handles = some m) (hvalid : none ∉ handles) :
    m.Connecting := by
  have hlinked := linked_unconnected services host
  have hstep : (unconnected services host).step (.servInit handles) = some m := h
  have hopen : (unconnected services host).Open := fun r c hc => nomatch hc
  have hvalid : HandlesValid (.servInit handles) := hvalid
  refine ⟨hlinked.step hstep, ?_, hopen.step hlinked hvalid hstep⟩
  rw [refs, services_step hlinked hstep]
  exact inRange_servInit h

theorem Connecting.step (h : m.Connecting) (hvalid : HandlesValid e)
    (hstep : m.step e = some m') : m'.Connecting := by
  refine ⟨h.linked.step hstep, ?_, h.isOpen.step h.linked hvalid hstep⟩
  rw [refs, services_step h.linked hstep]
  exact inRange_step h.linked h.inRange hstep

theorem Connecting.hasOpenLink_or_isRetried (h : m.Connecting) (hr : r ∈ m.refs) :
    m.HasOpenLink r ∨ m.IsRetried r := by
  cases hconn : (m.entries r).servConn with
  | none => exact .inr ⟨hconn, h.inRange r hr, triedWithin h.linked h.inRange hr hconn⟩
  | some c =>
    obtain ⟨-, fd, hfd⟩ := h.isOpen r c hconn
    refine .inl ⟨c, fd, hconn, (h.linked.link fd c hfd).1, ?_, hfd⟩
    exact (h.linked.net.link .server fd c hfd).1

/-- In every run in which each attempt gets a handle, whatever becomes of it later, no
entry is stuck. -/
theorem no_entry_stuck {services : List AssocSvrInfo} {host : EntryRef → String × UInt16}
    {m₀ : CServerLinkMgr} (hinit : (unconnected services host).servInit handles = some m₀)
    (hhandles : none ∉ handles) (hreach : Run.Reaches step (fun _ e => HandlesValid e) m₀ m) :
    ∀ r ∈ m.refs, m.HasOpenLink r ∨ m.IsRetried r := by
  have hconnecting : m.Connecting := by
    refine hreach.invariant Connecting (connecting_servInit hinit hhandles) ?_
    intro m e m' hm hvalid hstep
    exact hm.step hvalid hstep
  intro r hr
  exact hconnecting.hasOpenLink_or_isRetried hr

/-- The connection is refused twice after it was started, and the second attempt waits for
four ticks. -/
theorem no_entry_stuck_after_refusal :
    ∃ m₀ m, oneServer.servInit [some 5] = some m₀ ∧
      Run.run step m₀ [.close 5, .timeout [], .timeout [], .timeout [], .timeout [some 7], .close 7]
        = some m ∧ ∀ r ∈ m.refs, m.HasOpenLink r ∨ m.IsRetried r := by
  have hrun : ∃ m₀ m, oneServer.servInit [some 5] = some m₀ ∧
      Run.run step m₀ [.close 5, .timeout [], .timeout [], .timeout [], .timeout [some 7], .close 7]
        = some m ∧
      Run.runGood step (fun _ e => HandlesValid e) m₀
        [.close 5, .timeout [], .timeout [], .timeout [], .timeout [some 7], .close 7] = some m :=
    ⟨_, _, rfl, rfl, rfl⟩
  obtain ⟨m₀, m, hinit, hrun, hgood⟩ := hrun
  exact ⟨m₀, m, hinit, hrun, no_entry_stuck hinit (by decide) (Run.reaches_of_runGood hgood)⟩

/-- An attempt that fails at once leaves the entry with a link that has no handle. -/
theorem entry_stuck_after_failed_connect :
    ∃ m₀ r, oneServer.servInit [none] = some m₀ ∧ r ∈ m₀.refs ∧
      ¬ (m₀.HasOpenLink r ∨ m₀.IsRetried r) := by
  have hinit : ∃ m₀, oneServer.servInit [none] = some m₀ ∧ ⟨0, 0⟩ ∈ m₀.refs ∧
      (m₀.entries ⟨0, 0⟩).servConn = some 0 ∧ (m₀.links 0).handle = none :=
    ⟨_, rfl, by decide, by decide, by decide⟩
  obtain ⟨m₀, hinit, hr, hconn, hhandle⟩ := hinit
  refine ⟨m₀, ⟨0, 0⟩, hinit, hr, ?_⟩
  rintro (⟨c, fd, hc, hfd, -⟩ | hretried)
  · obtain rfl : 0 = c := Option.some.inj (hconn.symm.trans hc)
    rw [hhandle] at hfd
    cases hfd
  · have hnull := hretried.null
    rw [hconn] at hnull
    cases hnull

end CServerLinkMgr

end ImServer
