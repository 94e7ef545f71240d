import ImServer.Base.BaseSocket
import ImServer.Base.ClientLink
import ImServer.Lib.Run

/-!
# Links to associated servers

A server keeps a list of the associated servers it works with (base/serverinfo.h), each
entry with the link to that server and with counters that delay the next attempt to
connect. A link (`CServerLink`, base/serverlink.cpp) points back to its entry, registers
with the other server, and is entered into the session map of `CServerLinkMgr`
(base/serverlinkmgr.cpp) under the session id that the other server answers with.

The arrays of entries are named by numbers that are never used twice, so a pointer to an
entry is a number and an index. Links are named as in the network library. An attempt that
fails at once makes a link without a handle, which takes a name and nothing else. What
`netlib_connect` returns is an argument. The handlers of one process run one at a time, and
the reference that `imconn_callback` holds around a handler is left out. What is sent is
left out too.
-/

namespace ImServer

/-- A pointer to an entry: the array, and the index in it. -/
structure EntryRef where
  list : Nat
  index : Nat
  deriving DecidableEq, Repr

/-- `serv_info_t`. -/
structure ServInfo where
  serverIp : String := ""
  serverPort : UInt16 := 0
  idleCnt : UInt32 := 0
  reconnectCnt : UInt32 := 0
  servConn : Option SocketId := none
  deriving DecidableEq, Repr

def maxReconnectCnt : UInt32 := 64

def minReconnectCnt : UInt32 := 4

/-- `AssocSvrInfo_t`: the servers of one service. The list is an array that is named by its
number. -/
structure AssocSvrInfo where
  serviceId : Int16
  serviceCount : Int16
  serverList : Nat
  deriving DecidableEq, Repr

/-- The entries that a loop to `nServiceCount` goes over. A count below 0 makes it go over none. -/
def AssocSvrInfo.refs (service : AssocSvrInfo) : List EntryRef :=
  (List.range service.serviceCount.toInt.toNat).map fun j => ⟨service.serverList, j⟩

structure CServerLink where
  handle : Option Fd := none
  assocSvrInfo : Option EntryRef := none
  sessionId : UidCode := zeroUid
  bConnect : Bool := false
  bRegist : Bool := false
  refCount : Int := 1
  deriving DecidableEq, Repr

structure CServerLinkMgr where
  net : Netlib := {}
  links : SocketId → CServerLink := fun _ => {}
  /-- `m_pAssocSvrInfo`. -/
  services : List AssocSvrInfo := []
  entries : EntryRef → ServInfo := fun _ => {}
  nextList : Nat := 0
  /-- `m_mapSessionLink`. -/
  sessionLink : UidCode → Option SocketId := fun _ => none

/-- A packet from an associated server. The body counts only as an acknowledgement, with
the `nErr` it parses to. -/
structure AssocPdu where
  commandId : UInt16
  sessionId : UidCode
  registAck : Option Nat
  deriving DecidableEq, Repr

def systemAssocsvrRegistAck : UInt16 := 0x3006

def errSysRegist : Nat := 0x8001

/-- What `netlib_connect` returns to the attempts of a loop, in turn. -/
abbrev Handles := List (Option Fd)

namespace CServerLinkMgr

variable (m : CServerLinkMgr)

def modify (c : SocketId) (f : CServerLink → CServerLink) : CServerLinkMgr :=
  { m with links := Function.update m.links c (f (m.links c)) }

def modifyEntry (r : EntryRef) (f : ServInfo → ServInfo) : CServerLinkMgr :=
  { m with entries := Function.update m.entries r (f (m.entries r)) }

/-- All entries of all services, in the order of the loops over them. -/
def refs : List EntryRef := m.services.flatMap AssocSvrInfo.refs

def addLinkBySessionId (sid : UidCode) (c : SocketId) : CServerLinkMgr :=
  if m.sessionLink sid = none then
    { m with sessionLink := Function.update m.sessionLink sid (some c) }
  else m

def delLinkBySessionId (sid : UidCode) : CServerLinkMgr :=
  { m with sessionLink := Function.update m.sessionLink sid none }

/-- `CServerLink::Connect` of a new link, where `netlib_connect` returns `handle`. -/
def connect (r : EntryRef) (handle : Option Fd) : CServerLinkMgr :=
  { m with
    net := match handle with
      | some fd => m.net.connect fd
      | none => { m.net with next := m.net.next + 1 }
    links := Function.update m.links m.net.next { handle, assocSvrInfo := some r } }

/-- A new link for an entry. The system never returns a descriptor that is in use. -/
def connectEntry (r : EntryRef) : Handles → Option (CServerLinkMgr × Handles)
  | [] => none
  | handle :: handles =>
    if ∀ fd ∈ handle, m.net.socketMap fd = none then
      some ((m.connect r handle).modifyEntry r fun e => { e with servConn := some m.net.next },
        handles)
    else none

def servReset (r : EntryRef) : CServerLinkMgr :=
  m.modifyEntry r fun e =>
    { e with
      servConn := none, idleCnt := 0
      reconnectCnt := if maxReconnectCnt < e.reconnectCnt * 2 then minReconnectCnt
        else e.reconnectCnt * 2 }

/-- `CServerLink::Close`: the entry of the link is reset, its handle is closed, and the session map
forgets its id. -/
def close (c : SocketId) : CServerLinkMgr :=
  let l := m.links c
  let m := match l.assocSvrInfo with
    | none => m
    | some r => m.servReset r
  let m := match l.handle with
    | none => m
    | some fd => { m with net := m.net.closeLink ⟨fd, .server⟩ }
  (m.delLinkBySessionId l.sessionId).modify c fun l =>
    { l with bConnect := false, refCount := l.refCount - 1 }

def assocSvrRegist (c : SocketId) : CServerLinkMgr :=
  m.modify c fun l => { l with sessionId := zeroUid }

def onConfirm (c : SocketId) : CServerLinkMgr :=
  let m := m.modify c fun l => { l with bConnect := true }
  let m := match (m.links c).assocSvrInfo with
    | none => m
    | some r => m.modifyEntry r fun e => { e with reconnectCnt := minReconnectCnt / 2 }
  m.assocSvrRegist c

def onAssocSvrRegistAck (c : SocketId) (pdu : AssocPdu) : CServerLinkMgr :=
  if pdu.registAck = none ∨ pdu.registAck = some errSysRegist then
    m.modify c fun l => { l with bRegist := false }
  else
    let m := m.modify c fun l => { l with sessionId := pdu.sessionId }
    (m.addLinkBySessionId pdu.sessionId c).modify c fun l => { l with bRegist := true }

/-- `HandlePdu`. Other packets of a registered link are dispatched. -/
def handlePdu (c : SocketId) (pdu : AssocPdu) : CServerLinkMgr :=
  if (m.links c).bRegist = false ∧ pdu.commandId ≠ systemAssocsvrRegistAck then m.assocSvrRegist c
  else if pdu.commandId = systemAssocsvrRegistAck then m.onAssocSvrRegistAck c pdu
  else m

/-- The body of `serv_init`. -/
def servInitEntry (s : CServerLinkMgr × Handles) (r : EntryRef) :
    Option (CServerLinkMgr × Handles) :=
  if (s.1.entries r).servConn = none then
    (s.1.connectEntry r s.2).map fun s =>
      (s.1.modifyEntry r fun e => { e with idleCnt := 0, reconnectCnt := minReconnectCnt / 2 }, s.2)
  else some s

/-- The body of `serv_check_reconnect`. -/
def servCheckEntry (s : CServerLinkMgr × Handles) (r : EntryRef) :
    Option (CServerLinkMgr × Handles) :=
  if (s.1.entries r).servConn = none ∧ 0 < (s.1.entries r).reconnectCnt then
    let m := s.1.modifyEntry r fun e => { e with idleCnt := e.idleCnt + 1 }
    if (m.entries r).reconnectCnt ≤ (m.entries r).idleCnt then m.connectEntry r s.2
    else some (m, s.2)
  else some s

/-- A loop over all entries that makes as many attempts as there are `handles`. -/
def forEntries (body : CServerLinkMgr × Handles → EntryRef → Option (CServerLinkMgr × Handles))
    (handles : Handles) : Option CServerLinkMgr :=
  (Run.run body (m, handles) m.refs).bind fun s => if s.2 = [] then some s.1 else none

def servInit (handles : Handles) : Option CServerLinkMgr := m.forEntries servInitEntry handles

def servCheckReconnect (handles : Handles) : Option CServerLinkMgr :=
  m.forEntries servCheckEntry handles

inductive Event where
  | servInit (handles : Handles)
  /-- `ServerLinkTimeout`. -/
  | timeout (handles : Handles)
  | confirm (handle : Fd)
  | pdu (handle : Fd) (pdu : AssocPdu)
  | close (handle : Fd)

def Event.isTick : Event → Bool
  | .timeout _ => true
  | _ => false

/-- `imconn_callback`: a message for a descriptor reaches the link that is found for it. -/
def imconnCallback (handle : Fd) (handler : CServerLinkMgr → SocketId → CServerLinkMgr) :
    CServerLinkMgr :=
  match m.net.linkMap .server handle with
  | none => m
  | some c => handler m c

def step : Event → Option CServerLinkMgr
  | .servInit handles => m.servInit handles
  | .timeout handles => m.servCheckReconnect handles
  | .confirm handle => some (m.imconnCallback handle onConfirm)
  | .pdu handle pdu => some (m.imconnCallback handle fun m c => m.handlePdu c pdu)
  | .close handle => some (m.imconnCallback handle close)

section Effects

variable {m} {m' : CServerLinkMgr} {c : SocketId} {r : EntryRef} {fd : Fd} {handles : Handles}
  {s s' : CServerLinkMgr × Handles}

/-- The manager before the first attempts to connect: no entry has a link. -/
def unconnected (services : List AssocSvrInfo) (host : EntryRef → String × UInt16) :
    CServerLinkMgr :=
  { services, entries := fun r => { serverIp := (host r).1, serverPort := (host r).2 } }

/-- One service with one server. -/
def oneServer : CServerLinkMgr := unconnected [⟨2, 1, 0⟩] fun _ => ("10.0.0.1", 8000)

/-- A link in the physical map has its handle, and its entry has it. -/
structure Linked (m : CServerLinkMgr) : Prop where
  net : m.net.Registered
  link : ∀ fd c, m.net.linkMap .server fd = some c →
    (m.links c).handle = some fd ∧
      ∃ r, (m.links c).assocSvrInfo = some r ∧ (m.entries r).servConn = some c

theorem Linked.lt_next (h : m.Linked) (hc : m.net.linkMap .server fd = some c) :
    c < m.net.next :=
  (h.net.socket fd c (h.net.link .server fd c hc).1).2

/-- Nothing but counters and sessions is changed. -/
structure SameLinks (m m' : CServerLinkMgr) : Prop where
  net : m'.net = m.net
  services : m'.services = m.services
  handle : ∀ c, (m'.links c).handle = (m.links c).handle
  assocSvrInfo : ∀ c, (m'.links c).assocSvrInfo = (m.links c).assocSvrInfo
  servConn : ∀ r, (m'.entries r).servConn = (m.entries r).servConn

theorem Linked.same (h : m.Linked) (hsame : SameLinks m m') : m'.Linked := by
  constructor
  · rw [hsame.net]
    exact h.net
  · intro fd c hc
    rw [hsame.net] at hc
    obtain ⟨hhandle, r, hr, hconn⟩ := h.link fd c hc
    refine ⟨(hsame.handle c).trans hhandle, r, (hsame.assocSvrInfo c).trans hr, ?_⟩
    exact (hsame.servConn r).trans hconn

theorem sameLinks_modify {f : CServerLink → CServerLink}
    (hhandle : (f (m.links c)).handle = (m.links c).handle)
    (hinfo : (f (m.links c)).assocSvrInfo = (m.links c).assocSvrInfo) :
    SameLinks m (m.modify c f) := by
  refine ⟨rfl, rfl, ?_, ?_, fun _ => rfl⟩
  all_goals
    intro c'
    by_cases hc : c' = c
    · simp only [modify, hc, Function.update_self, hhandle, hinfo]
    · simp only [modify, Function.update_of_ne hc]

theorem sameLinks_modifyEntry {f : ServInfo → ServInfo}
    (hconn : (f (m.entries r)).servConn = (m.entries r).servConn) :
    SameLinks m (m.modifyEntry r f) := by
  refine ⟨rfl, rfl, fun _ => rfl, fun _ => rfl, ?_⟩
  intro r'
  by_cases hr : r' = r
  · simp only [modifyEntry, hr, Function.update_self, hconn]
  · simp only [modifyEntry, Function.update_of_ne hr]

theorem SameLinks.refl (m : CServerLinkMgr) : SameLinks m m :=
  ⟨rfl, rfl, fun _ => rfl, fun _ => rfl, fun _ => rfl⟩

theorem SameLinks.trans {m'' : CServerLinkMgr} (h : SameLinks m m') (h' : SameLinks m' m'') :
    SameLinks m m'' :=
  ⟨h'.net.trans h.net, h'.services.trans h.services, fun c => (h'.handle c).trans (h.handle c),
    fun c => (h'.assocSvrInfo c).trans (h.assocSvrInfo c),
    fun r => (h'.servConn r).trans (h.servConn r)⟩

/-- The state after an attempt for the entry `r` got `handle`. -/
def attempted (m : CServerLinkMgr) (r : EntryRef) (handle : Option Fd) : CServerLinkMgr :=
  (m.connect r handle).modifyEntry r fun e => { e with servConn := some m.net.next }

theorem connectEntry_eq_some (h : m.connectEntry r handles = some s') :
    ∃ handle, handles = handle :: s'.2 ∧ (∀ fd ∈ handle, m.net.socketMap fd = none) ∧
      s'.1 = m.attempted r handle := by
  cases handles with
  | nil => cases h
  | cons handle handles =>
    obtain ⟨hfree, heq⟩ := Option.ite_none_right_eq_some.mp h
    cases heq
    exact ⟨handle, rfl, hfree, rfl⟩

theorem attempted_entries (handle : Option Fd) :
    (m.attempted r handle).entries =
      Function.update m.entries r { m.entries r with servConn := some m.net.next } := rfl

theorem attempted_links (handle : Option Fd) :
    (m.attempted r handle).links =
      Function.update m.links m.net.next { handle, assocSvrInfo := some r } := rfl

theorem registered_skip (h : m.net.Registered) :
    { m.net with next := m.net.next + 1 }.Registered := by
  refine ⟨?_, h.link⟩
  intro fd k hk
  obtain ⟨hroute, hlt⟩ := h.socket fd k hk
  exact ⟨hroute, Nat.lt_succ_of_lt hlt⟩

theorem Linked.attempted_net (h : m.Linked) {handle : Option Fd}
    (hfree : ∀ fd ∈ handle, m.net.socketMap fd = none) :
    (m.attempted r handle).net.Registered := by
  cases handle with
  | none => exact registered_skip h.net
  | some fd =>
    have hfd : m.net.socketMap fd = none := hfree fd rfl
    exact h.net.opens hfd (Netlib.connect_opens hfd)

theorem Linked.attempted_linkMap (h : m.Linked) {handle : Option Fd}
    (hfree : ∀ fd ∈ handle, m.net.socketMap fd = none) :
    (m.attempted r handle).net.linkMap .server fd = some c ↔
      (handle = some fd ∧ c = m.net.next) ∨ m.net.linkMap .server fd = some c := by
  cases handle with
  | none =>
    change m.net.linkMap .server fd = some c ↔ _
    simp
  | some fd' =>
    have hfd : m.net.socketMap fd' = none := hfree fd' rfl
    change (m.net.connect fd').linkMap .server fd = some c ↔ _
    rw [h.net.connect_linkMap hfd, Index.update_some_eq_some]
    constructor
    · rintro (⟨rfl, rfl⟩ | ⟨-, hc⟩)
      · exact .inl ⟨rfl, rfl⟩
      · exact .inr hc
    · rintro (⟨heq, rfl⟩ | hc)
      · exact .inl ⟨(Option.some.inj heq).symm, rfl⟩
      · refine .inr ⟨?_, hc⟩
        rintro rfl
        rw [h.net.linkMap_of_free hfd] at hc
        cases hc

/-- An attempt for an entry without a link concerns no link that was there. -/
theorem Linked.attempted (h : m.Linked) {handle : Option Fd}
    (hfree : ∀ fd ∈ handle, m.net.socketMap fd = none) (hnull : (m.entries r).servConn = none) :
    (m.attempted r handle).Linked := by
  refine ⟨h.attempted_net hfree, ?_⟩
  intro fd c hc
  rw [attempted_links, attempted_entries]
  rcases (h.attempted_linkMap hfree).mp hc with ⟨rfl, rfl⟩ | hc
  · rw [Function.update_self]
    exact ⟨rfl, r, rfl, by rw [Function.update_self]⟩
  · obtain ⟨hhandle, r', hr', hconn⟩ := h.link fd c hc
    have hne : r' ≠ r := by
      rintro rfl
      rw [hnull] at hconn
      cases hconn
    rw [Function.update_of_ne (Nat.ne_of_lt (h.lt_next hc))]
    exact ⟨hhandle, r', hr', by rw [Function.update_of_ne hne, hconn]⟩

theorem close_eq (hhandle : (m.links c).handle = some fd)
    (hinfo : (m.links c).assocSvrInfo = some r) :
    m.close c =
      ({ m.servReset r with net := m.net.closeLink ⟨fd, .server⟩ }.delLinkBySessionId
        (m.links c).sessionId).modify c fun l =>
          { l with bConnect := false, refCount := l.refCount - 1 } := by
  simp only [close, hhandle, hinfo]
  rfl

theorem Linked.closes (h : m.Linked) (hc : m.net.linkMap .server fd = some c) :
    Netlib.Closes m.net (m.net.closeLink ⟨fd, .server⟩) fd := by
  apply h.net.closeLink
  intro k hk
  obtain ⟨hsocket, hroute⟩ := h.net.link .server fd c hc
  obtain rfl : c = k := Option.some.inj (hsocket.symm.trans hk)
  exact congrArg Prod.snd hroute

/-- What `Close` leaves of a link, its entry and the maps. -/
structure Closed (m m' : CServerLinkMgr) (c : SocketId) (fd : Fd) (r : EntryRef) : Prop where
  net : m'.net = m.net.closeLink ⟨fd, .server⟩
  entries : m'.entries = (m.servReset r).entries
  services : m'.services = m.services
  sessionLink : m'.sessionLink = Function.update m.sessionLink (m.links c).sessionId none
  handle : ∀ c', (m'.links c').handle = (m.links c').handle
  assocSvrInfo : ∀ c', (m'.links c').assocSvrInfo = (m.links c').assocSvrInfo
  sessionId : ∀ c', (m'.links c').sessionId = (m.links c').sessionId

theorem closed_close (hhandle : (m.links c).handle = some fd)
    (hinfo : (m.links c).assocSvrInfo = some r) : Closed m (m.close c) c fd r := by
  rw [close_eq hhandle hinfo]
  refine ⟨rfl, rfl, rfl, rfl, ?_, ?_, ?_⟩
  all_goals
    intro c'
    by_cases hc : c' = c
    · simp only [modify, hc, Function.update_self]
      rfl
    · simp only [modify, Function.update_of_ne hc]
      rfl

theorem Linked.closed (h : m.Linked) (hc : m.net.linkMap .server fd = some c)
    (hclosed : Closed m m' c fd r) (hconn : (m.entries r).servConn = some c) : m'.Linked := by
  constructor
  · rw [hclosed.net]
    exact h.net.closes (h.closes hc)
  · intro fd' c' hc'
    rw [hclosed.net] at hc'
    obtain ⟨hfd, hc'⟩ := (h.closes hc).link .server fd' c' hc'
    obtain ⟨hhandle, r', hr', hconn'⟩ := h.link fd' c' hc'
    have hne : r' ≠ r := by
      rintro rfl
      obtain rfl : c' = c := Option.some.inj (hconn'.symm.trans hconn)
      rw [(h.link fd c' hc).1] at hhandle
      exact hfd (Option.some.inj hhandle).symm
    refine ⟨(hclosed.handle c').trans hhandle, r', (hclosed.assocSvrInfo c').trans hr', ?_⟩
    rw [hclosed.entries]
    simp only [servReset, modifyEntry, Function.update_of_ne hne, hconn']

/-- Nothing but the counters of entries is changed. -/
structure OnlyCounters (m m' : CServerLinkMgr) : Prop where
  net : m'.net = m.net
  links : m'.links = m.links
  services : m'.services = m.services
  sessionLink : m'.sessionLink = m.sessionLink
  servConn : ∀ r, (m'.entries r).servConn = (m.entries r).servConn

theorem OnlyCounters.refl (m : CServerLinkMgr) : OnlyCounters m m :=
  ⟨rfl, rfl, rfl, rfl, fun _ => rfl⟩

theorem onlyCounters_modifyEntry {f : ServInfo → ServInfo}
    (hconn : (f (m.entries r)).servConn = (m.entries r).servConn) :
    OnlyCounters m (m.modifyEntry r f) :=
  ⟨rfl, rfl, rfl, rfl, (sameLinks_modifyEntry hconn).servConn⟩

theorem OnlyCounters.sameLinks (h : OnlyCounters m m') : SameLinks m m' := by
  refine ⟨h.net, h.services, ?_, ?_, h.servConn⟩
  all_goals
    intro c
    rw [h.links]

/-- At most one attempt is made, for an entry without a link. -/
inductive BodyStep (s : CServerLinkMgr × Handles) (r : EntryRef) : CServerLinkMgr × Handles → Prop
  | keep {m' : CServerLinkMgr} (same : OnlyCounters s.1 m') : BodyStep s r (m', s.2)
  | attempt {m₁ m' : CServerLinkMgr} {handle : Option Fd} {handles : Handles}
      (before : OnlyCounters s.1 m₁) (null : (m₁.entries r).servConn = none)
      (taken : s.2 = handle :: handles) (free : ∀ fd ∈ handle, m₁.net.socketMap fd = none)
      (after : OnlyCounters (m₁.attempted r handle) m') : BodyStep s r (m', handles)

theorem bodyStep_servInitEntry (h : servInitEntry s r = some s') : BodyStep s r s' := by
  unfold servInitEntry at h
  split at h
  · next hnull =>
    obtain ⟨s₁, hs₁, rfl⟩ := Option.map_eq_some_iff.mp h
    obtain ⟨handle, htaken, hfree, hattempt⟩ := connectEntry_eq_some hs₁
    refine .attempt (.refl s.1) hnull htaken hfree ?_
    rw [← hattempt]
    exact onlyCounters_modifyEntry rfl
  · cases h
    exact .keep (.refl s.1)

theorem bodyStep_servCheckEntry (h : servCheckEntry s r = some s') : BodyStep s r s' := by
  unfold servCheckEntry at h
  split at h
  · next hwait =>
    have hsame : OnlyCounters s.1
        (s.1.modifyEntry r fun e => { e with idleCnt := e.idleCnt + 1 }) :=
      onlyCounters_modifyEntry rfl
    simp only at h
    split at h
    · obtain ⟨handle, htaken, hfree, hattempt⟩ := connectEntry_eq_some h
      refine .attempt hsame ?_ htaken hfree ?_
      · exact (hsame.servConn r).trans hwait.1
      · rw [← hattempt]
        exact .refl s'.1
    · cases h
      exact .keep hsame
  · cases h
    exact .keep (.refl s.1)

theorem BodyStep.services (h : BodyStep s r s') : s'.1.services = s.1.services := by
  cases h with
  | keep same => exact same.services
  | attempt before _ _ _ after => exact after.services.trans before.services

theorem BodyStep.linked (h : BodyStep s r s') (hlinked : s.1.Linked) : s'.1.Linked := by
  cases h with
  | keep same => exact hlinked.same same.sameLinks
  | attempt before null _ free after =>
    exact ((hlinked.same before.sameLinks).attempted free null).same after.sameLinks

theorem forEntries_eq_some
    {body : CServerLinkMgr × Handles → EntryRef → Option (CServerLinkMgr × Handles)}
    (h : m.forEntries body handles = some m') : Run.run body (m, handles) m.refs = some (m', []) := by
  obtain ⟨s, hrun, hend⟩ := Option.bind_eq_some_iff.mp h
  obtain ⟨hnil, heq⟩ := Option.ite_none_right_eq_some.mp hend
  cases heq
  rw [hrun, ← hnil]

theorem sameLinks_assocSvrRegist (c : SocketId) : SameLinks m (m.assocSvrRegist c) :=
  sameLinks_modify rfl rfl

theorem onConfirm_eq (hinfo : (m.links c).assocSvrInfo = some r) :
    m.onConfirm c =
      ((m.modify c fun l => { l with bConnect := true }).modifyEntry r fun e =>
        { e with reconnectCnt := minReconnectCnt / 2 }).assocSvrRegist c := by
  have hinfo' : ((m.modify c fun l => { l with bConnect := true }).links c).assocSvrInfo =
      some r := by
    simp only [modify, Function.update_self, hinfo]
  simp only [onConfirm, hinfo']

theorem sameLinks_onConfirm (hinfo : (m.links c).assocSvrInfo = some r) :
    SameLinks m (m.onConfirm c) := by
  rw [onConfirm_eq hinfo]
  refine .trans ?_ (sameLinks_assocSvrRegist c)
  exact .trans (sameLinks_modify rfl rfl) (sameLinks_modifyEntry rfl)

theorem sameLinks_addLinkBySessionId (sid : UidCode) :
    SameLinks m (m.addLinkBySessionId sid c) := by
  unfold addLinkBySessionId
  split
  · exact ⟨rfl, rfl, fun _ => rfl, fun _ => rfl, fun _ => rfl⟩
  · exact .refl m

theorem sameLinks_onAssocSvrRegistAck (pdu : AssocPdu) :
    SameLinks m (m.onAssocSvrRegistAck c pdu) := by
  unfold onAssocSvrRegistAck
  split
  · exact sameLinks_modify rfl rfl
  · refine .trans ?_ (sameLinks_modify rfl rfl)
    exact .trans (sameLinks_modify rfl rfl) (sameLinks_addLinkBySessionId _)

theorem sameLinks_handlePdu (pdu : AssocPdu) : SameLinks m (m.handlePdu c pdu) := by
  unfold handlePdu
  split
  · exact sameLinks_assocSvrRegist c
  · split
    · exact sameLinks_onAssocSvrRegistAck pdu
    · exact .refl m

/-- A message does nothing, or its handler runs for a link that is found. -/
theorem imconnCallback_cases (m : CServerLinkMgr) (handle : Fd)
    (handler : CServerLinkMgr → SocketId → CServerLinkMgr) :
    m.imconnCallback handle handler = m ∨
      ∃ c, m.net.linkMap .server handle = some c ∧
        m.imconnCallback handle handler = handler m c := by
  unfold imconnCallback
  cases hc : m.net.linkMap .server handle with
  | none => exact .inl rfl
  | some c => exact .inr ⟨c, rfl, rfl⟩

/-- The ways in which an event changes links. -/
inductive Effect (m : CServerLinkMgr) : Event → CServerLinkMgr → Prop
  | servInit {handles : Handles} {m' : CServerLinkMgr}
      (run : Run.run servInitEntry (m, handles) m.refs = some (m', [])) :
      Effect m (.servInit handles) m'
  | timeout {handles : Handles} {m' : CServerLinkMgr}
      (run : Run.run servCheckEntry (m, handles) m.refs = some (m', [])) :
      Effect m (.timeout handles) m'
  | ignored {e : Event} (message : e.isTick = false) : Effect m e m
  | confirmed {fd : Fd} {c : SocketId} (found : m.net.linkMap .server fd = some c) :
      Effect m (.confirm fd) (m.onConfirm c)
  | handled {fd : Fd} {c : SocketId} {pdu : AssocPdu}
      (found : m.net.linkMap .server fd = some c) :
      Effect m (.pdu fd pdu) (m.handlePdu c pdu)
  | closed {fd : Fd} {c : SocketId} (found : m.net.linkMap .server fd = some c) :
      Effect m (.close fd) (m.close c)

theorem effect_step {e : Event} (h : m.step e = some m') : Effect m e m' := by
  cases e with
  | servInit handles => exact .servInit (forEntries_eq_some h)
  | timeout handles => exact .timeout (forEntries_eq_some h)
  | confirm fd =>
    cases h
    obtain heq | ⟨c, hc, heq⟩ := m.imconnCallback_cases fd onConfirm
    · rw [heq]
      exact .ignored rfl
    · rw [heq]
      exact .confirmed hc
  | pdu fd pdu =>
    cases h
    obtain heq | ⟨c, hc, heq⟩ := m.imconnCallback_cases fd fun m c => m.handlePdu c pdu
    · rw [heq]
      exact .ignored rfl
    · rw [heq]
      exact .handled hc
  | close fd =>
    cases h
    obtain heq | ⟨c, hc, heq⟩ := m.imconnCallback_cases fd close
    · rw [heq]
      exact .ignored rfl
    · rw [heq]
      exact .closed hc

theorem Linked.step (h : m.Linked) {e : Event} (hstep : m.step e = some m') : m'.Linked := by
  cases effect_step hstep with
  | servInit run =>
    exact Run.run_invariant (fun s => s.1.Linked) h
      (fun _ _ _ _ hs hbody => (bodyStep_servInitEntry hbody).linked hs) run
  | timeout run =>
    exact Run.run_invariant (fun s => s.1.Linked) h
      (fun _ _ _ _ hs hbody => (bodyStep_servCheckEntry hbody).linked hs) run
  | ignored => exact h
  | confirmed found =>
    obtain ⟨-, r, hr, -⟩ := h.link _ _ found
    exact h.same (sameLinks_onConfirm hr)
  | handled found => exact h.same (sameLinks_handlePdu _)
  | closed found =>
    obtain ⟨hhandle, r, hr, hconn⟩ := h.link _ _ found
    exact h.closed found (closed_close hhandle hr) hconn

theorem linked_unconnected (services : List AssocSvrInfo) (host : EntryRef → String × UInt16) :
    (unconnected services host).Linked := by
  refine ⟨⟨?_, ?_⟩, ?_⟩
  · intro fd k hk
    cases hk
  · intro map fd c hc
    cases hc
  · intro fd c hc
    cases hc

theorem services_step {e : Event} (hlinked : m.Linked) (hstep : m.step e = some m') :
    m'.services = m.services := by
  cases effect_step hstep with
  | servInit run =>
    exact Run.run_invariant (fun s => s.1.services = m.services) rfl
      (fun _ _ _ _ hs hbody => (bodyStep_servInitEntry hbody).services.trans hs) run
  | timeout run =>
    exact Run.run_invariant (fun s => s.1.services = m.services) rfl
      (fun _ _ _ _ hs hbody => (bodyStep_servCheckEntry hbody).services.trans hs) run
  | ignored => rfl
  | confirmed found =>
    obtain ⟨-, r, hr, -⟩ := hlinked.link _ _ found
    exact (sameLinks_onConfirm hr).services
  | handled found => exact (sameLinks_handlePdu _).services
  | closed found =>
    obtain ⟨hhandle, r, hr, -⟩ := hlinked.link _ _ found
    exact (closed_close hhandle hr).services

end Effects

end CServerLinkMgr

end ImServer
