import Mathlib.Logic.Function.Basic
import ImServer.Base.ImPdu

/-!
# Client links and their registry

`CClientLinkMgr` (base/clientlinkmgr.cpp) finds a link by session id, by user id
and by the host string a server registered with, and it remembers the session id
of the last login from each peer. The maps are updated by the handlers of
`CClientLink` (base/clientlink.cpp). Each map is a partial function here, and a
link is named by a number that is never used twice.

The reference count of a link is kept where the source changes it. `freed` counts
how often it reached zero, that is, how often `delete this` ran. Values that the
source takes from elsewhere are arguments: the 12 bytes of a generated session
id, and the bytes of a session id that is returned without being initialised.

`GetHostString` prints into a buffer that is one byte too short for the
terminator. The model gives it the string it is meant to produce.
-/

namespace ImServer

abbrev LinkId := Nat

/-- `m_nLinkType`: links of apps, and links of other servers. -/
inductive LinkType where
  | mobileLogin
  | assocRegist
  deriving DecidableEq, Repr

/-- Where a link is between its construction and `CloseLink`. -/
inductive Life where
  | unborn
  | live
  | closed
  deriving DecidableEq, Repr

/-- The session id that the constructor sets, so that links without one of their own cannot be told
apart by it. -/
def zeroUid : UidCode := Vector.replicate 12 0

structure CClientLink where
  life : Life := .unborn
  linkType : LinkType := .mobileLogin
  peerIp : String := ""
  peerPort : UInt16 := 0
  sessionId : UidCode := zeroUid
  userId : String := ""
  registIp : String := ""
  registPort : UInt16 := 0
  bRegist : Bool := false
  bLogining : Bool := false
  bClosing : Bool := false
  refCount : Int := 1
  freed : Nat := 0
  deriving DecidableEq, Repr

structure CClientLinkMgr where
  links : LinkId → CClientLink := fun _ => {}
  sessionLink : UidCode → Option LinkId := fun _ => none
  userLink : String → Option LinkId := fun _ => none
  hostLink : String → Option LinkId := fun _ => none
  hostSession : String → Option UidCode := fun _ => none

/-- The host string of the session map: the port in decimal. -/
def hostString (ip : String) (port : UInt16) : String := ip ++ ":" ++ toString port.toNat

/-- `GetHostString`: the port as four hexadecimal digits. -/
def getHostString (ip : String) (port : UInt16) : String :=
  let digits := Nat.toDigits 16 port.toNat
  ip ++ ":" ++ String.ofList (List.replicate (4 - digits.length) '0' ++ digits)

/-- The host string under which a link's login session is recorded. -/
def CClientLink.peerHost (k : CClientLink) : String := hostString k.peerIp k.peerPort

/-- The host string under which a registered server is found. -/
def CClientLink.registHost (k : CClientLink) : String := getHostString k.registIp k.registPort

/-- The record of a link after `CloseLink`. -/
def CClientLink.afterClose (k : CClientLink) : CClientLink :=
  { k with
    life := .closed, bRegist := false, bLogining := false, userId := ""
    refCount := k.refCount - 1
    freed := if k.refCount - 1 = 0 then k.freed + 1 else k.freed }

/-- The record of a server's link after a registration. -/
def CClientLink.afterRegist (k : CClientLink) (ip : String) (port : UInt16) (sid : UidCode) :
    CClientLink :=
  { k with registIp := ip, registPort := port, sessionId := sid, bRegist := true }

/-- The peer's address is asked for if `OnConnect` did not learn it. -/
def CClientLink.withRemote (k : CClientLink) (remote : String × UInt16) : CClientLink :=
  if k.peerIp = "" then { k with peerIp := remote.1, peerPort := remote.2 } else k

/-- The record of a link whose login was accepted for treatment. -/
def CClientLink.afterPretreat (k : CClientLink) (sid : UidCode) : CClientLink :=
  { k with sessionId := sid, bLogining := true }

/-- The record of a link after `UserArrived`. -/
def CClientLink.afterArrival (k : CClientLink) (user : String) : CClientLink :=
  { k with userId := user, bRegist := true, bLogining := false }

namespace CClientLinkMgr

variable (m : CClientLinkMgr)

def modify (l : LinkId) (f : CClientLink → CClientLink) : CClientLinkMgr :=
  { m with links := Function.update m.links l (f (m.links l)) }

def addLinkBySessionId (sid : UidCode) (l : LinkId) : CClientLinkMgr :=
  if m.sessionLink sid = none then
    { m with sessionLink := Function.update m.sessionLink sid (some l) }
  else m

def delLinkBySessionId (sid : UidCode) : CClientLinkMgr :=
  { m with sessionLink := Function.update m.sessionLink sid none }

def addLinkByUserId (user : String) (l : LinkId) : CClientLinkMgr :=
  if user = "" then m else { m with userLink := Function.update m.userLink user (some l) }

def delLinkByUserId (user : String) : CClientLinkMgr :=
  if user = "" then m else { m with userLink := Function.update m.userLink user none }

def addLinkByHost (ip : String) (port : UInt16) (l : LinkId) : CClientLinkMgr :=
  if ip = "" then m
  else if m.hostLink (getHostString ip port) = none then
    { m with hostLink := Function.update m.hostLink (getHostString ip port) (some l) }
  else m

def delLinkByHost (ip : String) (port : UInt16) : CClientLinkMgr :=
  if ip = "" then m
  else { m with hostLink := Function.update m.hostLink (getHostString ip port) none }

def addSessionByHost (ip : String) (port : UInt16) (sid : UidCode) : CClientLinkMgr :=
  if ip = "" then m
  else { m with hostSession := Function.update m.hostSession (hostString ip port) (some sid) }

/-- `delSessionByHost` looks in the session map of hosts and erases from the link
map of hosts. -/
def delSessionByHost (ip : String) (port : UInt16) : CClientLinkMgr :=
  if ip = "" then m
  else if m.hostSession (hostString ip port) = none then m
  else { m with hostLink := Function.update m.hostLink (hostString ip port) none }

/-- `getSessionByHost` of a host string. Without an entry the result is an
uninitialised variable, whose bytes are `uninit`. -/
def getSessionByHost (host : String) (uninit : UidCode) : UidCode :=
  if host = "" then uninit else (m.hostSession host).getD uninit

/-- `getSessionByHost` of an address. -/
def getSessionByPeer (ip : String) (port : UInt16) (uninit : UidCode) : UidCode :=
  if ip = "" then uninit else (m.hostSession (hostString ip port)).getD uninit

def addRef (l : LinkId) : CClientLinkMgr := m.modify l fun k => { k with refCount := k.refCount + 1 }

def releaseRef (l : LinkId) : CClientLinkMgr :=
  m.modify l fun k =>
    { k with
      refCount := k.refCount - 1
      freed := if k.refCount - 1 = 0 then k.freed + 1 else k.freed }

/-- `OnConnect` on a new link. -/
def onConnect (l : LinkId) (linkType : LinkType) (ip : String) (port : UInt16) : CClientLinkMgr :=
  m.modify l fun _ => { life := .live, linkType, peerIp := ip, peerPort := port }

def closeLink (l : LinkId) (bUserLink : Bool) : CClientLinkMgr :=
  let k := m.links l
  let m := (m.delLinkByHost k.registIp k.registPort).delLinkBySessionId k.sessionId
  let m := m.delSessionByHost k.peerIp k.peerPort
  let m := if bUserLink then m.delLinkByUserId k.userId else m
  let m := m.modify l fun k =>
    { k with life := .closed, bRegist := false, bLogining := false, userId := "" }
  m.releaseRef l

def userArrived (l : LinkId) (user : String) : CClientLinkMgr :=
  let m := (m.modify l fun k => { k with userId := user }).addLinkByUserId user l
  m.modify l fun k => { k with bRegist := true, bLogining := false }

/-- `UserLeft`. The PDU it posts is the result of `close`. -/
def userLeft (l : LinkId) : CClientLinkMgr := m.modify l fun k => { k with bLogining := false }

/-- `m_bClosing` is set before anything else that `Close` does. -/
def setClosing (l : LinkId) : CClientLinkMgr := m.modify l fun k => { k with bClosing := true }

/-- `Close`, with the session id of the time-out notification it posts, if any. -/
def close (l : LinkId) : CClientLinkMgr × Option UidCode :=
  let k := m.links l
  if k.bClosing then (m, none)
  else
    let m := m.setClosing l
    if !k.bRegist || k.linkType = .assocRegist then (m.closeLink l true, none)
    else (m.userLeft l, some k.sessionId)

/-- `OnClose`: a login in progress on an app's link delays the close. -/
def onClose (l : LinkId) : CClientLinkMgr × Option UidCode :=
  let k := m.links l
  if (k.linkType = .mobileLogin ∧ !k.bLogining) ∨ k.linkType = .assocRegist then m.close l
  else (m, none)

/-- `OnAssocSvrRegist` for a packet that parsed to `ip` and `port`. -/
def onAssocSvrRegist (l : LinkId) (ip : String) (port : UInt16) (sid : UidCode) : CClientLinkMgr :=
  if (m.links l).linkType = .mobileLogin then m
  else
    let m := m.modify l fun k => { k with registIp := ip, registPort := port }
    let m := m.addLinkByHost ip port l
    let m := m.modify l fun k => { k with sessionId := sid }
    let m := m.addLinkBySessionId sid l
    m.modify l fun k => { k with bRegist := true }

/-- `OnLoginPretreat`, `none` when the login is rejected. `remote` is what
`netlib_get_remotehost` reports when the peer was not known at `OnConnect`. -/
def onLoginPretreat (l : LinkId) (remote : String × UInt16) (uninit sid : UidCode) :
    Option CClientLinkMgr :=
  let k := m.links l
  if k.bRegist || k.bLogining then none
  else
    let m := if k.peerIp = "" then
        m.modify l fun k => { k with peerIp := remote.1, peerPort := remote.2 }
      else m
    let k := m.links l
    let m := m.delLinkBySessionId (m.getSessionByPeer k.peerIp k.peerPort uninit)
    let m := (m.modify l fun k => { k with sessionId := sid }).addLinkBySessionId sid l
    let m := m.addSessionByHost k.peerIp k.peerPort sid
    some (m.modify l fun k => { k with bLogining := true })

/-- The link map of hosts after `CloseLink`: both ways of writing a host are erased
from it, the second one only if a login came from that host. -/
def hostLinkAfterClose (l : LinkId) : String → Option LinkId :=
  let k := m.links l
  let hosts := if k.registIp = "" then m.hostLink else Function.update m.hostLink k.registHost none
  if k.peerIp = "" ∨ m.hostSession k.peerHost = none then hosts
  else Function.update hosts k.peerHost none

section Effects

variable {m : CClientLinkMgr} {l l' : LinkId}

theorem modify_links (f : CClientLink → CClientLink) :
    (m.modify l f).links = Function.update m.links l (f (m.links l)) := rfl

@[simp] theorem modify_links_self (f : CClientLink → CClientLink) :
    (m.modify l f).links l = f (m.links l) := Function.update_self ..

theorem modify_links_of_ne (f : CClientLink → CClientLink) (h : l' ≠ l) :
    (m.modify l f).links l' = m.links l' := Function.update_of_ne h ..

@[simp] theorem modify_hostLink (f : CClientLink → CClientLink) :
    (m.modify l f).hostLink = m.hostLink := rfl

@[simp] theorem modify_hostSession (f : CClientLink → CClientLink) :
    (m.modify l f).hostSession = m.hostSession := rfl

/-- A field that the change of one link keeps is kept for all links. -/
theorem modify_field {α : Type} (field : CClientLink → α) {f : CClientLink → CClientLink}
    (hf : field (f (m.links l)) = field (m.links l)) :
    field ((m.modify l f).links l') = field (m.links l') := by
  by_cases hl' : l' = l
  · rw [hl', modify_links_self, hf]
  · rw [modify_links_of_ne f hl']

@[simp] theorem addLinkBySessionId_links (sid : UidCode) :
    (m.addLinkBySessionId sid l).links = m.links := by
  unfold addLinkBySessionId
  split <;> rfl

@[simp] theorem addLinkByHost_links (ip : String) (port : UInt16) :
    (m.addLinkByHost ip port l).links = m.links := by
  unfold addLinkByHost
  split
  · rfl
  · split <;> rfl

theorem addLinkBySessionId_eq (sid : UidCode) :
    m.addLinkBySessionId sid l = { m with
      sessionLink := if m.sessionLink sid = none then Function.update m.sessionLink sid (some l)
        else m.sessionLink } := by
  unfold addLinkBySessionId
  split <;> rfl

theorem addLinkByHost_eq {ip : String} {port : UInt16} (hip : ip ≠ "") :
    m.addLinkByHost ip port l = { m with
      hostLink := if m.hostLink (getHostString ip port) = none then
        Function.update m.hostLink (getHostString ip port) (some l) else m.hostLink } := by
  unfold addLinkByHost
  rw [if_neg hip]
  split <;> rfl

theorem delLinkByHost_eq (ip : String) (port : UInt16) :
    m.delLinkByHost ip port = { m with
      hostLink := if ip = "" then m.hostLink
        else Function.update m.hostLink (getHostString ip port) none } := by
  unfold delLinkByHost
  split <;> rfl

theorem delSessionByHost_eq (ip : String) (port : UInt16) :
    m.delSessionByHost ip port = { m with
      hostLink := if ip = "" ∨ m.hostSession (hostString ip port) = none then m.hostLink
        else Function.update m.hostLink (hostString ip port) none } := by
  unfold delSessionByHost
  by_cases hip : ip = ""
  · rw [if_pos hip, if_pos (.inl hip)]
  · rw [if_neg hip]
    by_cases hnone : m.hostSession (hostString ip port) = none
    · rw [if_pos hnone, if_pos (.inr hnone)]
    · rw [if_neg hnone, if_neg (not_or.mpr ⟨hip, hnone⟩)]

theorem addSessionByHost_eq (ip : String) (port : UInt16) (sid : UidCode) :
    m.addSessionByHost ip port sid = { m with
      hostSession := if ip = "" then m.hostSession
        else Function.update m.hostSession (hostString ip port) (some sid) } := by
  unfold addSessionByHost
  split <;> rfl

theorem delLinkByUserId_eq (user : String) :
    m.delLinkByUserId user = { m with
      userLink := if user = "" then m.userLink else Function.update m.userLink user none } := by
  unfold delLinkByUserId
  split <;> rfl

/-- `CloseLink` in one step: which entries it erases, and what it leaves. -/
theorem closeLink_eq (b : Bool) :
    m.closeLink l b =
      { links := Function.update m.links l (m.links l).afterClose
        sessionLink := Function.update m.sessionLink (m.links l).sessionId none
        userLink := if b = false ∨ (m.links l).userId = "" then m.userLink
          else Function.update m.userLink (m.links l).userId none
        hostLink := m.hostLinkAfterClose l
        hostSession := m.hostSession } := by
  unfold closeLink
  cases b with
  | false =>
    simp only [delLinkByHost_eq, delSessionByHost_eq, delLinkBySessionId, releaseRef, modify,
      Function.update_self, Function.update_idem, Bool.false_eq_true, if_false, true_or, if_true]
    rfl
  | true =>
    simp only [delLinkByHost_eq, delSessionByHost_eq, delLinkByUserId_eq, delLinkBySessionId,
      releaseRef, modify, Function.update_self, Function.update_idem, if_true,
      Bool.true_eq_false, false_or]
    rfl

/-- What `Close` can do: nothing on a link that is closing already, `CloseLink` at once,
or the start of a logout. -/
theorem close_cases :
    ((m.links l).bClosing = true ∧ m.close l = (m, none)) ∨
    ((m.links l).bClosing = false ∧
      ((m.links l).bRegist = false ∨ (m.links l).linkType = .assocRegist) ∧
      m.close l = ((m.setClosing l).closeLink l true, none)) ∨
    ((m.links l).bClosing = false ∧ (m.links l).bRegist = true ∧
      (m.links l).linkType = .mobileLogin ∧
      m.close l = ((m.setClosing l).userLeft l, some (m.links l).sessionId)) := by
  cases hclosing : (m.links l).bClosing with
  | true => exact .inl ⟨rfl, if_pos hclosing⟩
  | false =>
    refine .inr ?_
    cases hregist : (m.links l).bRegist with
    | false => exact .inl ⟨rfl, .inl rfl, by simp [close, hclosing, hregist]⟩
    | true =>
      cases htype : (m.links l).linkType with
      | mobileLogin => exact .inr ⟨rfl, rfl, rfl, by simp [close, hclosing, hregist, htype]⟩
      | assocRegist => exact .inl ⟨rfl, .inr rfl, by simp [close, hclosing, htype]⟩

theorem closeLink_links (b : Bool) :
    (m.closeLink l b).links = Function.update m.links l (m.links l).afterClose := by
  rw [closeLink_eq]

theorem closeLink_links_of_ne (h : l' ≠ l) (b : Bool) :
    (m.closeLink l b).links l' = m.links l' := by
  rw [closeLink_links, Function.update_of_ne h]

theorem close_links_of_ne (h : l' ≠ l) : (m.close l).1.links l' = m.links l' := by
  rcases m.close_cases (l := l) with ⟨-, heq⟩ | ⟨-, -, heq⟩ | ⟨-, -, -, heq⟩
  · rw [heq]
  · rw [heq, closeLink_links_of_ne h, setClosing, modify_links_of_ne _ h]
  · rw [heq, userLeft, modify_links_of_ne _ h, setClosing, modify_links_of_ne _ h]

theorem userArrived_eq (user : String) :
    m.userArrived l user = { m with
      links := Function.update m.links l ((m.links l).afterArrival user)
      userLink := if user = "" then m.userLink
        else Function.update m.userLink user (some l) } := by
  unfold userArrived addLinkByUserId
  by_cases huser : user = ""
  · simp only [if_pos huser, modify, Function.update_self, Function.update_idem]
    rfl
  · simp only [if_neg huser, modify, Function.update_self, Function.update_idem]
    rfl

theorem userArrived_links (user : String) :
    (m.userArrived l user).links = Function.update m.links l ((m.links l).afterArrival user) := by
  rw [userArrived_eq]

theorem onAssocSvrRegist_eq {ip : String} {port : UInt16} {sid : UidCode}
    (htype : (m.links l).linkType ≠ .mobileLogin) (hip : ip ≠ "") :
    m.onAssocSvrRegist l ip port sid = { m with
      links := Function.update m.links l ((m.links l).afterRegist ip port sid)
      sessionLink := if m.sessionLink sid = none then Function.update m.sessionLink sid (some l)
        else m.sessionLink
      hostLink := if m.hostLink (getHostString ip port) = none then
        Function.update m.hostLink (getHostString ip port) (some l) else m.hostLink } := by
  unfold onAssocSvrRegist
  simp only [if_neg htype, addLinkByHost_eq hip, addLinkBySessionId_eq, modify,
    Function.update_self, Function.update_idem]
  rfl

theorem onLoginPretreat_eq {remote : String × UInt16} {uninit sid : UidCode}
    (hregist : (m.links l).bRegist = false) (hlogining : (m.links l).bLogining = false) :
    m.onLoginPretreat l remote uninit sid = some
      (let k := (m.links l).withRemote remote
       let del := Function.update m.sessionLink (m.getSessionByPeer k.peerIp k.peerPort uninit) none
      { m with
        links := Function.update m.links l (k.afterPretreat sid)
        sessionLink := if del sid = none then Function.update del sid (some l) else del
        hostSession := if k.peerIp = "" then m.hostSession
          else Function.update m.hostSession k.peerHost (some sid) }) := by
  simp only [onLoginPretreat, hregist, hlogining, Bool.or_self, Bool.false_eq_true, if_false,
    CClientLink.withRemote]
  by_cases hip : (m.links l).peerIp = ""
  · simp only [if_pos hip, hregist, getSessionByPeer, addLinkBySessionId_eq, delLinkBySessionId,
      addSessionByHost_eq, modify, CClientLink.peerHost, CClientLink.afterPretreat,
      Function.update_self, Function.update_idem]
  · simp only [if_neg hip, getSessionByPeer, addLinkBySessionId_eq, delLinkBySessionId,
      addSessionByHost_eq, modify, CClientLink.peerHost, CClientLink.afterPretreat,
      Function.update_self, Function.update_idem]

theorem onLoginPretreat_of_peerIp {remote : String × UInt16} {uninit sid : UidCode}
    (hregist : (m.links l).bRegist = false) (hlogining : (m.links l).bLogining = false)
    (hip : (m.links l).peerIp ≠ "") :
    m.onLoginPretreat l remote uninit sid = some
      { m with
        links := Function.update m.links l ((m.links l).afterPretreat sid)
        sessionLink :=
          let del := Function.update m.sessionLink
            ((m.hostSession (m.links l).peerHost).getD uninit) none
          if del sid = none then Function.update del sid (some l) else del
        hostSession := Function.update m.hostSession (m.links l).peerHost (some sid) } := by
  rw [onLoginPretreat_eq hregist hlogining]
  simp only [CClientLink.withRemote, if_neg hip, getSessionByPeer]
  rfl

theorem onAssocSvrRegist_life (ip : String) (port : UInt16) (sid : UidCode) :
    ((m.onAssocSvrRegist l ip port sid).links l').life = (m.links l').life := by
  unfold onAssocSvrRegist
  split
  · rfl
  · refine (modify_field _ rfl).trans ?_
    rw [addLinkBySessionId_links]
    refine (modify_field _ rfl).trans ?_
    rw [addLinkByHost_links]
    exact modify_field _ rfl

/-- A login changes the peer, the session id and the state of the login, on one link. -/
theorem onLoginPretreat_field {α : Type} (field : CClientLink → α)
    (hfield : ∀ k ip port sid, field { k with
      peerIp := ip, peerPort := port, sessionId := sid, bLogining := true } = field k)
    {remote : String × UInt16} {uninit sid : UidCode} :
    field (((m.onLoginPretreat l remote uninit sid).getD m).links l') = field (m.links l') := by
  by_cases hbusy : ((m.links l).bRegist || (m.links l).bLogining) = true
  · rw [onLoginPretreat, if_pos hbusy, Option.getD_none]
  · obtain ⟨hregist, hlogining⟩ := Bool.or_eq_false_iff.mp (eq_false_of_ne_true hbusy)
    rw [onLoginPretreat_eq hregist hlogining, Option.getD_some]
    refine modify_field (f := fun k => (k.withRemote remote).afterPretreat sid) field ?_
    unfold CClientLink.withRemote
    split
    · exact hfield (m.links l) remote.1 remote.2 sid
    · exact hfield (m.links l) (m.links l).peerIp (m.links l).peerPort sid

end Effects

end CClientLinkMgr

end ImServer
