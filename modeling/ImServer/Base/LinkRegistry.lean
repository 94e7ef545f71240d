import ImServer.Base.ClientLink
import ImServer.Lib.Index
import ImServer.Lib.Run

/-!
# The registry of client links over whole runs

Any number of links connect, register, log in, get and lose their users and close.
The registry is consistent when its entries refer to open links and open links are
found under their current keys. Its handlers keep it so in some states only, and
`Good` says in which: the close of a link that logged in leaves the session of its
host behind, a second registration leaves the first one behind, and keys that are
already taken by another link are either not claimed or taken away from it.
-/

namespace ImServer

namespace CClientLinkMgr

/-- What can happen to the links. The last event is the close by another handler. -/
inductive LinkEvent where
  | connect (l : LinkId) (linkType : LinkType) (ip : String) (port : UInt16)
  | regist (l : LinkId) (ip : String) (port : UInt16) (sid : UidCode)
  | login (l : LinkId) (remote : String × UInt16) (uninit sid : UidCode)
  | userArrived (l : LinkId) (user : String)
  | userLeft (l : LinkId)
  | close (l : LinkId)
  | closeLink (l : LinkId) (bUserLink : Bool)

/-- The registry after an event. Packets of a closing link are dropped by
`HandlePdu`, and only a link that was constructed takes part. -/
def linkStep (m : CClientLinkMgr) : LinkEvent → Option CClientLinkMgr
  | .connect l linkType ip port =>
    if (m.links l).life = .unborn then some (m.onConnect l linkType ip port) else none
  | .regist l ip port sid =>
    if (m.links l).life = .unborn then none
    else if (m.links l).bClosing then some m
    else some (m.onAssocSvrRegist l ip port sid)
  | .login l remote uninit sid =>
    if (m.links l).life = .unborn then none
    else if (m.links l).bClosing then some m
    else some ((m.onLoginPretreat l remote uninit sid).getD m)
  | .userArrived l user =>
    if (m.links l).life = .unborn then none else some (m.userArrived l user)
  | .userLeft l => if (m.links l).life = .unborn then none else some (m.userLeft l)
  | .close l => if (m.links l).life = .unborn then none else some (m.close l).1
  | .closeLink l bUserLink =>
    if (m.links l).life = .unborn then none else some (m.closeLink l bUserLink)

/-- Every entry of the four maps refers to a link that is still open, that of a host by way of its
session. -/
structure EntriesOpen (m : CClientLinkMgr) : Prop where
  session : ∀ sid l, m.sessionLink sid = some l → (m.links l).life = .live
  user : ∀ u l, m.userLink u = some l → (m.links l).life = .live
  host : ∀ h l, m.hostLink h = some l → (m.links l).life = .live
  hostSession : ∀ h sid, m.hostSession h = some sid →
    ∃ l, m.sessionLink sid = some l ∧ (m.links l).life = .live

/-- Every open link is found under its session id and its host string: that of its
registration, or for a login that of its peer. -/
structure OpenFound (m : CClientLinkMgr) : Prop where
  session : ∀ l, (m.links l).life = .live → (m.links l).sessionId ≠ zeroUid →
    m.sessionLink (m.links l).sessionId = some l
  host : ∀ l, (m.links l).life = .live → (m.links l).registIp ≠ "" →
    m.hostLink (m.links l).registHost = some l
  peer : ∀ l, (m.links l).life = .live → (m.links l).registIp = "" →
    (m.links l).sessionId ≠ zeroUid →
    m.hostSession (m.links l).peerHost = some (m.links l).sessionId

/-- The maps of `m'` are those of `m` without the entries that refer to `l`. -/
structure ClosesExactly (m m' : CClientLinkMgr) (l : LinkId) : Prop where
  session : ∀ sid, m'.sessionLink sid = if m.sessionLink sid = some l then none else m.sessionLink sid
  user : ∀ u, m'.userLink u = if m.userLink u = some l then none else m.userLink u
  host : ∀ h, m'.hostLink h = if m.hostLink h = some l then none else m.hostLink h
  hostSession : ∀ h, m'.hostSession h =
    if (m.hostSession h).bind m.sessionLink = some l then none else m.hostSession h

/-- `CloseLink` meets a link that is open, that no login went through, and whose
peer's host string is not the key of another registered server. -/
structure CloseGood (m : CClientLinkMgr) (l : LinkId) (bUserLink : Bool) : Prop where
  live : (m.links l).life = .live
  user : bUserLink = true ∨ (m.links l).userId = ""
  noLogin : (m.links l).registIp = "" → (m.links l).sessionId = zeroUid
  peer : (m.links l).peerIp ≠ "" → m.hostSession (m.links l).peerHost ≠ none →
    m.hostLink (m.links l).peerHost = none ∨ m.hostLink (m.links l).peerHost = some l

/-- The events that keep the registry consistent. A registration or a login is one of them if the
link is new to the maps, or if the code ignores it. -/
def Good (m : CClientLinkMgr) : LinkEvent → Prop
  | .connect _ _ _ _ => True
  | .regist l ip port sid =>
    (m.links l).bClosing = true ∨ (m.links l).linkType = .mobileLogin ∨
      ((m.links l).life = .live ∧ (m.links l).sessionId = zeroUid ∧ ip ≠ "" ∧
        m.hostLink (getHostString ip port) = none ∧ sid ≠ zeroUid ∧ m.sessionLink sid = none)
  | .login l _ uninit sid =>
    (m.links l).bClosing = true ∨ (m.links l).bRegist = true ∨ (m.links l).bLogining = true ∨
      ((m.links l).life = .live ∧ (m.links l).peerIp ≠ "" ∧ sid ≠ zeroUid ∧
        m.sessionLink sid = none ∧
        (m.sessionLink ((m.hostSession (m.links l).peerHost).getD uninit) = none ∨
          m.sessionLink ((m.hostSession (m.links l).peerHost).getD uninit) = some l))
  | .userArrived l user =>
    (m.links l).life = .live ∧ ((m.links l).userId = "" ∨ (m.links l).userId = user) ∧
      (m.userLink user = none ∨ m.userLink user = some l)
  | .userLeft _ => True
  | .close l =>
    (m.links l).bClosing = true ∨
      ((m.links l).bRegist = true ∧ (m.links l).linkType = .mobileLogin) ∨ m.CloseGood l true
  | .closeLink l bUserLink => m.CloseGood l bUserLink

end CClientLinkMgr

namespace CClientLink

/-- The keys under which a link has to be found. -/
def sessionKey (k : CClientLink) : Option UidCode :=
  if k.life = .live ∧ k.sessionId ≠ zeroUid then some k.sessionId else none

def userKey (k : CClientLink) : Option String :=
  if k.life = .live ∧ k.userId ≠ "" then some k.userId else none

def hostKey (k : CClientLink) : Option String :=
  if k.life = .live ∧ k.registIp ≠ "" then some k.registHost else none

def loginKey (k : CClientLink) : Option String :=
  if k.life = .live ∧ k.registIp = "" ∧ k.sessionId ≠ zeroUid then some k.peerHost else none

variable {k : CClientLink}

theorem sessionKey_eq_some {sid : UidCode} :
    k.sessionKey = some sid ↔ k.life = .live ∧ k.sessionId ≠ zeroUid ∧ k.sessionId = sid := by
  simp [sessionKey, and_assoc]

theorem userKey_eq_some {u : String} :
    k.userKey = some u ↔ k.life = .live ∧ k.userId ≠ "" ∧ k.userId = u := by
  simp [userKey, and_assoc]

theorem hostKey_eq_some {h : String} :
    k.hostKey = some h ↔ k.life = .live ∧ k.registIp ≠ "" ∧ k.registHost = h := by
  simp [hostKey, and_assoc]

theorem loginKey_eq_some {h : String} :
    k.loginKey = some h ↔
      k.life = .live ∧ (k.registIp = "" ∧ k.sessionId ≠ zeroUid) ∧ k.peerHost = h := by
  simp [loginKey, and_assoc]

end CClientLink

namespace CClientLinkMgr

open CClientLink

/-- The link of the last login from a host. -/
def peerLink (m : CClientLinkMgr) (host : String) : Option LinkId :=
  (m.hostSession host).bind m.sessionLink

/-- Each map finds exactly the links that have a key for it. -/
structure RegistryInv (m : CClientLinkMgr) : Prop where
  session : Index.Agrees m.sessionLink (sessionKey ∘ m.links)
  user : Index.Agrees m.userLink (userKey ∘ m.links)
  host : Index.Agrees m.hostLink (hostKey ∘ m.links)
  peer : Index.Agrees m.peerLink (loginKey ∘ m.links)
  known : ∀ {host sid}, m.hostSession host = some sid → m.sessionLink sid ≠ none
  registered : ∀ {l}, (m.links l).life = .live → (m.links l).registIp ≠ "" →
    (m.links l).bRegist = true ∧ (m.links l).sessionId ≠ zeroUid

variable {m : CClientLinkMgr} {l : LinkId}

theorem RegistryInv.sessionLink_iff (h : m.RegistryInv) {sid : UidCode} :
    m.sessionLink sid = some l ↔
      (m.links l).life = .live ∧ (m.links l).sessionId ≠ zeroUid ∧ (m.links l).sessionId = sid :=
  (h.session sid l).trans sessionKey_eq_some

theorem RegistryInv.userLink_iff (h : m.RegistryInv) {u : String} :
    m.userLink u = some l ↔
      (m.links l).life = .live ∧ (m.links l).userId ≠ "" ∧ (m.links l).userId = u :=
  (h.user u l).trans userKey_eq_some

theorem RegistryInv.hostLink_iff (h : m.RegistryInv) {host : String} :
    m.hostLink host = some l ↔
      (m.links l).life = .live ∧ (m.links l).registIp ≠ "" ∧ (m.links l).registHost = host :=
  (h.host host l).trans hostKey_eq_some

theorem RegistryInv.peerLink_iff (h : m.RegistryInv) {host : String} :
    m.peerLink host = some l ↔ (m.links l).life = .live ∧
      ((m.links l).registIp = "" ∧ (m.links l).sessionId ≠ zeroUid) ∧ (m.links l).peerHost = host :=
  (h.peer host l).trans loginKey_eq_some

theorem RegistryInv.entriesOpen (h : m.RegistryInv) : m.EntriesOpen where
  session _ _ hs := (h.sessionLink_iff.mp hs).1
  user _ _ hu := (h.userLink_iff.mp hu).1
  host _ _ hh := (h.hostLink_iff.mp hh).1
  hostSession _ _ hs := by
    obtain ⟨l, hl⟩ := Option.ne_none_iff_exists'.mp (h.known hs)
    exact ⟨l, hl, (h.sessionLink_iff.mp hl).1⟩

theorem RegistryInv.openFound (h : m.RegistryInv) : m.OpenFound where
  session _ hlive hkey := h.sessionLink_iff.mpr ⟨hlive, hkey, rfl⟩
  host _ hlive hkey := h.hostLink_iff.mpr ⟨hlive, hkey, rfl⟩
  peer l hlive hip hkey := by
    have hpeer := h.peerLink_iff.mpr ⟨hlive, ⟨hip, hkey⟩, rfl⟩
    obtain ⟨sid, hsid, hl⟩ := Option.bind_eq_some_iff.mp hpeer
    rw [hsid, (h.sessionLink_iff.mp hl).2.2]

theorem registryInv_empty : RegistryInv {} where
  session := by simp [Index.Agrees, sessionKey]
  user := by simp [Index.Agrees, userKey]
  host := by simp [Index.Agrees, hostKey]
  peer := by simp [Index.Agrees, peerLink, loginKey]
  known := nofun
  registered := nofun

/-- One link changes, and each map follows the change of its key. -/
theorem RegistryInv.of_update {m' : CClientLinkMgr} (h : m.RegistryInv) {k : CClientLink}
    (hlinks : m'.links = Function.update m.links l k)
    (hsession : Index.Agrees m'.sessionLink (Function.update (sessionKey ∘ m.links) l k.sessionKey))
    (huser : Index.Agrees m'.userLink (Function.update (userKey ∘ m.links) l k.userKey))
    (hhost : Index.Agrees m'.hostLink (Function.update (hostKey ∘ m.links) l k.hostKey))
    (hpeer : Index.Agrees m'.peerLink (Function.update (loginKey ∘ m.links) l k.loginKey))
    (hknown : ∀ {host sid}, m'.hostSession host = some sid → m'.sessionLink sid ≠ none)
    (hregistered : k.life = .live → k.registIp ≠ "" → k.bRegist = true ∧ k.sessionId ≠ zeroUid) :
    m'.RegistryInv := by
  constructor
  · rwa [hlinks, Function.comp_update]
  · rwa [hlinks, Function.comp_update]
  · rwa [hlinks, Function.comp_update]
  · rwa [hlinks, Function.comp_update]
  · exact hknown
  · intro l' hlive hkey
    rw [hlinks] at hlive hkey ⊢
    by_cases hl' : l' = l
    · rw [hl', Function.update_self] at hlive hkey ⊢
      exact hregistered hlive hkey
    · rw [Function.update_of_ne hl'] at hlive hkey ⊢
      exact h.registered hlive hkey

theorem RegistryInv.of_keys_eq (h : m.RegistryInv) {k : CClientLink}
    (hsession : k.sessionKey = (m.links l).sessionKey) (huser : k.userKey = (m.links l).userKey)
    (hhost : k.hostKey = (m.links l).hostKey) (hlogin : k.loginKey = (m.links l).loginKey)
    (hregistered : k.life = .live → k.registIp ≠ "" → k.bRegist = true ∧ k.sessionId ≠ zeroUid) :
    RegistryInv { m with links := Function.update m.links l k } :=
  h.of_update rfl (h.session.of_key_eq hsession) (h.user.of_key_eq huser)
    (h.host.of_key_eq hhost) (h.peer.of_key_eq hlogin) h.known hregistered

theorem RegistryInv.onConnect (h : m.RegistryInv) (hunborn : (m.links l).life = .unborn)
    (linkType : LinkType) (ip : String) (port : UInt16) :
    (m.onConnect l linkType ip port).RegistryInv := by
  refine h.of_keys_eq ?_ ?_ ?_ ?_ fun _ => absurd rfl
  · simp [sessionKey, hunborn]
  · simp [userKey, hunborn]
  · simp [hostKey, hunborn]
  · simp [loginKey, hunborn]

/-- `CloseLink` takes the link out of the user map. It may be told not to, if the user
has another link. -/
theorem closeLink_userLink (h : Index.Agrees m.userLink (userKey ∘ m.links)) {b : Bool}
    (hlive : (m.links l).userId ≠ "" → (m.links l).life = .live)
    (hb : b = true ∨ (m.links l).userId = "" ∨ m.userLink (m.links l).userId ≠ some l) (u : String) :
    (m.closeLink l b).userLink u = if m.userLink u = some l then none else m.userLink u := by
  rw [closeLink_eq]
  by_cases huser : (m.links l).userId = ""
  · have hnone : m.userLink u ≠ some l :=
      fun hu => (userKey_eq_some.mp ((h u l).mp hu)).2.1 huser
    simp only [huser, or_true, if_true, if_neg hnone]
  · have hkey := userKey_eq_some.mpr ⟨hlive huser, huser, rfl⟩
    have hfound : m.userLink (m.links l).userId = some l := (h _ l).mpr hkey
    have hyes : b ≠ false := by
      rintro rfl
      exact (hb.resolve_left nofun).elim huser fun hne => hne hfound
    simp only [if_neg (not_or.mpr ⟨hyes, huser⟩)]
    exact h.update_none_eq_ite hkey u

/-- A user arrives on an open link that carries no other user. -/
theorem userArrived_userLink (h : Index.Agrees m.userLink (userKey ∘ m.links)) {user : String}
    (hlive : (m.links l).life = .live)
    (hcarries : (m.links l).userId = "" ∨ (m.links l).userId = user)
    (hfree : m.userLink user = none ∨ m.userLink user = some l) :
    Index.Agrees (m.userArrived l user).userLink
      (Function.update (userKey ∘ m.links) l ((m.links l).afterArrival user).userKey) := by
  rw [userArrived_eq]
  by_cases hempty : user = ""
  · have hnone : (m.links l).userId = "" := hcarries.elim id fun hsame => hsame.trans hempty
    simp only [if_pos hempty]
    refine h.of_key_eq ?_
    simp [userKey, CClientLink.afterArrival, hempty, hnone]
  · simp only [if_neg hempty]
    have hnew : ((m.links l).afterArrival user).userKey = some user :=
      userKey_eq_some.mpr ⟨hlive, hempty, rfl⟩
    rw [hnew]
    refine h.assign hfree ?_
    rcases hcarries with hnone | hsame
    · exact .inl (if_neg fun hkey => hkey.2 hnone)
    · exact .inr (userKey_eq_some.mpr ⟨hlive, hsame ▸ hempty, hsame⟩)

theorem RegistryInv.hostLinkAfterClose_eq (h : m.RegistryInv) {b : Bool}
    (hgood : m.CloseGood l b) (host : String) :
    m.hostLinkAfterClose l host =
      if m.hostLink host = some l then none else m.hostLink host := by
  obtain ⟨hosts, hhosts⟩ : ∃ hosts, hosts = if (m.links l).registIp = "" then m.hostLink
      else Function.update m.hostLink (m.links l).registHost none := ⟨_, rfl⟩
  -- The registered host string is the only key under which the link is found.
  have hfirst (host : String) :
      hosts host = if m.hostLink host = some l then none else m.hostLink host := by
    rw [hhosts]
    by_cases hip : (m.links l).registIp = ""
    · rw [if_pos hip, if_neg fun hl => (h.hostLink_iff.mp hl).2.1 hip]
    · rw [if_neg hip]
      exact h.host.update_none_eq_ite (hostKey_eq_some.mpr ⟨hgood.live, hip, rfl⟩) host
  simp only [hostLinkAfterClose, ← hhosts]
  split
  · exact hfirst host
  · next hpeer =>
    obtain ⟨hip, hsession⟩ := not_or.mp hpeer
    rw [Function.update_apply]
    split
    · next heq =>
      rw [heq]
      rcases hgood.peer hip hsession with hnone | hself
      · simp only [hnone, ite_self]
      · rw [if_pos hself]
    · exact hfirst host

theorem RegistryInv.closeLink_exactly (h : m.RegistryInv) {b : Bool} (hgood : m.CloseGood l b) :
    m.ClosesExactly (m.closeLink l b) l := by
  constructor
  · intro sid
    rw [closeLink_eq]
    by_cases hzero : (m.links l).sessionId = zeroUid
    · have hnone : m.sessionLink zeroUid = none := by
        refine h.session.find_eq_none fun l' hkey => ?_
        obtain ⟨-, hne, heq⟩ := sessionKey_eq_some.mp hkey
        exact hne heq
      have hself : m.sessionLink sid ≠ some l := fun hl => (h.sessionLink_iff.mp hl).2.1 hzero
      rw [if_neg hself, hzero, ← hnone, Function.update_eq_self]
    · exact h.session.update_none_eq_ite (sessionKey_eq_some.mpr ⟨hgood.live, hzero, rfl⟩) sid
  · exact closeLink_userLink h.user (fun _ => hgood.live) (hgood.user.imp id .inl)
  · rw [closeLink_eq]
    exact h.hostLinkAfterClose_eq hgood
  · intro host
    rw [closeLink_eq]
    have hkeep : m.peerLink host ≠ some l := by
      intro hpeer
      obtain ⟨-, ⟨hip, hne⟩, -⟩ := h.peerLink_iff.mp hpeer
      exact hne (hgood.noLogin hip)
    exact (if_neg hkeep).symm

/-- Removing exactly the entries of a link that is closed keeps consistency. -/
theorem RegistryInv.of_closesExactly {m' : CClientLinkMgr} (h : m.RegistryInv)
    (hexact : m.ClosesExactly m' l) {k : CClientLink} (hclosed : k.life ≠ .live)
    (hlinks : m'.links = Function.update m.links l k) : m'.RegistryInv := by
  have hsession : k.sessionKey = none := if_neg fun hlive => hclosed hlive.1
  have huser : k.userKey = none := if_neg fun hlive => hclosed hlive.1
  have hhost : k.hostKey = none := if_neg fun hlive => hclosed hlive.1
  have hlogin : k.loginKey = none := if_neg fun hlive => hclosed hlive.1
  refine h.of_update hlinks ?_ ?_ ?_ ?_ ?_ fun hlive => absurd hlive hclosed
  · rw [hsession]
    exact h.session.remove hexact.session
  · rw [huser]
    exact h.user.remove hexact.user
  · rw [hhost]
    exact h.host.remove hexact.host
  · rw [hlogin]
    refine h.peer.remove fun host => ?_
    rw [peerLink, peerLink, hexact.hostSession]
    split
    · rfl
    · next hpeer =>
      cases hs : m.hostSession host with
      | none => rfl
      | some sid =>
        rw [hs, Option.bind_some] at hpeer
        rw [Option.bind_some, Option.bind_some, hexact.session, if_neg hpeer]
  · intro host sid hs
    rw [hexact.hostSession] at hs
    split at hs
    · cases hs
    · next hpeer =>
      rw [hs, Option.bind_some] at hpeer
      rw [hexact.session, if_neg hpeer]
      exact h.known hs

theorem RegistryInv.closeLink (h : m.RegistryInv) {b : Bool} (hgood : m.CloseGood l b) :
    (m.closeLink l b).RegistryInv := by
  refine h.of_closesExactly (h.closeLink_exactly hgood) ?_ (closeLink_links b)
  exact nofun

/-- A new entry for `l` in the maps of sessions and hosts, where `l` had none. -/
theorem RegistryInv.onAssocSvrRegist (h : m.RegistryInv) {ip : String} {port : UInt16}
    {sid : UidCode} (htype : (m.links l).linkType ≠ .mobileLogin)
    (hlive : (m.links l).life = .live) (hzero : (m.links l).sessionId = zeroUid) (hip : ip ≠ "")
    (hhost : m.hostLink (getHostString ip port) = none) (hsid : sid ≠ zeroUid)
    (hfree : m.sessionLink sid = none) :
    (m.onAssocSvrRegist l ip port sid).RegistryInv := by
  rw [onAssocSvrRegist_eq htype hip, if_pos hfree, if_pos hhost]
  have hfresh : (m.links l).registIp = "" := by
    by_contra hr
    exact (h.registered hlive hr).2 hzero
  have hsessionKey : (m.links l).sessionKey = none := if_neg fun hkey => hkey.2 hzero
  have hhostKey : (m.links l).hostKey = none := if_neg fun hkey => hkey.2 hfresh
  have hloginKey : (m.links l).loginKey = none := if_neg fun hkey => hkey.2.2 hzero
  have hknown {host : String} {sid' : UidCode} (hs : m.hostSession host = some sid') :
      sid' ≠ sid := by
    rintro rfl
    exact h.known hs hfree
  obtain ⟨k, hk⟩ : ∃ k, k = (m.links l).afterRegist ip port sid := ⟨_, rfl⟩
  rw [← hk]
  have hnewSession : k.sessionKey = some sid := by
    rw [hk]
    exact sessionKey_eq_some.mpr ⟨hlive, hsid, rfl⟩
  have hnewHost : k.hostKey = some (getHostString ip port) := by
    rw [hk]
    exact hostKey_eq_some.mpr ⟨hlive, hip, rfl⟩
  have hnewLogin : k.loginKey = none := by
    rw [hk]
    exact if_neg fun hkey => hip hkey.2.1
  refine h.of_update rfl ?_ ?_ ?_ ?_ ?_ ?_
  · rw [hnewSession]
    exact h.session.insert hfree hsessionKey
  · refine h.user.of_key_eq ?_
    rw [hk]
    rfl
  · rw [hnewHost]
    exact h.host.insert hhost hhostKey
  · have hpeer : m.peerLink = fun host =>
        (m.hostSession host).bind (Function.update m.sessionLink sid (some l)) := by
      funext host
      cases hs : m.hostSession host with
      | none => simp only [peerLink, hs, Option.bind_none]
      | some sid' =>
        simp only [peerLink, hs, Option.bind_some, Function.update_of_ne (hknown hs)]
    have hkept := h.peer.of_key_eq (hnewLogin.trans hloginKey.symm)
    rwa [hpeer] at hkept
  · intro host sid' hs
    simp only [Function.update_of_ne (hknown hs)]
    exact h.known hs
  · intro _ _
    rw [hk]
    exact ⟨rfl, hsid⟩

/-- A login moves `l` to its new session id. The session id that is removed first is
the one recorded for the peer's host, or bytes that no other link has. -/
theorem RegistryInv.onLoginPretreat (h : m.RegistryInv) {remote : String × UInt16}
    {uninit sid : UidCode} (hregist : (m.links l).bRegist = false)
    (hlogining : (m.links l).bLogining = false) (hlive : (m.links l).life = .live)
    (hip : (m.links l).peerIp ≠ "") (hsid : sid ≠ zeroUid) (hfree : m.sessionLink sid = none)
    (hold : m.sessionLink ((m.hostSession (m.links l).peerHost).getD uninit) = none ∨
      m.sessionLink ((m.hostSession (m.links l).peerHost).getD uninit) = some l) :
    ((m.onLoginPretreat l remote uninit sid).getD m).RegistryInv := by
  rw [onLoginPretreat_of_peerIp hregist hlogining hip, Option.getD_some]
  obtain ⟨old, hdel⟩ : ∃ old, old = (m.hostSession (m.links l).peerHost).getD uninit := ⟨_, rfl⟩
  rw [← hdel] at hold ⊢
  have hdelsid : Function.update m.sessionLink old none sid = none := by
    rw [Function.update_apply, hfree, ite_self]
  simp only [if_pos hdelsid]
  have hserver : (m.links l).registIp = "" := by
    by_contra hr
    rw [(h.registered hlive hr).1] at hregist
    cases hregist
  -- Other hosts keep sessions that are neither removed nor the new one.
  have hkeep {host : String} {sid' : UidCode} (hhost : host ≠ (m.links l).peerHost)
      (hs : m.hostSession host = some sid') : sid' ≠ old ∧ sid' ≠ sid := by
    constructor
    · rintro rfl
      have hself := hold.resolve_left (h.known hs)
      have hpeer : m.peerLink host = some l := Option.bind_eq_some_iff.mpr ⟨_, hs, hself⟩
      exact hhost (h.peerLink_iff.mp hpeer).2.2.symm
    · rintro rfl
      exact h.known hs hfree
  obtain ⟨k, hk⟩ : ∃ k, k = (m.links l).afterPretreat sid := ⟨_, rfl⟩
  rw [← hk]
  have hnewSession : k.sessionKey = some sid := by
    rw [hk]
    exact sessionKey_eq_some.mpr ⟨hlive, hsid, rfl⟩
  have hnewLogin : k.loginKey = some (m.links l).peerHost := by
    rw [hk]
    exact loginKey_eq_some.mpr ⟨hlive, ⟨hserver, hsid⟩, rfl⟩
  refine h.of_update rfl ?_ ?_ ?_ ?_ ?_ ?_
  · rw [hnewSession]
    by_cases hzero : (m.links l).sessionId = zeroUid
    · have hnone : m.sessionLink old = none := by
        refine hold.resolve_right fun hself => ?_
        exact (h.sessionLink_iff.mp hself).2.1 hzero
      have hsame : Function.update m.sessionLink old none = m.sessionLink := by
        rw [← hnone, Function.update_eq_self]
      rw [hsame]
      exact h.session.insert hfree (if_neg fun hkey => hkey.2 hzero)
    · have hcurrent : old = (m.links l).sessionId := by
        rw [hdel, h.openFound.peer l hlive hserver hzero, Option.getD_some]
      refine h.session.move (sessionKey_eq_some.mpr ⟨hlive, hzero, ?_⟩) (.inl hfree)
      exact hcurrent.symm
  · refine h.user.of_key_eq ?_
    rw [hk]
    rfl
  · refine h.host.of_key_eq ?_
    rw [hk]
    rfl
  · rw [hnewLogin]
    obtain ⟨find, hfind⟩ : ∃ find, find = Function.update m.peerLink (m.links l).peerHost (some l) :=
      ⟨_, rfl⟩
    have hpeer : find = fun host =>
        (Function.update m.hostSession (m.links l).peerHost (some sid) host).bind
          (Function.update (Function.update m.sessionLink old none) sid (some l)) := by
      funext host
      rw [hfind]
      by_cases hhost : host = (m.links l).peerHost
      · simp only [hhost, Function.update_self, Option.bind_some]
      · rw [Function.update_of_ne hhost, Function.update_of_ne hhost]
        cases hs : m.hostSession host with
        | none => rw [peerLink, hs, Option.bind_none, Option.bind_none]
        | some sid' =>
          obtain ⟨hnold, hnsid⟩ := hkeep hhost hs
          rw [peerLink, hs, Option.bind_some, Option.bind_some, Function.update_of_ne hnsid,
            Function.update_of_ne hnold]
    have hagrees : Index.Agrees find
        (Function.update (loginKey ∘ m.links) l (some (m.links l).peerHost)) := by
      rw [hfind]
      refine h.peer.assign ?_ ?_
      · cases hs : m.hostSession (m.links l).peerHost with
        | none => exact .inl (by rw [peerLink, hs, Option.bind_none])
        | some sid' =>
          rw [hs, Option.getD_some] at hdel
          rwa [peerLink, hs, Option.bind_some, ← hdel]
      · exact ite_eq_or_eq .. |>.symm
    rwa [hpeer] at hagrees
  · intro host sid' hs
    by_cases hhost : host = (m.links l).peerHost
    · simp only [hhost, Function.update_self, Option.some.injEq] at hs
      simp only [hs, Function.update_self]
      exact Option.some_ne_none l
    · simp only [Function.update_of_ne hhost] at hs
      obtain ⟨hnold, hnsid⟩ := hkeep hhost hs
      simp only [Function.update_of_ne hnsid, Function.update_of_ne hnold]
      exact h.known hs
  · intro _ hkey
    rw [hk] at hkey
    exact absurd hserver hkey

theorem RegistryInv.userArrived (h : m.RegistryInv) {user : String}
    (hlive : (m.links l).life = .live)
    (hcarries : (m.links l).userId = "" ∨ (m.links l).userId = user)
    (hfree : m.userLink user = none ∨ m.userLink user = some l) :
    (m.userArrived l user).RegistryInv := by
  have huser := userArrived_userLink h.user hlive hcarries hfree
  rw [userArrived_eq] at huser ⊢
  exact h.of_update rfl (h.session.of_key_eq rfl) huser (h.host.of_key_eq rfl)
    (h.peer.of_key_eq rfl) h.known fun _ hkey => ⟨rfl, (h.registered hlive hkey).2⟩

/-- Flags of a link other than `m_bRegist` are not looked at by the maps. -/
theorem RegistryInv.userLeft (h : m.RegistryInv) : (m.userLeft l).RegistryInv :=
  h.of_keys_eq rfl rfl rfl rfl h.registered

theorem RegistryInv.setClosing (h : m.RegistryInv) : (m.setClosing l).RegistryInv :=
  h.of_keys_eq rfl rfl rfl rfl h.registered

theorem CloseGood.setClosing {b : Bool} (hgood : m.CloseGood l b) :
    (m.setClosing l).CloseGood l b := by
  obtain ⟨hlive, huser, hlogin, hpeer⟩ := hgood
  constructor
  · simpa only [CClientLinkMgr.setClosing, modify_links_self] using hlive
  · simpa only [CClientLinkMgr.setClosing, modify_links_self] using huser
  · simpa only [CClientLinkMgr.setClosing, modify_links_self] using hlogin
  · simpa only [CClientLinkMgr.setClosing, modify_links_self, modify_hostSession, modify_hostLink,
      CClientLink.peerHost] using hpeer

/-- When `Close` calls `CloseLink` at once, the state is good for it. -/
theorem closeGood_of_close (hgood : Good m (.close l)) (hopen : (m.links l).bClosing = false)
    (hnow : (m.links l).bRegist = false ∨ (m.links l).linkType = .assocRegist) :
    m.CloseGood l true := by
  rcases hgood with hclosing | ⟨hregist, htype⟩ | hclose
  · rw [hopen] at hclosing
    cases hclosing
  · rw [hregist, htype] at hnow
    exact hnow.elim nofun nofun
  · exact hclose

theorem RegistryInv.close (h : m.RegistryInv) (hgood : Good m (.close l)) :
    (m.close l).1.RegistryInv := by
  rcases m.close_cases (l := l) with ⟨-, heq⟩ | ⟨hopen, hnow, heq⟩ | ⟨-, -, -, heq⟩
  · rw [heq]
    exact h
  · rw [heq]
    exact h.setClosing.closeLink (closeGood_of_close hgood hopen hnow).setClosing
  · rw [heq]
    exact h.setClosing.userLeft

theorem RegistryInv.close_exactly (h : m.RegistryInv) (hgood : Good m (.close l))
    (hlive : (m.links l).life = .live) (hclosed : ((m.close l).1.links l).life = .closed) :
    m.ClosesExactly (m.close l).1 l := by
  rcases m.close_cases (l := l) with ⟨-, heq⟩ | ⟨hopen, hnow, heq⟩ | ⟨-, -, -, heq⟩
  · rw [heq, hlive] at hclosed
    cases hclosed
  · rw [heq]
    have hclose := (closeGood_of_close hgood hopen hnow).setClosing
    obtain ⟨hsession, huser, hhost, hpeer⟩ := h.setClosing.closeLink_exactly hclose
    exact ⟨hsession, huser, hhost, hpeer⟩
  · rw [heq] at hclosed
    simp only [CClientLinkMgr.userLeft, CClientLinkMgr.setClosing, modify_links_self, hlive]
      at hclosed
    cases hclosed

theorem RegistryInv.linkStep (h : m.RegistryInv) {e : LinkEvent} {m' : CClientLinkMgr}
    (hgood : Good m e) (hstep : m.linkStep e = some m') : m'.RegistryInv := by
  cases e with
  | connect l linkType ip port =>
    obtain ⟨hunborn, hstep⟩ := Option.ite_none_right_eq_some.mp hstep
    cases hstep
    exact h.onConnect hunborn linkType ip port
  | regist l ip port sid =>
    obtain ⟨-, hstep⟩ := Option.ite_none_left_eq_some.mp hstep
    rw [← apply_ite some, Option.some.injEq] at hstep
    subst hstep
    split
    · exact h
    · next hopen =>
      rcases hgood with hclosing | hmobile | ⟨hlive, hzero, hip, hhost, hsid, hfree⟩
      · exact absurd hclosing hopen
      · rwa [CClientLinkMgr.onAssocSvrRegist, if_pos hmobile]
      · by_cases htype : (m.links l).linkType = .mobileLogin
        · rwa [CClientLinkMgr.onAssocSvrRegist, if_pos htype]
        · exact h.onAssocSvrRegist htype hlive hzero hip hhost hsid hfree
  | login l remote uninit sid =>
    obtain ⟨-, hstep⟩ := Option.ite_none_left_eq_some.mp hstep
    rw [← apply_ite some, Option.some.injEq] at hstep
    subst hstep
    split
    · exact h
    · next hopen =>
      by_cases hbusy : ((m.links l).bRegist || (m.links l).bLogining) = true
      · rwa [CClientLinkMgr.onLoginPretreat, if_pos hbusy]
      · obtain ⟨hregist, hlogining⟩ := Bool.or_eq_false_iff.mp (eq_false_of_ne_true hbusy)
        rcases hgood with hclosing | hbad | hbad | ⟨hlive, hip, hsid, hfree, hold⟩
        · exact absurd hclosing hopen
        · rw [hregist] at hbad
          cases hbad
        · rw [hlogining] at hbad
          cases hbad
        · exact h.onLoginPretreat hregist hlogining hlive hip hsid hfree hold
  | userArrived l user =>
    obtain ⟨-, hstep⟩ := Option.ite_none_left_eq_some.mp hstep
    cases hstep
    obtain ⟨hlive, hcarries, hfree⟩ := hgood
    exact h.userArrived hlive hcarries hfree
  | userLeft l =>
    obtain ⟨-, hstep⟩ := Option.ite_none_left_eq_some.mp hstep
    cases hstep
    exact h.userLeft
  | close l =>
    obtain ⟨-, hstep⟩ := Option.ite_none_left_eq_some.mp hstep
    cases hstep
    exact h.close hgood
  | closeLink l bUserLink =>
    obtain ⟨-, hstep⟩ := Option.ite_none_left_eq_some.mp hstep
    cases hstep
    exact h.closeLink hgood

/-- A link is closed by `Close` or by `CloseLink`, and by no event on another link. -/
theorem linkStep_closes {e : LinkEvent} {m' : CClientLinkMgr} (hstep : m.linkStep e = some m')
    (hlive : (m.links l).life = .live) (hclosed : (m'.links l).life = .closed) :
    e = .close l ∨ ∃ b, e = .closeLink l b := by
  have hkept : (m'.links l).life ≠ (m.links l).life := by
    rw [hlive, hclosed]
    exact nofun
  cases e with
  | connect l' linkType ip port =>
    obtain ⟨hunborn, hstep⟩ := Option.ite_none_right_eq_some.mp hstep
    cases hstep
    by_cases hl : l = l'
    · rw [← hl, hlive] at hunborn
      cases hunborn
    · exact absurd (congrArg CClientLink.life (modify_links_of_ne _ hl)) hkept
  | regist l' ip port sid =>
    obtain ⟨-, hstep⟩ := Option.ite_none_left_eq_some.mp hstep
    split at hstep <;> cases hstep
    · exact absurd rfl hkept
    · exact absurd (onAssocSvrRegist_life ip port sid) hkept
  | login l' remote uninit sid =>
    obtain ⟨-, hstep⟩ := Option.ite_none_left_eq_some.mp hstep
    split at hstep <;> cases hstep
    · exact absurd rfl hkept
    · exact absurd (onLoginPretreat_field _ fun _ _ _ _ => rfl) hkept
  | userArrived l' user =>
    obtain ⟨-, hstep⟩ := Option.ite_none_left_eq_some.mp hstep
    cases hstep
    rw [userArrived_links] at hkept
    exact absurd (modify_field (f := fun k => k.afterArrival user) _ rfl) hkept
  | userLeft l' =>
    obtain ⟨-, hstep⟩ := Option.ite_none_left_eq_some.mp hstep
    cases hstep
    exact absurd (modify_field _ rfl) hkept
  | close l' =>
    obtain ⟨-, hstep⟩ := Option.ite_none_left_eq_some.mp hstep
    cases hstep
    by_cases hl : l = l'
    · exact .inl (hl ▸ rfl)
    · exact absurd (congrArg CClientLink.life (close_links_of_ne hl)) hkept
  | closeLink l' bUserLink =>
    obtain ⟨-, hstep⟩ := Option.ite_none_left_eq_some.mp hstep
    cases hstep
    by_cases hl : l = l'
    · exact .inr ⟨bUserLink, hl ▸ rfl⟩
    · exact absurd (congrArg CClientLink.life (closeLink_links_of_ne hl bUserLink)) hkept

/-- In every run of good events, each entry of the four maps refers to an open link,
open links are found under their keys, and a link that is closed takes its own
entries out of the maps and no others. -/
theorem registry_consistent (h : Run.Reaches linkStep Good {} m) :
    m.EntriesOpen ∧ m.OpenFound ∧
      ∀ e m' l, Good m e → m.linkStep e = some m' → (m.links l).life = .live →
        (m'.links l).life = .closed → m.ClosesExactly m' l := by
  have hinv : m.RegistryInv :=
    h.invariant _ registryInv_empty fun _ _ _ hinv hgood hstep => hinv.linkStep hgood hstep
  refine ⟨hinv.entriesOpen, hinv.openFound, ?_⟩
  intro e m' l hgood hstep hlive hclosed
  rcases linkStep_closes hstep hlive hclosed with rfl | ⟨b, rfl⟩
  · obtain ⟨-, hstep⟩ := Option.ite_none_left_eq_some.mp hstep
    cases hstep
    exact hinv.close_exactly hgood hlive hclosed
  · obtain ⟨-, hstep⟩ := Option.ite_none_left_eq_some.mp hstep
    cases hstep
    exact hinv.closeLink_exactly hgood

/-- A server connects, registers and is closed. -/
theorem registry_consistent_server :
    ∃ m, Run.run linkStep {} [.connect 0 .assocRegist "10.0.0.1" 80,
        .regist 0 "10.0.0.2" 8000 (Vector.replicate 12 1), .close 0] = some m ∧
      m.EntriesOpen ∧ m.OpenFound := by
  refine ⟨_, rfl, ?_⟩
  have hrun := registry_consistent (.next (e := .close 0)
    (.next (e := .regist 0 "10.0.0.2" 8000 (Vector.replicate 12 1))
      (.next (e := .connect 0 .assocRegist "10.0.0.1" 80) .refl trivial rfl)
      (.inr (.inr ⟨rfl, rfl, by decide, rfl, by decide, rfl⟩)) rfl)
    (.inr (.inr ⟨rfl, .inl rfl, nofun, fun _ hnone => absurd rfl hnone⟩)) rfl)
  exact ⟨hrun.1, hrun.2.1⟩

/-- An app connects, logs in and is closed. The session of its host stays in the map,
and no link has that session. -/
theorem registry_not_consistent_login :
    ∃ m, Run.run linkStep {} [.connect 0 .mobileLogin "10.0.0.1" 80,
        .login 0 ("", 0) zeroUid (Vector.replicate 12 1), .close 0] = some m ∧
      ¬ m.EntriesOpen := by
  refine ⟨_, rfl, fun hopen => ?_⟩
  obtain ⟨l, hl, -⟩ := hopen.hostSession "10.0.0.1:80" (Vector.replicate 12 1) (by decide)
  exact Option.some_ne_none l (hl.symm.trans (by decide))

end CClientLinkMgr

end ImServer
