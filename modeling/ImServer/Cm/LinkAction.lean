import ImServer.Cm.Transmission

/-!
# What a packet does to the links

Most packets change no link. The others close one link, or bind a user to a link
and close the link that had the user before. `action` says which, as a function of
the registry before the packet is processed, and the handlers are proved to do just
that to everything but reference counts. Where each reference that a look-up takes
is given back, they do it to reference counts as well.
-/

namespace ImServer

/-- A link without its reference count. -/
def CClientLink.core (k : CClientLink) : CClientLink := { k with refCount := 1, freed := 0 }

namespace CClientLinkMgr

/-- A registry without the reference counts of its links. -/
def core (m : CClientLinkMgr) : CClientLinkMgr := { m with links := CClientLink.core ∘ m.links }

variable {m : CClientLinkMgr} {l l' : LinkId}

theorem core_modify {f : CClientLink → CClientLink} (hf : (f (m.links l)).core = (m.links l).core) :
    (m.modify l f).core = m.core := by
  have hlinks : CClientLink.core ∘ (m.modify l f).links = CClientLink.core ∘ m.links := by
    rw [modify_links, Function.comp_update, hf]
    exact Function.update_eq_self l (CClientLink.core ∘ m.links)
  simp only [core, hlinks]
  rfl

@[simp] theorem core_addRef : (m.addRef l).core = m.core := core_modify rfl

@[simp] theorem core_releaseRef : (m.releaseRef l).core = m.core := core_modify rfl

theorem core_closeLink (b : Bool) : (m.closeLink l b).core = (m.core.closeLink l b).core := by
  have hlinks : CClientLink.core ∘ Function.update m.links l (m.links l).afterClose =
      CClientLink.core ∘ Function.update m.core.links l (m.core.links l).afterClose := by
    rw [Function.comp_update, Function.comp_update]
    rfl
  rw [closeLink_eq, closeLink_eq]
  simp only [core, hlinks]
  rfl

theorem core_userArrived (user : String) :
    (m.userArrived l user).core = (m.core.userArrived l user).core := by
  have hlinks : CClientLink.core ∘ Function.update m.links l ((m.links l).afterArrival user) =
      CClientLink.core ∘ Function.update m.core.links l ((m.core.links l).afterArrival user) := by
    rw [Function.comp_update, Function.comp_update]
    rfl
  rw [userArrived_eq, userArrived_eq]
  simp only [core, hlinks]

theorem core_withRemote (k : CClientLink) (remote : String × UInt16) :
    k.core.withRemote remote = (k.withRemote remote).core := by
  unfold CClientLink.withRemote
  by_cases hip : k.peerIp = ""
  · rw [if_pos hip, if_pos (show k.core.peerIp = "" from hip)]
    rfl
  · rw [if_neg hip, if_neg (show k.core.peerIp ≠ "" from hip)]

theorem core_onLoginPretreat {remote : String × UInt16} {uninit sid : UidCode} :
    (m.onLoginPretreat l remote uninit sid).map core =
      (m.core.onLoginPretreat l remote uninit sid).map core := by
  by_cases hbusy : ((m.links l).bRegist || (m.links l).bLogining) = true
  · rw [onLoginPretreat, if_pos hbusy, onLoginPretreat, if_pos]
    exact hbusy
  · obtain ⟨hregist, hlogining⟩ := Bool.or_eq_false_iff.mp (eq_false_of_ne_true hbusy)
    have hremote : (m.core.links l).withRemote remote = ((m.links l).withRemote remote).core :=
      core_withRemote _ _
    have hlinks : CClientLink.core ∘ Function.update m.links l
          (((m.links l).withRemote remote).afterPretreat sid) =
        CClientLink.core ∘ Function.update m.core.links l
          (((m.links l).withRemote remote).core.afterPretreat sid) := by
      rw [Function.comp_update, Function.comp_update]
      rfl
    rw [onLoginPretreat_eq hregist hlogining, onLoginPretreat_eq (m := m.core) hregist hlogining]
    simp only [Option.map_some, hremote]
    simp only [core, hlinks]
    rfl

theorem core_closeLink_congr {m' : CClientLinkMgr} (h : m.core = m'.core) (b : Bool) :
    (m.closeLink l b).core = (m'.closeLink l b).core := by
  rw [core_closeLink, h, ← core_closeLink]

theorem core_userArrived_congr {m' : CClientLinkMgr} (h : m.core = m'.core) (user : String) :
    (m.userArrived l user).core = (m'.userArrived l user).core := by
  rw [core_userArrived, h, ← core_userArrived]

theorem core_onLoginPretreat_congr {m' : CClientLinkMgr} (h : m.core = m'.core)
    {remote : String × UInt16} {uninit sid : UidCode} :
    ((m.onLoginPretreat l remote uninit sid).getD m).core =
      ((m'.onLoginPretreat l remote uninit sid).getD m').core := by
  rw [← Option.getD_map core, ← Option.getD_map core, core_onLoginPretreat, h,
    ← core_onLoginPretreat]

theorem getLinkBySessionId_of_some {sid : UidCode} (h : m.sessionLink sid = some l) :
    m.getLinkBySessionId sid = (m.addRef l, some l) := by
  rw [getLinkBySessionId, h]

theorem getLinkBySessionId_of_none {sid : UidCode} (h : m.sessionLink sid = none) :
    m.getLinkBySessionId sid = (m, none) := by
  rw [getLinkBySessionId, h]

theorem getLinkByUserId_of_some {user : String} (hname : user ≠ "") (h : m.userLink user = some l) :
    m.getLinkByUserId user = (m.addRef l, some l) := by
  rw [getLinkByUserId, if_neg hname, h]

theorem getLinkByUserId_of_none {user : String} (h : user = "" ∨ m.userLink user = none) :
    m.getLinkByUserId user = (m, none) := by
  rw [getLinkByUserId]
  split
  · rfl
  · next hname => rw [h.resolve_left hname]

@[simp] theorem core_visitSession {sid : UidCode} : (m.visitSession sid).core = m.core := by
  unfold visitSession
  cases h : m.sessionLink sid with
  | none => rw [getLinkBySessionId_of_none h]
  | some l => simp [getLinkBySessionId_of_some h]

end CClientLinkMgr

namespace CTransimission

inductive Action where
  | nothing
  | close (l : LinkId) (bUserLink : Bool)
  | bind (l : LinkId) (user : String) (replaced : Option LinkId)
  deriving DecidableEq, Repr

def Action.apply (m : CClientLinkMgr) : Action → CClientLinkMgr
  | .nothing => m
  | .close l bUserLink => m.closeLink l bUserLink
  | .bind l user none => m.userArrived l user
  | .bind l user (some old) => (m.closeLink old true).userArrived l user

/-- Closing the link of a user. -/
def closeUserAction (m : CClientLinkMgr) (user : String) : Action :=
  match m.userLink user with
  | some l => .close l true
  | none => .nothing

/-- Closing the link of a session. -/
def closeSessionAction (m : CClientLinkMgr) (sid : UidCode) : Action :=
  match m.sessionLink sid with
  | some l => .close l true
  | none => .nothing

/-- A user arrives on the link of a session. -/
def bindAction (m : CClientLinkMgr) (sid : UidCode) (user : String) : Action :=
  match m.sessionLink sid with
  | some l => .bind l user ((m.userLink user).filter fun old => old ≠ l)
  | none => .nothing

/-- A login result concerns the link that the session of its host leads to. -/
def loginResultAction (m : CClientLinkMgr) (res : LoginResult) (uninit : UidCode) : Action :=
  let sid := m.getSessionByHost res.sHost uninit
  if res.type = .loginAck ∧ res.nErr = nonErr then bindAction m sid (prefixCmStr ++ res.sUserId)
  else closeSessionAction m sid

/-- What processing a packet does to the links. -/
def action (m : CClientLinkMgr) (pdu : Pdu) (uninit : UidCode) : Action :=
  match packetExecutor pdu.commandId, pdu.body with
  | some .onCloseLink, _ =>
    match m.sessionLink pdu.sessionId with
    | none => .nothing
    | some l => .close l ((m.links l).userId ≠ "" ∧ m.userLink (m.links l).userId = some l)
  | some .onLoginCMNotify, .loginCMNotify sUserId => closeUserAction m (prefixCmStr ++ sUserId)
  | some .onLoginResult, .loginResult res => loginResultAction m res uninit
  | some .onClientTrans, .addressed sUserId =>
    if pdu.commandId = cmLogoutAck then closeUserAction m (prefixCmStr ++ sUserId) else .nothing
  | _, _ => .nothing

theorem prefixCmStr_append_ne (sUserId : String) : prefixCmStr ++ sUserId ≠ "" := by
  intro h
  have hlength := congrArg String.length h
  simp [prefixCmStr, String.length_append] at hlength

variable {m : CClientLinkMgr}

theorem closeUserAction_eq_close {user : String} {l : LinkId} {b : Bool}
    (h : closeUserAction m user = .close l b) : m.userLink user = some l ∧ b = true := by
  unfold closeUserAction at h
  split at h
  · next hl =>
    cases h
    exact ⟨hl, rfl⟩
  · cases h

theorem closeSessionAction_eq_close {sid : UidCode} {l : LinkId} {b : Bool}
    (h : closeSessionAction m sid = .close l b) : m.sessionLink sid = some l ∧ b = true := by
  unfold closeSessionAction at h
  split at h
  · next hl =>
    cases h
    exact ⟨hl, rfl⟩
  · cases h

theorem bindAction_eq_bind {sid : UidCode} {l : LinkId} {user name : String} {old : Option LinkId}
    (h : bindAction m sid name = .bind l user old) :
    m.sessionLink sid = some l ∧ user = name ∧ old = (m.userLink name).filter fun l' => l' ≠ l := by
  unfold bindAction at h
  split at h
  · next hl =>
    cases h
    exact ⟨hl, rfl, rfl⟩
  · cases h

/-- A link that is closed was found by a session id or by the id of its user, and its
user loses it if the user map has it. -/
theorem action_eq_close {pdu : Pdu} {uninit : UidCode} {l : LinkId} {b : Bool}
    (h : action m pdu uninit = .close l b) :
    ((∃ sid, m.sessionLink sid = some l) ∨ ∃ user, user ≠ "" ∧ m.userLink user = some l) ∧
      (b = true ∨ (m.links l).userId = "" ∨ m.userLink (m.links l).userId ≠ some l) := by
  unfold action at h
  split at h
  · split at h
    · cases h
    · next hl =>
      cases h
      refine ⟨.inl ⟨_, hl⟩, ?_⟩
      simp only [decide_eq_true_eq, ne_eq]
      tauto
  · obtain ⟨hl, hb⟩ := closeUserAction_eq_close h
    exact ⟨.inr ⟨_, prefixCmStr_append_ne _, hl⟩, .inl hb⟩
  · unfold loginResultAction at h
    dsimp only at h
    split at h
    · unfold bindAction at h
      split at h <;> cases h
    · obtain ⟨hl, hb⟩ := closeSessionAction_eq_close h
      exact ⟨.inl ⟨_, hl⟩, .inl hb⟩
  · split at h
    · obtain ⟨hl, hb⟩ := closeUserAction_eq_close h
      exact ⟨.inr ⟨_, prefixCmStr_append_ne _, hl⟩, .inl hb⟩
    · cases h
  · cases h

/-- A user is bound by a successful login result, to the link that the session of its
host leads to. -/
theorem action_eq_bind {pdu : Pdu} {uninit : UidCode} {l : LinkId} {user : String}
    {old : Option LinkId} (h : action m pdu uninit = .bind l user old) :
    packetExecutor pdu.commandId = some .onLoginResult ∧
      ∃ res, pdu.body = .loginResult res ∧ res.type = .loginAck ∧ res.nErr = nonErr ∧
        user = prefixCmStr ++ res.sUserId ∧
        m.sessionLink (m.getSessionByHost res.sHost uninit) = some l ∧
        old = (m.userLink user).filter fun l' => l' ≠ l := by
  unfold action at h
  split at h
  · split at h <;> cases h
  · unfold closeUserAction at h
    split at h <;> cases h
  · next res hexecutor hbody =>
    refine ⟨hexecutor, res, hbody, ?_⟩
    unfold loginResultAction at h
    dsimp only at h
    split at h
    · next hsuccess =>
      obtain ⟨hl, huser, hold⟩ := bindAction_eq_bind h
      subst huser
      exact ⟨hsuccess.1, hsuccess.2, rfl, hl, hold⟩
    · unfold closeSessionAction at h
      split at h <;> cases h
  · split at h
    · unfold closeUserAction at h
      split at h <;> cases h
    · cases h
  · cases h

section Core

open CClientLinkMgr

theorem Action.apply_core_congr {m' : CClientLinkMgr} (h : m.core = m'.core) (a : Action) :
    (a.apply m).core = (a.apply m').core := by
  cases a with
  | nothing => exact h
  | close l b => exact core_closeLink_congr h b
  | bind l user replaced =>
    cases replaced with
    | none => exact core_userArrived_congr h user
    | some old => exact core_userArrived_congr (core_closeLink_congr h true) user

theorem userLink_eq_of_core {m' : CClientLinkMgr} (h : m.core = m'.core) :
    m.userLink = m'.userLink :=
  (congrArg CClientLinkMgr.userLink h :)

theorem sessionLink_eq_of_core {m' : CClientLinkMgr} (h : m.core = m'.core) :
    m.sessionLink = m'.sessionLink :=
  (congrArg CClientLinkMgr.sessionLink h :)

theorem sendPduToUser_eq {user : String} (hname : user ≠ "") :
    ∃ m', m'.core = m.core ∧ sendPduToUser m user = (m', (m.userLink user).isSome) := by
  unfold sendPduToUser
  cases h : m.userLink user with
  | none => exact ⟨m, rfl, by rw [getLinkByUserId_of_none (.inr h)]; rfl⟩
  | some l =>
    refine ⟨(m.addRef l).releaseRef l, by simp, ?_⟩
    rw [getLinkByUserId_of_some hname h]
    rfl

theorem sendAck_core (sid : UidCode) : (sendAck m sid).core = m.core := core_visitSession

theorem transTo_core (service : Service) (pdu : Pdu) : (transTo m service pdu).1.core = m.core := by
  unfold transTo
  cases h : m.sessionLink pdu.sessionId with
  | none => rw [getLinkBySessionId_of_none h]
  | some l =>
    rw [getLinkBySessionId_of_some h]
    dsimp only
    split <;> simp

theorem onLoginTrans_core (pdu : Pdu) : (onLoginTrans m pdu).1.core = m.core := by
  unfold onLoginTrans
  split
  · cases h : m.sessionLink pdu.sessionId with
    | none => rw [getLinkBySessionId_of_none h]
    | some l => simp [getLinkBySessionId_of_some h]
  · exact transTo_core _ _

theorem closeUserLink_core {user : String} (hname : user ≠ "") :
    (closeUserLink m user).core = ((closeUserAction m user).apply m).core := by
  unfold closeUserLink closeUserAction
  cases h : m.userLink user with
  | none => rw [getLinkByUserId_of_none (.inr h)]; rfl
  | some l =>
    rw [getLinkByUserId_of_some hname h]
    simp only [core_releaseRef]
    exact core_closeLink_congr core_addRef true

theorem onClientTrans_core (pdu : Pdu) (uninit : UidCode)
    (hexecutor : packetExecutor pdu.commandId = some .onClientTrans) :
    (onClientTrans m pdu).core = ((action m pdu uninit).apply m).core := by
  unfold onClientTrans getUserId action
  rw [hexecutor]
  cases pdu.body with
  | addressed sUserId =>
    have hname := prefixCmStr_append_ne sUserId
    obtain ⟨m', hcore, hsend⟩ := sendPduToUser_eq (m := m) hname
    simp only [hsend]
    cases h : m.userLink (prefixCmStr ++ sUserId) with
    | none =>
      simp only [Option.isSome_none, closeUserAction, h, ite_self]
      exact hcore
    | some l =>
      simp only [Option.isSome_some]
      split
      · rw [closeUserLink_core hname, closeUserAction, userLink_eq_of_core hcore,
          ← closeUserAction]
        exact Action.apply_core_congr hcore _
      · exact hcore
  | _ => rfl

theorem onClientExange_core (pdu : Pdu) : (onClientExange m pdu).core = m.core := by
  unfold onClientExange getUserId
  cases pdu.body with
  | addressed sUserId =>
    obtain ⟨m', hcore, hsend⟩ := sendPduToUser_eq (m := m) (prefixCmStr_append_ne sUserId)
    simp only [hsend]
    exact hcore
  | _ => rfl

theorem onLoginCMNotify_core (pdu : Pdu) (uninit : UidCode)
    (hexecutor : packetExecutor pdu.commandId = some .onLoginCMNotify) :
    (onLoginCMNotify m pdu).core = ((action m pdu uninit).apply m).core := by
  unfold onLoginCMNotify action
  rw [hexecutor]
  cases pdu.body with
  | loginCMNotify sUserId => exact closeUserLink_core (prefixCmStr_append_ne sUserId)
  | _ => rfl

theorem onCloseLink_core (pdu : Pdu) (uninit : UidCode)
    (hexecutor : packetExecutor pdu.commandId = some .onCloseLink) :
    (onCloseLink m pdu).core = ((action m pdu uninit).apply m).core := by
  unfold onCloseLink action
  rw [hexecutor]
  cases h : m.sessionLink pdu.sessionId with
  | none => rw [getLinkBySessionId_of_none h]; rfl
  | some l =>
    rw [getLinkBySessionId_of_some h]
    dsimp only
    have huser : ((m.addRef l).links l).userId = (m.links l).userId := modify_field _ rfl
    rw [huser]
    by_cases hname : (m.links l).userId = ""
    · rw [getLinkByUserId_of_none (.inl hname)]
      simp only [core_releaseRef, hname]
      exact core_closeLink_congr core_addRef _
    · cases hu : m.userLink (m.links l).userId with
      | none =>
        have hu' : (m.addRef l).userLink (m.links l).userId = none := hu
        rw [getLinkByUserId_of_none (.inr hu')]
        simp only [core_releaseRef, reduceCtorEq, and_false]
        exact core_closeLink_congr core_addRef _
      | some l' =>
        have hu' : (m.addRef l).userLink (m.links l).userId = some l' := hu
        rw [getLinkByUserId_of_some hname hu']
        simp only [core_releaseRef, ne_eq, hname, not_false_eq_true, true_and]
        refine core_closeLink_congr ?_ _
        rw [core_addRef, core_addRef]

theorem updateUserLink_core (sid : UidCode) {user : String} (hname : user ≠ "") :
    (updateUserLink m sid user).core = ((bindAction m sid user).apply m).core := by
  unfold updateUserLink bindAction
  cases h : m.sessionLink sid with
  | none => rw [getLinkBySessionId_of_none h]; rfl
  | some l =>
    rw [getLinkBySessionId_of_some h]
    dsimp only
    rw [core_releaseRef]
    cases hu : m.userLink user with
    | none =>
      have hu' : (m.addRef l).userLink user = none := hu
      rw [getLinkByUserId_of_none (.inr hu')]
      exact core_userArrived_congr core_addRef user
    | some old =>
      have hu' : (m.addRef l).userLink user = some old := hu
      rw [getLinkByUserId_of_some hname hu']
      by_cases heq : old = l
      · simp only [heq, ne_eq, not_true_eq_false, if_false, Option.filter_some, decide_false,
          Bool.false_eq_true]
        refine core_userArrived_congr ?_ user
        rw [core_addRef, core_addRef]
      · simp only [heq, ne_eq, not_false_eq_true, if_true, Option.filter_some, decide_true]
        refine core_userArrived_congr ?_ user
        rw [core_releaseRef]
        refine core_closeLink_congr ?_ true
        rw [core_addRef, core_addRef]

theorem onLoginResult_core (pdu : Pdu) (uninit : UidCode)
    (hexecutor : packetExecutor pdu.commandId = some .onLoginResult) :
    (onLoginResult m pdu uninit).core = ((action m pdu uninit).apply m).core := by
  unfold onLoginResult action
  rw [hexecutor]
  cases pdu.body with
  | loginResult res =>
    simp only [loginResultAction]
    split
    · rw [sendAck_core]
      exact updateUserLink_core _ (prefixCmStr_append_ne res.sUserId)
    · obtain ⟨m', hcore, hack⟩ : ∃ m', m'.core = m.core ∧ m' = if res.type = .other then m
          else sendAck m (m.getSessionByHost res.sHost uninit) := by
        refine ⟨_, ?_, rfl⟩
        split
        · rfl
        · exact sendAck_core _
      rw [← hack, closeSessionAction, ← sessionLink_eq_of_core hcore]
      cases h : m'.sessionLink (m.getSessionByHost res.sHost uninit) with
      | none =>
        rw [getLinkBySessionId_of_none h]
        exact hcore
      | some l =>
        rw [getLinkBySessionId_of_some h]
        simp only [core_releaseRef]
        refine core_closeLink_congr ?_ true
        rw [core_addRef, hcore]
  | _ => rfl

theorem procPdu_core (pdu : Pdu) (uninit : UidCode) :
    (procPdu m pdu uninit).1.core = ((action m pdu uninit).apply m).core := by
  unfold procPdu
  cases hexecutor : packetExecutor pdu.commandId with
  | none => simp only [action, hexecutor, Action.apply]
  | some executor =>
    cases executor with
    | onCloseLink => exact onCloseLink_core pdu uninit hexecutor
    | onLoginCMNotify => exact onLoginCMNotify_core pdu uninit hexecutor
    | onLoginResult => exact onLoginResult_core pdu uninit hexecutor
    | onClientTrans => exact onClientTrans_core pdu uninit hexecutor
    | onClientExange =>
      simp only [action, hexecutor, Action.apply]
      exact onClientExange_core pdu
    | onLoginTrans =>
      simp only [action, hexecutor, Action.apply]
      exact onLoginTrans_core pdu
    | onMsgTrans =>
      simp only [action, hexecutor, Action.apply]
      exact transTo_core .msg pdu
    | onChannelTrans =>
      simp only [action, hexecutor, Action.apply]
      exact transTo_core .channel pdu
    | onDesktopTrans =>
      simp only [action, hexecutor, Action.apply]
      exact transTo_core .desktop pdu
    | onCmLoginNotifyAck => simp only [action, hexecutor, Action.apply]

end Core

end CTransimission

end ImServer
