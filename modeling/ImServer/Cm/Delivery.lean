import ImServer.Cm.Authorisation
import ImServer.Cm.LoginBinding
import ImServer.Cm.UserLink

/-!
# What reaches which client

Packets that the servers send to a user are written to the link that the user map has, and the
answers to a login to the link that the session of the login's host leads to (base/packet.cpp,
cm/transmission.cpp). Beside the connection manager it is remembered for which links the login
server has let which users in.
-/

namespace ImServer

namespace Cm

open CTransimission CClientLinkMgr

/-- What is written to a link; the messages `CMLoginAck` and `CMKickoutNotification` are made by
the connection manager. -/
inductive Sent where
  | packet (pdu : Pdu)
  | loginAck (sUserId : String) (nErr : Nat)
  | kickout (sUserId : String)
  deriving DecidableEq, Repr

section Sending

variable (m : CClientLinkMgr)

/-- `SendPdu` to a user puts the session id of the link into the packet. -/
def sendPdu (user : String) (pdu : Pdu) : CClientLinkMgr × Option (LinkId × Sent) :=
  match m.getLinkByUserId user with
  | (m, some l) =>
    (m.releaseRef l, some (l, .packet { pdu with sessionId := (m.links l).sessionId }))
  | (m, none) => (m, none)

/-- `SendPdu` to the client that a session id leads to. -/
def sendPduBySession (sid : UidCode) (sent : Sent) : CClientLinkMgr × Option (LinkId × Sent) :=
  match m.getLinkBySessionId sid with
  | (m, some l) => (m.releaseRef l, some (l, sent))
  | (m, none) => (m, none)

def onClientTransSent (pdu : Pdu) : CClientLinkMgr × Option (LinkId × Sent) :=
  match getUserId pdu with
  | none => (m, none)
  | some user =>
    match sendPdu m user pdu with
    | (m, none) => (m, none)
    | (m, some sent) =>
      (if pdu.commandId = cmLogoutAck then closeUserLink m user else m, some sent)

def onClientExangeSent (pdu : Pdu) : CClientLinkMgr × Option (LinkId × Sent) :=
  match getUserId pdu with
  | none => (m, none)
  | some user => sendPdu m user pdu

/-- Closing the link of a login that is refused or kicked out. -/
def closeSessionLink (sid : UidCode) : CClientLinkMgr :=
  match m.getLinkBySessionId sid with
  | (m, some l) => (m.closeLink l true).releaseRef l
  | (m, none) => m

def onLoginResultSent (pdu : Pdu) (uninit : UidCode) : CClientLinkMgr × Option (LinkId × Sent) :=
  match pdu.body with
  | .loginResult res =>
    let sessionId := m.getSessionByHost res.sHost uninit
    match res.type with
    | .loginAck =>
      if res.nErr = nonErr then
        sendPduBySession (updateUserLink m sessionId (prefixCmStr ++ res.sUserId)) sessionId
          (.loginAck res.sUserId res.nErr)
      else
        let (m, sent) := sendPduBySession m sessionId (.loginAck res.sUserId res.nErr)
        (closeSessionLink m sessionId, sent)
    | .loginKickout =>
      let (m, sent) := sendPduBySession m sessionId (.kickout res.sUserId)
      (closeSessionLink m sessionId, sent)
    | .other => (closeSessionLink m sessionId, none)
  | _ => (m, none)

/-- `ProcPdu`: the links after a packet was processed, and what was written to a client. -/
def procPduSent (pdu : Pdu) (uninit : UidCode) : CClientLinkMgr × Option (LinkId × Sent) :=
  match packetExecutor pdu.commandId with
  | some .onLoginResult => onLoginResultSent m pdu uninit
  | some .onClientTrans => onClientTransSent m pdu
  | some .onClientExange => onClientExangeSent m pdu
  | _ => ((procPdu m pdu uninit).1, none)

variable {m}

theorem sendPdu_eq (user : String) (pdu : Pdu) :
    sendPduToUser m user = ((sendPdu m user pdu).1, (sendPdu m user pdu).2.isSome) := by
  unfold sendPduToUser sendPdu
  by_cases hname : user = ""
  · rw [getLinkByUserId_of_none (.inl hname)]
    rfl
  · cases h : m.userLink user with
    | none =>
      rw [getLinkByUserId_of_none (.inr h)]
      rfl
    | some l =>
      rw [getLinkByUserId_of_some hname h]
      rfl

theorem sendPduBySession_fst (sid : UidCode) (sent : Sent) :
    (sendPduBySession m sid sent).1 = sendAck m sid := by
  unfold sendPduBySession sendAck visitSession
  cases h : m.sessionLink sid with
  | none => rw [getLinkBySessionId_of_none h]
  | some l => rw [getLinkBySessionId_of_some h]

theorem onClientTransSent_fst (pdu : Pdu) : (onClientTransSent m pdu).1 = onClientTrans m pdu := by
  unfold onClientTransSent onClientTrans
  cases getUserId pdu with
  | none => rfl
  | some user =>
    dsimp only
    rw [sendPdu_eq user pdu]
    obtain ⟨m', sent⟩ := sendPdu m user pdu
    cases sent <;> rfl

theorem onLoginResultSent_fst (pdu : Pdu) (uninit : UidCode) :
    (onLoginResultSent m pdu uninit).1 = onLoginResult m pdu uninit := by
  unfold onLoginResultSent onLoginResult
  cases pdu.body with
  | loginResult res =>
    obtain ⟨user, host, type, nErr⟩ := res
    cases type with
    | loginAck =>
      dsimp only
      split
      · next hok =>
        simp only [hok, and_self, if_true]
        exact sendPduBySession_fst _ _
      · next hok =>
        simp only [hok, and_false, if_false, reduceCtorEq]
        rw [← sendPduBySession_fst _ (.loginAck user nErr)]
        rfl
    | loginKickout =>
      simp only [reduceCtorEq, false_and, if_false]
      rw [← sendPduBySession_fst _ (.kickout user)]
      rfl
    | other => rfl
  | _ => rfl

theorem procPduSent_fst (pdu : Pdu) (uninit : UidCode) :
    (procPduSent m pdu uninit).1 = (procPdu m pdu uninit).1 := by
  unfold procPduSent
  split
  · next hexecutor =>
    simp only [procPdu, hexecutor]
    exact onLoginResultSent_fst pdu uninit
  · next hexecutor =>
    simp only [procPdu, hexecutor]
    exact onClientTransSent_fst pdu
  · next hexecutor =>
    simp only [procPdu, hexecutor, onClientExangeSent, onClientExange]
    cases getUserId pdu with
    | none => rfl
    | some user =>
      dsimp only
      rw [sendPdu_eq user pdu]
  · rfl

/-- A packet for a user goes to the link that the user map has. -/
theorem sent_packet (pdu : Pdu) (uninit : UidCode) {sUserId : String}
    (hexecutor : packetExecutor pdu.commandId = some .onClientTrans ∨
      packetExecutor pdu.commandId = some .onClientExange)
    (hbody : pdu.body = .addressed sUserId) :
    (procPduSent m pdu uninit).2 = (m.userLink (prefixCmStr ++ sUserId)).map fun l =>
      (l, .packet { pdu with sessionId := (m.links l).sessionId }) := by
  have huser : getUserId pdu = some (prefixCmStr ++ sUserId) := by rw [getUserId, hbody]
  have hsend : (sendPdu m (prefixCmStr ++ sUserId) pdu).2 =
      (m.userLink (prefixCmStr ++ sUserId)).map fun l =>
        (l, .packet { pdu with sessionId := (m.links l).sessionId }) := by
    unfold sendPdu
    cases h : m.userLink (prefixCmStr ++ sUserId) with
    | none =>
      rw [getLinkByUserId_of_none (.inr h)]
      rfl
    | some l =>
      rw [getLinkByUserId_of_some (prefixCmStr_append_ne sUserId) h]
      have hsid : ((m.addRef l).links l).sessionId = (m.links l).sessionId := modify_field _ rfl
      simp only [hsid, Option.map_some]
  obtain hexecutor | hexecutor := hexecutor
  · rw [← hsend]
    simp only [procPduSent, hexecutor, onClientTransSent, huser]
    obtain ⟨m', sent⟩ := sendPdu m (prefixCmStr ++ sUserId) pdu
    cases sent <;> rfl
  · simp only [procPduSent, hexecutor, onClientExangeSent, huser]
    exact hsend

theorem sendPduBySession_eq_some {sid : UidCode} {sent sent' : Sent} {l : LinkId}
    (h : (sendPduBySession m sid sent).2 = some (l, sent')) :
    m.sessionLink sid = some l ∧ sent' = sent := by
  unfold sendPduBySession at h
  cases hl : m.sessionLink sid with
  | none =>
    rw [getLinkBySessionId_of_none hl] at h
    cases h
  | some l' =>
    rw [getLinkBySessionId_of_some hl] at h
    cases h
    exact ⟨rfl, rfl⟩

/-- What tells a client about a login result. -/
def answerOf (res : LoginResult) : Option Sent :=
  match res.type with
  | .loginAck => some (.loginAck res.sUserId res.nErr)
  | .loginKickout => some (.kickout res.sUserId)
  | .other => none

/-- A login result goes to the link that the session of its host leads to. -/
theorem sent_answer {pdu : Pdu} {uninit : UidCode} {l : LinkId} {sent : Sent}
    (h : (onLoginResultSent m pdu uninit).2 = some (l, sent)) :
    ∃ res, pdu.body = .loginResult res ∧ answerOf res = some sent ∧
      m.sessionLink (m.getSessionByHost res.sHost uninit) = some l := by
  unfold onLoginResultSent at h
  split at h
  · next res hbody =>
    refine ⟨res, hbody, ?_⟩
    dsimp only at h
    split at h
    · next htype =>
      split at h
      · obtain ⟨hl, rfl⟩ := sendPduBySession_eq_some h
        refine ⟨by rw [answerOf, htype], ?_⟩
        rw [sessionLink_eq_of_core (updateUserLink_core _ (prefixCmStr_append_ne _))] at hl
        exact (shrinks_apply _).sessionLink hl
      · obtain ⟨hl, rfl⟩ := sendPduBySession_eq_some h
        exact ⟨by rw [answerOf, htype], hl⟩
    · next htype =>
      obtain ⟨hl, rfl⟩ := sendPduBySession_eq_some h
      exact ⟨by rw [answerOf, htype], hl⟩
    · cases h
  · cases h

end Sending

/-- The connection manager, and the users that the login server has let in on each link: they have
logged in there. -/
structure Entry where
  server : State := {}
  letIn : List (LinkId × String) := []

/-- The user that a positive answer of the login server lets in. -/
def lets : Queued → List (LinkId × String)
  | ⟨.loginReply o, ⟨_, _, .loginResult res⟩⟩ =>
    if LoginResult.Succeeds res then [(o, res.sUserId)] else []
  | _ => []

def Entry.step (s : Entry) (e : Event) : Option Entry :=
  (Cm.step s.server e).map fun server =>
    { server
      letIn := match e with
        | .procPdu i _ => s.server.queue[i]?.toList.flatMap lets ++ s.letIn
        | _ => s.letIn }

/-- Login results come from the login server. -/
def FromLoginServer : Queued → Prop
  | ⟨.loginReply _, _⟩ => True
  | ⟨_, pdu⟩ => pdu.commandId ≠ svrLoginResult

instance : (q : Queued) → Decidable (FromLoginServer q)
  | ⟨.loginReply _, _⟩ => .isTrue trivial
  | ⟨.client _, _⟩ | ⟨.userLeft _, _⟩ | ⟨.server, _⟩ => inferInstanceAs (Decidable (_ ≠ _))

def ResultsGood (s : State) : Event → Prop
  | .procPdu i _ => ∀ q ∈ s.queue[i]?, FromLoginServer q
  | _ => True

instance (s : State) : (e : Event) → Decidable (ResultsGood s e)
  | .procPdu .. => inferInstanceAs (Decidable (∀ _ ∈ _, _))
  | .connect .. | .lookUp .. | .release .. | .handlePdu .. | .onClose .. | .onClientTimeout ..
  | .serverPdu .. | .loginReply .. => .isTrue trivial

def Entry.Good (s : Entry) (e : Event) : Prop :=
  LoginGood s.server e ∧ NoSecondUser s.server e ∧ ResultsGood s.server e

instance (s : Entry) (e : Event) : Decidable (s.Good e) := inferInstanceAs (Decidable (_ ∧ _ ∧ _))

/-- A link has only users that were let in on it. -/
structure EntryInv (s : Entry) : Prop where
  login : LoginInv s.server
  user : UserInv s.server.mgr
  letIn : ∀ l, (s.server.mgr.links l).userId ≠ "" →
    ∃ sUserId, (s.server.mgr.links l).userId = prefixCmStr ++ sUserId ∧ (l, sUserId) ∈ s.letIn

variable {m m' : CClientLinkMgr} {l : LinkId} {s s' : State} {e : Event}

/-- Links keep their users or lose them. -/
def KeepsUsers (m m' : CClientLinkMgr) : Prop :=
  ∀ l, (m'.links l).userId ≠ "" → (m'.links l).userId = (m.links l).userId

theorem keepsUsers_closeLink (l' : LinkId) (b : Bool) : KeepsUsers m (m.closeLink l' b) := by
  intro l h
  by_cases hl : l = l'
  · subst hl
    rw [closeLink_links, Function.update_self] at h
    exact absurd rfl h
  · rw [closeLink_links_of_ne hl]

theorem keepsUsers_close (l' : LinkId) : KeepsUsers m (m.close l').1 := by
  intro l h
  have hclosing : ((m.setClosing l').links l).userId = (m.links l).userId := modify_field _ rfl
  rw [← hclosing]
  rcases m.close_cases (l := l') with ⟨-, heq⟩ | ⟨-, -, heq⟩ | ⟨-, -, -, heq⟩
  · rw [heq, hclosing]
  · rw [heq] at h ⊢
    exact keepsUsers_closeLink l' true l h
  · rw [heq, userLeft, modify_field CClientLink.userId rfl]

theorem keepsUsers_onConnect (l' : LinkId) (ip : String) (port : UInt16) :
    KeepsUsers m (m.onConnect l' .mobileLogin ip port) := by
  intro l h
  by_cases hl : l = l'
  · subst hl
    rw [onConnect, modify_links_self] at h
    exact absurd rfl h
  · rw [onConnect, modify_links_of_ne _ hl]

/-- A user that a link has after a step is the one it had, or has just been bound to it. -/
theorem userId_apply {a : Action} (h : ((a.apply m).links l).userId ≠ "") :
    ((a.apply m).links l).userId = (m.links l).userId ∨
      ∃ old, a = .bind l ((a.apply m).links l).userId old := by
  cases a with
  | nothing => exact .inl rfl
  | close l' b => exact .inl (keepsUsers_closeLink l' b l h)
  | bind l' user old =>
    by_cases hl : l = l'
    · subst hl
      refine .inr ⟨old, ?_⟩
      cases old with
      | none =>
        rw [Action.apply, userArrived_links, Function.update_self]
        rfl
      | some old =>
        rw [Action.apply, userArrived_links, Function.update_self]
        rfl
    · refine .inl ?_
      cases old with
      | none => rw [Action.apply, userArrived_links, Function.update_of_ne hl]
      | some old =>
        rw [Action.apply, userArrived_links, Function.update_of_ne hl] at h ⊢
        exact keepsUsers_closeLink old true l h

theorem userId_mgrAfter (h : ((mgrAfter s e).links l).userId ≠ "") :
    ((mgrAfter s e).links l).userId = (s.mgr.links l).userId ∨
      ∃ i uninit q old, e = .procPdu i uninit ∧ s.queue[i]? = some q ∧
        action s.mgr q.pdu uninit = .bind l ((mgrAfter s e).links l).userId old := by
  cases e with
  | connect l' ip port => exact .inl (keepsUsers_onConnect l' ip port l h)
  | handlePdu l' pdu out =>
    refine .inl ?_
    simp only [mgrAfter]
    split
    · exact onLoginPretreat_field CClientLink.userId fun _ _ _ _ => rfl
    · rfl
  | onClose l' =>
    refine .inl ?_
    simp only [mgrAfter, onClose] at h ⊢
    split at h
    · next hlive => exact if_pos hlive ▸ keepsUsers_close l' l h
    · next hlive => rw [if_neg hlive]
  | onClientTimeout l' => exact .inl (keepsUsers_close l' l h)
  | procPdu i uninit =>
    simp only [mgrAfter] at h ⊢
    cases hq : s.queue[i]? with
    | none => exact .inl rfl
    | some q =>
      simp only [hq] at h ⊢
      refine (userId_apply h).imp_right ?_
      rintro ⟨old, haction⟩
      exact ⟨i, uninit, q, old, rfl, hq, haction⟩
  | _ => exact .inl rfl

/-- The answer to the last login from a host concerns the link of the login. -/
theorem origin_of_session (h : LoginInv s) {q : Queued} {o : LinkId} {res : LoginResult}
    {uninit : UidCode} (hsource : q.source = .loginReply o) (hbody : q.pdu.body = .loginResult res)
    (hlast : AnswersLast s q)
    (hl : s.mgr.sessionLink (s.mgr.getSessionByHost res.sHost uninit) = some l) : l = o := by
  obtain ⟨source, cmd, sid, body⟩ := q
  subst hsource hbody
  obtain ⟨hname, hknown⟩ := h.known hlast
  obtain ⟨sid, hsid⟩ := Option.ne_none_iff_exists'.mp hknown
  rw [getSessionByHost, if_neg hname, hsid, Option.getD_some] at hl
  exact Option.some.inj ((h.last hsid hl).symm.trans hlast)

theorem source_of_fromLoginServer {q : Queued} (h : FromLoginServer q)
    (hcmd : packetExecutor q.pdu.commandId = some .onLoginResult) :
    ∃ o, q.source = .loginReply o := by
  obtain ⟨source, pdu⟩ := q
  have hresult : pdu.commandId = svrLoginResult := by
    by_contra hne
    rw [packetExecutor, if_neg hne] at hcmd
    iterate 9
      obtain ⟨-, hother⟩ | ⟨-, hcmd⟩ := ite_eq_iff.mp hcmd
      · cases hother
    cases hcmd
  cases source with
  | loginReply o => exact ⟨o, rfl⟩
  | _ => exact absurd hresult h

theorem EntryInv.step {s s' : Entry} (h : EntryInv s) (hgood : s.Good e)
    (hstep : s.step e = some s') : EntryInv s' := by
  obtain ⟨server, hserver, rfl⟩ := Option.map_eq_some_iff.mp hstep
  obtain ⟨hlogin, hsecond, hresults⟩ := hgood
  refine ⟨h.login.step hlogin hserver, h.user.step h.login.session ⟨hlogin.1, hsecond⟩ hserver, ?_⟩
  intro l huser
  have hkept : ∀ entry ∈ s.letIn, entry ∈ (match e with
      | .procPdu i _ => s.server.queue[i]?.toList.flatMap lets ++ s.letIn
      | _ => s.letIn) := by
    intro entry hentry
    split
    · exact List.mem_append_right _ hentry
    · exact hentry
  have hafter := userId_of_core_eq (step_core hserver) l
  rw [hafter] at huser ⊢
  obtain hsame | ⟨i, uninit, q, old, rfl, hq, haction⟩ := userId_mgrAfter huser
  · rw [hsame] at huser ⊢
    obtain ⟨sUserId, hname, hmem⟩ := h.letIn l huser
    exact ⟨sUserId, hname, hkept _ hmem⟩
  · obtain ⟨hexecutor, res, hbody, htype, herr, hname, hl, -⟩ := action_eq_bind haction
    obtain ⟨o, hsource⟩ := source_of_fromLoginServer (hresults q hq) hexecutor
    obtain rfl := origin_of_session h.login hsource hbody (hlogin.2.2 q hq) hl
    refine ⟨res.sUserId, hname, List.mem_append_left _ ?_⟩
    obtain ⟨source, cmd, sid, body⟩ := q
    subst hsource hbody
    rw [hq]
    simp [lets, LoginResult.Succeeds, htype, herr]

/-- What the connection manager writes to a link when it processes a packet. -/
structure Meant (s : Entry) (q : Queued) (uninit : UidCode) : Prop where
  /-- A packet for a user is written to a link on which the user was let in. -/
  toUser : ∀ l pdu, (procPduSent s.server.mgr q.pdu uninit).2 = some (l, .packet pdu) →
    ∃ sUserId, q.pdu.body = .addressed sUserId ∧ (l, sUserId) ∈ s.letIn ∧
      (s.server.mgr.links l).life = .live ∧
      (s.server.mgr.links l).userId = prefixCmStr ++ sUserId ∧
      pdu = { q.pdu with sessionId := (s.server.mgr.links l).sessionId }
  /-- It is written if the user has a link. -/
  delivered : ∀ l sUserId, q.pdu.body = .addressed sUserId →
    (packetExecutor q.pdu.commandId = some .onClientTrans ∨
      packetExecutor q.pdu.commandId = some .onClientExange) →
    (s.server.mgr.links l).life = .live →
    (s.server.mgr.links l).userId = prefixCmStr ++ sUserId →
    (procPduSent s.server.mgr q.pdu uninit).2 =
      some (l, .packet { q.pdu with sessionId := (s.server.mgr.links l).sessionId })
  /-- The answer to a login is written to the link of the login. -/
  toOrigin : ∀ l sent, (procPduSent s.server.mgr q.pdu uninit).2 = some (l, sent) →
    packetExecutor q.pdu.commandId = some .onLoginResult →
    q.source = .loginReply l ∧ ∃ res, q.pdu.body = .loginResult res ∧ answerOf res = some sent

theorem executor_of_sent {pdu : Pdu} {uninit : UidCode} {sent : LinkId × Sent}
    (h : (procPduSent m pdu uninit).2 = some sent) :
    packetExecutor pdu.commandId = some .onLoginResult ∨
      ((packetExecutor pdu.commandId = some .onClientTrans ∨
        packetExecutor pdu.commandId = some .onClientExange) ∧
        ∃ sUserId, pdu.body = .addressed sUserId) := by
  have haddressed {user : String} (huser : getUserId pdu = some user) :
      ∃ sUserId, pdu.body = .addressed sUserId := by
    unfold getUserId at huser
    split at huser
    · next sUserId hbody => exact ⟨sUserId, hbody⟩
    · cases huser
  unfold procPduSent at h
  split at h
  · next hexecutor => exact .inl hexecutor
  · next hexecutor =>
    refine .inr ⟨.inl hexecutor, ?_⟩
    unfold onClientTransSent at h
    cases huser : getUserId pdu with
    | none =>
      rw [huser] at h
      cases h
    | some user => exact haddressed huser
  · next hexecutor =>
    refine .inr ⟨.inr hexecutor, ?_⟩
    unfold onClientExangeSent at h
    cases huser : getUserId pdu with
    | none =>
      rw [huser] at h
      cases h
    | some user => exact haddressed huser
  · cases h

/-- In every run in which login results come from the login server, each answers the last login
from its host and no link is given a second user, a packet for a user is written to a link exactly
if it is the user's open link, which the login server has let the user in on; and the answer to a
login is written to no other link than the one of the login. -/
theorem sent_as_meant {s : Entry} (h : Run.Reaches Entry.step Entry.Good {} s) {i : Nat}
    {uninit : UidCode} {q : Queued} (hq : s.server.queue[i]? = some q)
    (hgood : s.Good (.procPdu i uninit)) : Meant s q uninit := by
  have hinv : EntryInv s := by
    refine h.invariant EntryInv ⟨loginInv_empty, userInv_empty, fun _ huser => absurd rfl huser⟩ ?_
    intro s e s' hinv hgood hstep
    exact hinv.step hgood hstep
  have hone := hinv.user.oneLinkPerUser
  constructor
  · intro l pdu hsent
    obtain hexecutor | ⟨hexecutor, sUserId, hbody⟩ := executor_of_sent hsent
    · simp only [procPduSent, hexecutor] at hsent
      obtain ⟨res, -, hanswer, -⟩ := sent_answer hsent
      unfold answerOf at hanswer
      split at hanswer <;> cases hanswer
    · rw [sent_packet q.pdu uninit hexecutor hbody] at hsent
      obtain ⟨l', hlink, heq⟩ := Option.map_eq_some_iff.mp hsent
      cases heq
      obtain ⟨hlive, huser⟩ := hone.found _ _ hlink
      obtain ⟨sUserId', hname, hletIn⟩ := hinv.letIn l (huser ▸ prefixCmStr_append_ne sUserId)
      obtain rfl : sUserId = sUserId' :=
        (String.append_right_inj prefixCmStr).mp (huser.symm.trans hname)
      exact ⟨sUserId, hbody, hletIn, hlive, huser, rfl⟩
  · intro l sUserId hbody hexecutor hlive huser
    have hname : (s.server.mgr.links l).userId ≠ "" := huser ▸ prefixCmStr_append_ne sUserId
    have hlink := hone.carried l hlive hname
    rw [huser] at hlink
    rw [sent_packet q.pdu uninit hexecutor hbody, hlink, Option.map_some]
  · intro l sent hsent hexecutor
    simp only [procPduSent, hexecutor] at hsent
    obtain ⟨res, hbody, hanswer, hl⟩ := sent_answer hsent
    obtain ⟨o, hsource⟩ := source_of_fromLoginServer (hgood.2.2 q hq) hexecutor
    obtain rfl := origin_of_session hinv.login hsource hbody (hgood.1.2.2 q hq) hl
    exact ⟨hsource, res, hbody, hanswer⟩

/-- A chat for a user who has logged in. -/
def chatPdu : Pdu := { commandId := 0xb004, sessionId := zeroUid, body := .addressed "7" }

theorem sent_as_meant_chat :
    ∃ s q, Run.runGood Entry.step Entry.Good {}
        (loginEvents 0 "10.0.0.1" 80 (Vector.replicate 12 1) ++ answerEvents 0 "10.0.0.1:80" "7" ++
          [.serverPdu chatPdu]) = some s ∧
      s.server.queue[0]? = some q ∧ s.letIn = [(0, "7")] ∧
      (procPduSent s.server.mgr q.pdu zeroUid).2 =
        some (0, .packet { chatPdu with sessionId := Vector.replicate 12 1 }) ∧
      Meant s q zeroUid := by
  have hrun : ∃ s q, Run.runGood Entry.step Entry.Good {}
        (loginEvents 0 "10.0.0.1" 80 (Vector.replicate 12 1) ++ answerEvents 0 "10.0.0.1:80" "7" ++
          [.serverPdu chatPdu]) = some s ∧
      s.server.queue[0]? = some q ∧ s.letIn = [(0, "7")] ∧
      (procPduSent s.server.mgr q.pdu zeroUid).2 =
        some (0, .packet { chatPdu with sessionId := Vector.replicate 12 1 }) ∧
      s.Good (.procPdu 0 zeroUid) :=
    ⟨_, _, rfl, rfl, by decide, by decide, by decide⟩
  obtain ⟨s, q, hs, hq, hletIn, hsent, hgood⟩ := hrun
  exact ⟨s, q, hs, hq, hletIn, hsent, sent_as_meant (Run.reaches_of_runGood hs) hq hgood⟩

end Cm

end ImServer
