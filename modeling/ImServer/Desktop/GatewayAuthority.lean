import ImServer.Desktop.DesktopMsgTran
import ImServer.Lib.Run

/-!
# On whose behalf the desktop gateway acts

Links come and go, their packets wait in a queue until a worker takes them, and other servers
change the records of redis. The web service knows to which user a token and a register id belong,
and says whether there is one.

A login can go wrong in two ways. The code of the acknowledgement is taken from memory that nobody
has set if the service does not answer, and a valid token of one user binds the link to any other
one. The other packets act for the user whom their body names. Where the ids agree, everything is
done on behalf of the user of the link.
-/

namespace ImServer

namespace DesktopMsgTran

open CClientLinkMgr

/-- A packet and the link on which it arrived. -/
structure Received where
  origin : LinkId
  pdu : Pdu

/-- A packet that was handled: the link on which it had arrived, the user whom that link had when
it was handled, and what the handler did. -/
structure Handled where
  origin : LinkId
  userId : String
  acks : List (UidCode × PcMsg)
  acts : List Act
  login : Option LoginOutcome

structure Gateway where
  mgr : CClientLinkMgr := {}
  cache : CLoginCache := {}
  queue : List Received := []
  handled : List Handled := []

/-- The handlers of the packets of servers look links up and change records. -/
inductive Event where
  | connect (l : LinkId) (ip : String) (port : UInt16)
  | lookUp (l : LinkId)
  | release (l : LinkId)
  | handlePdu (l : LinkId) (pdu : Pdu) (out : Cm.Outside)
  | onClose (l : LinkId)
  | onClientTimeout (l : LinkId)
  | records (cache : CLoginCache)
  | procPdu (i : Nat) (env : Env)

/-- The commands that are registered for `OnMessageFromPC`. -/
def pcCommands : List UInt16 :=
  [pcLogin, pcLogout, pcPcsynmessagetogw, pcGwsynmessagetopcack, pcHeartbeart]

/-- `HandlePdu` does not look into the body. -/
def handlePdu (m : CClientLinkMgr) (l : LinkId) (pdu : Pdu) (out : Cm.Outside) :
    CClientLinkMgr × Option Pdu :=
  let (m, dispatched) := Cm.handlePdu m l
    { commandId := pdu.commandId, sessionId := pdu.sessionId, body := .invalid } out
  (m, dispatched.map fun p => { pdu with sessionId := p.sessionId })

def dispatchPacket (queue : List Received) (l : LinkId) : Option Pdu → List Received
  | none => queue
  | some pdu => if pdu.commandId ∈ pcCommands then queue ++ [⟨l, pdu⟩] else queue

/-- The answer says that there is a user exactly if the token is valid. A failed request says
neither. -/
def HttpAnswer.Says (valid : Bool) : HttpAnswer → Prop
  | .failed | .garbage => True
  | .json root => root.field "code" = some "200" ↔ valid = true

instance (valid : Bool) : (answer : HttpAnswer) → Decidable (answer.Says valid)
  | .failed | .garbage => isTrue trivial
  | .json _ => inferInstanceAs (Decidable (_ ↔ _))

section Service

-- the user to whom a token and a register id belong
variable (owner : String → String → Option String)

/-- The service answers the check of a login by what it knows. -/
def Faithful (pdu : Pdu) (env : Env) : Prop :=
  ∀ value ∈ pdu.body.value, ∀ token ∈ value.field "token", ∀ regid ∈ value.field "registerid",
    env.checkAuth.Says (owner token regid).isSome

instance (pdu : Pdu) (env : Env) : Decidable (Faithful owner pdu env) :=
  inferInstanceAs (Decidable (∀ _ ∈ _, ∀ _ ∈ _, ∀ _ ∈ _, _))

variable (s : Gateway)

/-- What is remembered of a packet and what its handler made of it. -/
def Received.handled (r : Received) (out : Outcome) : Handled :=
  { origin := r.origin, userId := (s.mgr.links r.origin).userId, acks := out.acks, acts := out.acts,
    login := out.login }

def Gateway.step (s : Gateway) : Event → Option Gateway
  | .connect l ip port =>
    if (s.mgr.links l).life = .unborn then
      some { s with mgr := s.mgr.onConnect l .mobileLogin ip port }
    else none
  | .lookUp l => some { s with mgr := s.mgr.addRef l }
  | .release l => some { s with mgr := s.mgr.releaseRef l }
  | .handlePdu l pdu out =>
    if (s.mgr.links l).life = .unborn then none
    else
      let (m, dispatched) := handlePdu s.mgr l pdu out
      some { s with mgr := m, queue := dispatchPacket s.queue l dispatched }
  | .onClose l => some { s with mgr := (s.mgr.onClose l).1 }
  | .onClientTimeout l => some { s with mgr := (s.mgr.close l).1 }
  | .records cache => some { s with cache }
  | .procPdu i env =>
    match s.queue[i]? with
    | none => none
    | some r =>
      if Faithful owner r.pdu env then
        (onMessageFromPC s.mgr s.cache r.pdu env).map fun out =>
          { mgr := out.mgr, cache := out.cache, queue := s.queue.eraseIdx i
            handled := r.handled s out :: s.handled }
      else none

/-- An acknowledgement says that all is well if and only if the check succeeded, a link is given to
a user only then and only if the token is his, and what is done is done for the user of the link. -/
structure Handled.Lawful (h : Handled) : Prop where
  code : ∀ sid msgid regid userid errcode, (sid, PcMsg.loginAck msgid regid userid errcode) ∈ h.acks →
    (errcode = nonErr ↔ ∃ o ∈ h.login, o.checked = true)
  bound : ∀ o ∈ h.login, o.bound ≠ none →
    o.checked = true ∧ owner o.auth.token o.auth.regid = some o.auth.sUserId
  acts : ∀ act ∈ h.acts, act.userId = h.userId

/-- All that was handled was lawful, and each link that has a user got him by a login. -/
structure Gateway.Authority : Prop where
  lawful : ∀ h ∈ s.handled, h.Lawful owner
  users : ∀ l, (s.mgr.links l).userId ≠ "" →
    ∃ h ∈ s.handled, ∃ o ∈ h.login, o.bound = some l ∧ o.auth.sUserId = (s.mgr.links l).userId

/-- A login is answered by the service, unless the memory of the code happens to be harmless, and a
token that the service knows belongs to the user whom the body names, unless the link is gone. -/
def CleanLogin (pdu : Pdu) (memory : UInt32) (value : Json.Value) : HttpAnswer → Prop
  | .failed | .garbage => memory ≠ nonErr
  | .json _ =>
    ∀ token ∈ value.field "token", ∀ regid ∈ value.field "registerid",
      ∀ userId ∈ value.field "userid", ∀ user ∈ owner token regid,
        user = userId ∨ s.mgr.sessionLink pdu.sessionId = none

end Service

section Found

variable (m : CClientLinkMgr) (c : CLoginCache) (env : Env)

/-- There is a link of a user or a record of his PC. -/
def PcFound (userId : String) : Prop :=
  (m.getLinkByUserId userId).2 ≠ none ∨
    env.recordDeleted = true ∧ c.hashes (prefixPcStr ++ userId) ≠ []

def CanPush : Prop :=
  (env.userInfo.pushType = apns ∨ env.userInfo.pushType = apnsDev) ∧ env.userInfo.voipToken ≠ "" ∧
    env.ipush = true

/-- The app of a user can be reached: over its connection manager if it is logged in, and else by a
push. -/
def AppFound (fromid : String) : Prop :=
  ∃ login ∈ c.getLoginInfo env.loginInfoRead (prefixCmStr ++ fromid),
    if login.isLogin then
      (m.getLinkByHost login.sCmIp (UInt16.ofInt (CText.atoi login.sCmPort))).2 ≠ none
    else CanPush env

instance : Decidable (CanPush env) := inferInstanceAs (Decidable (_ ∧ _))

end Found

/-- The packet names the user of its link, or somebody of whom nothing is found. -/
def Received.Clean (owner : String → String → Option String) (s : Gateway) (env : Env)
    (r : Received) : Prop :=
  ∀ value ∈ r.pdu.body.value,
    if r.pdu.commandId = pcLogin then CleanLogin owner s r.pdu env.errCode value env.checkAuth
    else if r.pdu.commandId = pcLogout then
      ∀ userId ∈ value.field "userid",
        userId = (s.mgr.links r.origin).userId ∨ ¬ PcFound s.mgr s.cache env userId
    else r.pdu.commandId ∈ pcCommands →
      ∀ fromid ∈ value.field "fromid",
        fromid = (s.mgr.links r.origin).userId ∨ ¬ AppFound s.mgr s.cache env fromid

def Gateway.Clean (owner : String → String → Option String) (s : Gateway) : Event → Prop
  | .procPdu i env => ∀ r ∈ s.queue[i]?, r.Clean owner s env
  | _ => True

variable {m : CClientLinkMgr} {c : CLoginCache} {pdu : Pdu} {env : Env} {out : Outcome}

/-- The code is good if the check succeeds, and otherwise it is a bad one, or the one that was in
memory if there is no answer in JSON. -/
def HttpAnswer.Sets (memory : UInt32) (checked : Bool) (errCode : UInt32) : HttpAnswer → Prop
  | .failed | .garbage => checked = false ∧ errCode = memory
  | .json root =>
    (checked = true ↔ root.field "code" = some "200") ∧ (errCode = nonErr ↔ checked = true)

theorem checkAuth_eq_some {auth auth' : PCLoginAuth} {answer : HttpAnswer} {checked : Bool}
    (h : checkAuth auth answer = some (checked, auth')) :
    auth'.token = auth.token ∧ auth'.regid = auth.regid ∧ auth'.sUserId = auth.sUserId ∧
      answer.Sets auth.errCode checked auth'.errCode := by
  cases answer with
  | failed | garbage =>
    cases h
    exact ⟨rfl, rfl, rfl, rfl, rfl⟩
  | json root =>
    obtain ⟨sReturnCode, hcode, h⟩ := Option.bind_eq_some_iff.mp h
    split at h
    · next hgood =>
      cases h
      exact ⟨rfl, rfl, rfl, by simp [hcode, hgood], by simp⟩
    · next hbad =>
      obtain ⟨msg, -, h⟩ := Option.bind_eq_some_iff.mp h
      split at h
      all_goals
        cases h
        refine ⟨rfl, rfl, rfl, by simp [hcode, hbad], ?_⟩
        simp [nonErr, errCmAuthKickedout, errLoginAuth]

@[simp] theorem userId_addRef (l l' : LinkId) : ((m.addRef l).links l').userId = (m.links l').userId :=
  modify_field _ rfl

@[simp] theorem userId_releaseRef (l l' : LinkId) :
    ((m.releaseRef l).links l').userId = (m.links l').userId :=
  modify_field _ rfl

/-- A link that is closed loses its user, and the others keep theirs. -/
theorem userId_closeLink {l l' : LinkId} {b : Bool} (h : ((m.closeLink l b).links l').userId ≠ "") :
    ((m.closeLink l b).links l').userId = (m.links l').userId := by
  rw [closeLink_links] at h ⊢
  by_cases hl : l' = l
  · rw [hl, Function.update_self] at h
    exact absurd rfl h
  · rw [Function.update_of_ne hl]

theorem userId_close {l l' : LinkId} (h : ((m.close l).1.links l').userId ≠ "") :
    ((m.close l).1.links l').userId = (m.links l').userId := by
  have hclosing : ((m.setClosing l).links l').userId = (m.links l').userId := modify_field _ rfl
  rcases m.close_cases (l := l) with ⟨-, heq⟩ | ⟨-, -, heq⟩ | ⟨-, -, -, heq⟩
  · rw [heq]
  · rw [heq] at h ⊢
    rw [userId_closeLink h, hclosing]
  · rw [heq, userLeft, modify_field CClientLink.userId rfl, hclosing]

/-- A login gives the user to the link of its session, and takes him from the one that has him. -/
theorem userId_updateUserLink {sid : UidCode} {user : String} {l : LinkId}
    (h : ((updateUserLink m sid user).links l).userId ≠ "") :
    ((updateUserLink m sid user).links l).userId = (m.links l).userId ∨
      m.sessionLink sid = some l ∧ ((updateUserLink m sid user).links l).userId = user := by
  unfold updateUserLink CTransimission.updateUserLink at h ⊢
  cases hlink : m.sessionLink sid with
  | none =>
    rw [getLinkBySessionId_of_none hlink]
    exact .inl rfl
  | some link =>
    rw [getLinkBySessionId_of_some hlink] at h ⊢
    simp only [userId_releaseRef, userArrived_links] at h ⊢
    by_cases hl : l = link
    · refine .inr ⟨by rw [hl], ?_⟩
      rw [hl, Function.update_self]
      rfl
    · refine .inl ?_
      rw [Function.update_of_ne hl] at h ⊢
      by_cases huser : user = "" ∨ (m.addRef link).userLink user = none
      · rw [getLinkByUserId_of_none huser]
        exact userId_addRef ..
      · obtain ⟨hname, hold⟩ := not_or.mp huser
        obtain ⟨old, hold⟩ := Option.ne_none_iff_exists'.mp hold
        rw [getLinkByUserId_of_some hname hold] at h ⊢
        by_cases hsame : old = link
        · simp [hsame]
        · simp only [ne_eq, hsame, not_false_eq_true, if_true, userId_releaseRef] at h ⊢
          rw [userId_closeLink h]
          simp

@[simp] theorem userId_sendAck (sid : UidCode) (l : LinkId) :
    ((sendAck m sid).links l).userId = (m.links l).userId :=
  Cm.userId_of_core_eq core_visitSession l

@[simp] theorem sessionLink_sendAck (sid : UidCode) : (sendAck m sid).sessionLink = m.sessionLink :=
  CTransimission.sessionLink_eq_of_core core_visitSession

theorem snd_getLinkByHost (sIp : String) (nPort : UInt16) :
    (m.getLinkByHost sIp nPort).2 = if sIp = "" then none else m.hostLink (getHostString sIp nPort) := by
  unfold getLinkByHost
  split
  · rfl
  · split
    · next h => exact h.symm
    · next h => exact h.symm

theorem appFound_sendAck (sid : UidCode) (fromid : String) :
    AppFound (sendAck m sid) c env fromid ↔ AppFound m c env fromid := by
  have hcore : (m.visitSession sid).core = m.core := core_visitSession
  have hhost : (sendAck m sid).hostLink = m.hostLink := (congrArg CClientLinkMgr.hostLink hcore :)
  simp only [AppFound, snd_getLinkByHost, hhost]

theorem sendPush_eq (toId msgId : String) :
    sendPush env toId msgId = if CanPush env then [.sendPush toId msgId] else [] := by
  unfold sendPush
  by_cases hapns : env.userInfo.pushType = apns ∨ env.userInfo.pushType = apnsDev
  · simp only [hapns, if_true, true_and, CanPush]
  · simp [hapns, CanPush]

theorem sendReq_spec (m : CClientLinkMgr) (userId ip : String) (port : UInt16) (msg : AppMsg) :
    (∀ l, ((sendReq m userId ip port msg).1.links l).userId = (m.links l).userId) ∧
      (∀ act ∈ (sendReq m userId ip port msg).2, act.userId = userId) ∧
      ((sendReq m userId ip port msg).2 = [] ↔ (m.getLinkByHost ip port).2 = none) := by
  unfold sendReq getLinkByHost
  by_cases hip : ip = ""
  · simp [hip]
  · cases hlink : m.hostLink (getHostString ip port) with
    | none => simp [hip]
    | some link => simp [hip, Act.userId]

/-- What is passed on is passed on for `fromid`, and only if his app is found. -/
theorem passOn_spec (m : CClientLinkMgr) (c : CLoginCache) (env : Env) (fromid msgid : String)
    (msg : AppMsg) :
    (∀ l, ((passOn m c env fromid msgid msg).1.links l).userId = (m.links l).userId) ∧
      (∀ act ∈ (passOn m c env fromid msgid msg).2, act.userId = fromid) ∧
      ((passOn m c env fromid msgid msg).2 = [] ↔ ¬ AppFound m c env fromid) := by
  unfold passOn AppFound
  cases hlogin : c.getLoginInfo env.loginInfoRead (prefixCmStr ++ fromid) with
  | none => simp
  | some login =>
    dsimp only
    split
    · next honline =>
      obtain ⟨husers, hacts, hnil⟩ := sendReq_spec m fromid login.sCmIp
        (UInt16.ofInt (CText.atoi login.sCmPort)) msg
      exact ⟨husers, hacts, by simp [hnil, honline]⟩
    · next hoffline =>
      refine ⟨fun _ => rfl, fun act hact => ?_, by simp [sendPush_eq, hoffline]⟩
      rw [sendPush_eq] at hact
      split at hact
      · rw [List.mem_singleton.mp hact]
        rfl
      · cases hact

/-- A handler that takes no login: no link gets a user, and what is done is done for `id`, and only
if something of his is found. -/
structure ActsFor (m : CClientLinkMgr) (id : String) (found : Prop) (out : Outcome) : Prop where
  login : out.login = none
  acks : ∀ sid msgid regid userid errcode, (sid, PcMsg.loginAck msgid regid userid errcode) ∉ out.acks
  users : ∀ l, (out.mgr.links l).userId ≠ "" → (out.mgr.links l).userId = (m.links l).userId
  acts : ∀ act ∈ out.acts, act.userId = id
  found : out.acts ≠ [] ↔ found

theorem actsFor_onLogout {value : Json.Value} (hvalue : pdu.body.value = some value)
    (h : onLogout m c pdu env = some out) :
    ∃ userId ∈ value.field "userid", ActsFor m userId (PcFound m c env userId) out := by
  simp only [onLogout, hvalue, Option.bind_eq_bind, Option.bind_eq_some_iff] at h
  obtain ⟨msgid, -, token, -, regid, -, userId, huser, h⟩ := h
  refine ⟨userId, huser, ?_⟩
  have hdeleted : (c.delUserRec env.recordDeleted (prefixPcStr ++ userId)).2 = true ↔
      env.recordDeleted = true ∧ c.hashes (prefixPcStr ++ userId) ≠ [] := by
    unfold CLoginCache.delUserRec
    split <;> simp [*]
  have hrecord : ∀ act ∈ if (c.delUserRec env.recordDeleted (prefixPcStr ++ userId)).2 then
      [Act.delUserRec userId] else [], act.userId = userId := by
    intro act hact
    split at hact
    · rw [List.mem_singleton.mp hact]
      rfl
    · cases hact
  unfold PcFound
  rw [← hdeleted]
  by_cases hname : userId = "" ∨ m.userLink userId = none
  · rw [getLinkByUserId_of_none hname] at h ⊢
    cases h
    exact ⟨rfl, by simp, fun _ _ => rfl, hrecord, by simp⟩
  · obtain ⟨hname, hlink⟩ := not_or.mp hname
    obtain ⟨l, hlink⟩ := Option.ne_none_iff_exists'.mp hlink
    rw [getLinkByUserId_of_some hname hlink] at h ⊢
    cases h
    refine ⟨rfl, by simp, fun l' hl' => ?_, fun act hact => ?_, by simp⟩
    · simp only [userId_releaseRef] at hl' ⊢
      rw [userId_closeLink hl', userId_addRef]
    · obtain hact | hact := List.mem_append.mp hact
      · rw [List.mem_singleton.mp hact]
        rfl
      · exact hrecord act hact

theorem actsFor_passesOn {value : Json.Value} (hvalue : pdu.body.value = some value)
    (hcommand : pdu.commandId ∈ pcCommands) (hlogin : pdu.commandId ≠ pcLogin)
    (hlogout : pdu.commandId ≠ pcLogout) (h : onMessageFromPC m c pdu env = some out) :
    ∃ fromid ∈ value.field "fromid", ActsFor m fromid (AppFound m c env fromid) out := by
  simp only [pcCommands, List.mem_cons, List.not_mem_nil, or_false] at hcommand
  obtain hcommand | hcommand | hcommand | hcommand | hcommand := hcommand
  · exact absurd hcommand hlogin
  · exact absurd hcommand hlogout
  · have h : onPCSynMessageToGw m c pdu env = some out := by
      simpa [onMessageFromPC, hcommand, pcLogin, pcLogout, pcPcsynmessagetogw] using h
    simp only [onPCSynMessageToGw, hvalue, Option.bind_eq_bind, Option.bind_eq_some_iff] at h
    obtain ⟨fromid, hfromid, toid, -, synctype, -, msgid, -, synmessage, -, extend, -, h⟩ := h
    cases h
    obtain ⟨husers, hacts, hfound⟩ := passOn_spec m c env fromid msgid
      (.gwSynMessageToApp fromid toid (UInt32.ofInt (synctype.intOr0 32)) msgid synmessage extend)
    exact ⟨fromid, hfromid, rfl, by simp, fun l _ => husers l, hacts, not_iff_comm.mp hfound.symm⟩
  · have h : onGwSynMessageToPCAck m c pdu env = some out := by
      simpa [onMessageFromPC, hcommand, pcLogin, pcLogout, pcPcsynmessagetogw, pcGwsynmessagetopcack]
        using h
    simp only [onGwSynMessageToPCAck, hvalue, Option.bind_eq_bind, Option.bind_eq_some_iff] at h
    obtain ⟨fromid, hfromid, msgid, -, h⟩ := h
    cases h
    obtain ⟨husers, hacts, hfound⟩ := passOn_spec m c env fromid msgid
      (.appSynMessageToGwAck fromid msgid)
    exact ⟨fromid, hfromid, rfl, by simp, fun l _ => husers l, hacts, not_iff_comm.mp hfound.symm⟩
  · have h : onHeartBeat m c pdu env = some out := by
      simpa [onMessageFromPC, hcommand, pcLogin, pcLogout, pcPcsynmessagetogw, pcGwsynmessagetopcack,
        pcHeartbeart] using h
    simp only [onHeartBeat, hvalue, Option.bind_eq_bind, Option.bind_eq_some_iff] at h
    obtain ⟨msgid, -, fromid, hfromid, msgtime, -, h⟩ := h
    cases h
    obtain ⟨husers, hacts, hfound⟩ := passOn_spec (sendAck m pdu.sessionId) c env fromid msgid
      (.checkAppActive msgid fromid (msgtime.intOr0 64))
    rw [appFound_sendAck] at hfound
    refine ⟨fromid, hfromid, rfl, by simp, fun l _ => ?_, hacts, not_iff_comm.mp hfound.symm⟩
    exact (husers l).trans (userId_sendAck ..)

/-- What the handler of a login does. -/
structure LogsIn (m : CClientLinkMgr) (pdu : Pdu) (env : Env) (value : Json.Value) (out : Outcome)
    (o : LoginOutcome) : Prop where
  token : value.field "token" = some o.auth.token
  regid : value.field "registerid" = some o.auth.regid
  userId : value.field "userid" = some o.auth.sUserId
  checked : env.checkAuth.Sets env.errCode o.checked o.auth.errCode
  login : out.login = some o
  bound : o.bound = if o.checked then m.sessionLink pdu.sessionId else none
  acts : out.acts = []
  acked : ∃ msgid, (pdu.sessionId, PcMsg.loginAck msgid o.auth.regid o.auth.sUserId o.auth.errCode) ∈
    out.acks
  code : ∀ sid msgid regid userid errcode, (sid, PcMsg.loginAck msgid regid userid errcode) ∈ out.acks →
    errcode = o.auth.errCode
  users : ∀ l, (out.mgr.links l).userId ≠ "" → (out.mgr.links l).userId = (m.links l).userId ∨
    o.bound = some l ∧ (out.mgr.links l).userId = o.auth.sUserId

theorem kitout_spec (m : CClientLinkMgr) (msgId registerId userId : String) :
    (∀ l, ((kitout m msgId registerId userId).1.links l).userId = (m.links l).userId) ∧
      (kitout m msgId registerId userId).1.sessionLink = m.sessionLink ∧
      ∀ sid msgid regid userid errcode, (sid, PcMsg.loginAck msgid regid userid errcode) ∉
        (kitout m msgId registerId userId).2 := by
  unfold kitout getLinkByUserId
  split_ifs
  · simp
  · cases m.userLink userId with
    | none => simp
    | some link =>
      refine ⟨fun l => by simp, ?_, by simp⟩
      rw [sessionLink_sendAck]
      rfl

theorem logsIn_onLogin {value : Json.Value} (hvalue : pdu.body.value = some value)
    (h : onLogin m c pdu env = some out) : ∃ o, LogsIn m pdu env value out o := by
  simp only [onLogin, hvalue, Option.bind_eq_bind, Option.bind_eq_some_iff, Prod.exists] at h
  obtain ⟨msgId, -, token, htoken, registerId, hregid, userId, huser, checked, auth, hcheck, h⟩ := h
  obtain ⟨rfl, rfl, rfl, hchecked⟩ := checkAuth_eq_some hcheck
  split at h
  · next hsuccess =>
    cases hsuccess
    cases hrecord : c.getUserRecord env.recordRead (prefixPcStr ++ auth.sUserId) with
    | none =>
      rw [hrecord] at h
      cases h
      refine ⟨_, htoken, hregid, huser, hchecked, rfl, rfl, rfl, ⟨msgId, by simp⟩, by simp, ?_⟩
      intro l hl
      simp only [userId_sendAck] at hl ⊢
      exact userId_updateUserLink hl
    | some old =>
      rw [hrecord] at h
      obtain ⟨husers, hsession, hacks⟩ := kitout_spec m msgId old.sDeviceToken auth.sUserId
      cases h
      refine ⟨_, htoken, hregid, huser, hchecked, rfl, rfl, rfl, ⟨msgId, by simp⟩, ?_, ?_⟩
      · intro sid msgid regid userid errcode hack
        obtain hack | hack := List.mem_append.mp hack
        · exact (hacks sid msgid regid userid errcode hack).elim
        · cases List.mem_singleton.mp hack
          rfl
      · intro l hl
        simp only [userId_sendAck] at hl ⊢
        rw [← husers l, ← hsession]
        exact userId_updateUserLink hl
  · next hfail =>
    cases eq_false_of_ne_true hfail
    cases h
    exact ⟨_, htoken, hregid, huser, hchecked, rfl, rfl, rfl, ⟨msgId, by simp⟩, by simp,
      fun l _ => .inl (userId_sendAck ..)⟩

variable {owner : String → String → Option String} {s s' : Gateway} {r : Received}

/-- A packet without a body in JSON, or with another command, does nothing. -/
theorem onMessageFromPC_of_idle (h : onMessageFromPC m c pdu env = some out)
    (hidle : pdu.body.value = none ∨ pdu.commandId ∉ pcCommands) : out = { mgr := m, cache := c } := by
  obtain hvalue | hcommand := hidle
  · simp only [onMessageFromPC, onLogin, onLogout, onPCSynMessageToGw, onGwSynMessageToPCAck,
      onHeartBeat, hvalue, ite_self, Option.some.injEq] at h
    exact h.symm
  · simp only [pcCommands, List.mem_cons, List.not_mem_nil, or_false, not_or] at hcommand
    obtain ⟨hlogin, hlogout, hsyn, hack, hheart⟩ := hcommand
    simp only [onMessageFromPC, if_neg hlogin, if_neg hlogout, if_neg hsyn, if_neg hack, if_neg hheart,
      Option.some.injEq] at h
    exact h.symm

/-- What is done for `id` is lawful if he is the user of the link, or if there is nothing to do. -/
theorem ActsFor.lawful_iff {id : String} {found : Prop} (h : ActsFor s.mgr id found out) :
    (r.handled s out).Lawful owner ↔ id = (s.mgr.links r.origin).userId ∨ ¬ found := by
  rw [← h.found]
  constructor
  · intro hlawful
    by_cases hacts : out.acts = []
    · exact .inr (not_not.mpr hacts)
    · obtain ⟨act, hact⟩ := List.exists_mem_of_ne_nil _ hacts
      exact .inl ((h.acts act hact).symm.trans (hlawful.acts act hact))
  · intro hid
    refine ⟨fun sid msgid regid userid errcode hack => (h.acks _ _ _ _ _ hack).elim, fun o ho => ?_, ?_⟩
    · change o ∈ out.login at ho
      rw [h.login] at ho
      cases ho
    · intro act hact
      change act ∈ out.acts at hact
      obtain hid | hnone := hid
      · exact (h.acts act hact).trans hid
      · rw [not_not.mp hnone] at hact
        cases hact

theorem LogsIn.lawful_iff {value : Json.Value} {o : LoginOutcome}
    (h : LogsIn s.mgr r.pdu env value out o) (hvalue : r.pdu.body.value = some value)
    (hfaithful : Faithful owner r.pdu env) :
    (r.handled s out).Lawful owner ↔ CleanLogin owner s r.pdu env.errCode value env.checkAuth := by
  have hlawful : (r.handled s out).Lawful owner ↔
      (o.auth.errCode = nonErr ↔ o.checked = true) ∧
        (o.bound ≠ none → o.checked = true ∧
          owner o.auth.token o.auth.regid = some o.auth.sUserId) := by
    constructor
    · intro hlawful
      obtain ⟨msgid, hack⟩ := h.acked
      have hcode := hlawful.code _ _ _ _ _ hack
      refine ⟨hcode.trans ?_, hlawful.bound o h.login⟩
      simp [Received.handled, h.login]
    · rintro ⟨hcode, hbound⟩
      refine ⟨fun sid msgid regid userid errcode hack => ?_, fun o' ho' => ?_, fun act hact => ?_⟩
      · rw [h.code _ _ _ _ _ hack, hcode]
        simp [Received.handled, h.login]
      · cases h.login.symm.trans ho'
        exact hbound
      · change act ∈ out.acts at hact
        rw [h.acts] at hact
        cases hact
  rw [hlawful]
  have hchecked := h.checked
  have hmeant := hfaithful value hvalue _ h.token _ h.regid
  have hbound := h.bound
  cases hanswer : env.checkAuth with
  | failed | garbage =>
    rw [hanswer] at hchecked
    obtain ⟨hfail, hcode⟩ := hchecked
    simp [hbound, hfail, hcode, CleanLogin]
  | json root =>
    rw [hanswer] at hchecked hmeant
    obtain ⟨hgood, hcode⟩ := hchecked
    have hknown : o.checked = true ↔ (owner o.auth.token o.auth.regid).isSome = true :=
      hgood.trans hmeant
    refine ⟨fun ⟨_, hlawful⟩ => ?_, fun hclean => ⟨hcode, fun hlink => ?_⟩⟩
    · intro token htoken regid hregid userId huser user howner
      cases h.token.symm.trans htoken
      cases h.regid.symm.trans hregid
      cases h.userId.symm.trans huser
      have hchecked : o.checked = true := hknown.mpr (by rw [Option.mem_def.mp howner]; rfl)
      rw [hchecked, if_pos rfl] at hbound
      refine or_iff_not_imp_right.mpr fun hlink => ?_
      exact Option.some.inj (howner.symm.trans (hlawful (hbound ▸ hlink)).2)
    · have hchecked : o.checked = true := by
        by_contra hfail
        rw [if_neg hfail] at hbound
        exact hlink hbound
      rw [hchecked, if_pos rfl] at hbound
      obtain ⟨user, howner⟩ := Option.isSome_iff_exists.mp (hknown.mp hchecked)
      obtain rfl | hgone := hclean _ h.token _ h.regid _ h.userId user howner
      · exact ⟨hchecked, howner⟩
      · exact absurd (hbound.trans hgone) hlink

theorem handled_lawful_iff (hfaithful : Faithful owner r.pdu env)
    (h : onMessageFromPC s.mgr s.cache r.pdu env = some out) :
    (r.handled s out).Lawful owner ↔ r.Clean owner s env := by
  by_cases hidle : r.pdu.body.value = none ∨ r.pdu.commandId ∉ pcCommands
  · cases onMessageFromPC_of_idle h hidle
    refine iff_of_true ⟨by simp [Received.handled], by simp [Received.handled],
      by simp [Received.handled]⟩ fun value hvalue => ?_
    have hcommand := hidle.resolve_left (by simp [Option.mem_def.mp hvalue])
    rw [if_neg fun hlogin => hcommand (by simp [hlogin, pcCommands]),
      if_neg fun hlogout => hcommand (by simp [hlogout, pcCommands])]
    exact fun hin => absurd hin hcommand
  · obtain ⟨hvalue, hcommand⟩ := not_or.mp hidle
    obtain ⟨value, hvalue⟩ := Option.ne_none_iff_exists'.mp hvalue
    by_cases hlogin : r.pdu.commandId = pcLogin
    · rw [onMessageFromPC, if_pos hlogin] at h
      obtain ⟨o, ho⟩ := logsIn_onLogin hvalue h
      rw [ho.lawful_iff hvalue hfaithful]
      simp [Received.Clean, hvalue, hlogin]
    · by_cases hlogout : r.pdu.commandId = pcLogout
      · rw [onMessageFromPC, if_neg hlogin, if_pos hlogout] at h
        obtain ⟨userId, huser, hacts⟩ := actsFor_onLogout hvalue h
        rw [hacts.lawful_iff]
        simp [Received.Clean, hvalue, hlogout, Option.mem_def.mp huser,
          (by decide : pcLogout ≠ pcLogin)]
      · obtain ⟨fromid, hfromid, hacts⟩ :=
          actsFor_passesOn hvalue (not_not.mp hcommand) hlogin hlogout h
        rw [hacts.lawful_iff]
        simp [Received.Clean, hvalue, hlogin, hlogout, not_not.mp hcommand, Option.mem_def.mp hfromid]

theorem onMessageFromPC_users (h : onMessageFromPC m c pdu env = some out) {l : LinkId}
    (hl : (out.mgr.links l).userId ≠ "") : (out.mgr.links l).userId = (m.links l).userId ∨
      ∃ o ∈ out.login, o.bound = some l ∧ o.auth.sUserId = (out.mgr.links l).userId := by
  by_cases hidle : pdu.body.value = none ∨ pdu.commandId ∉ pcCommands
  · cases onMessageFromPC_of_idle h hidle
    exact .inl rfl
  · obtain ⟨hvalue, hcommand⟩ := not_or.mp hidle
    obtain ⟨value, hvalue⟩ := Option.ne_none_iff_exists'.mp hvalue
    by_cases hlogin : pdu.commandId = pcLogin
    · rw [onMessageFromPC, if_pos hlogin] at h
      obtain ⟨o, ho⟩ := logsIn_onLogin hvalue h
      refine (ho.users l hl).imp_right fun hbound => ?_
      exact ⟨o, ho.login, hbound.1, hbound.2.symm⟩
    · by_cases hlogout : pdu.commandId = pcLogout
      · rw [onMessageFromPC, if_neg hlogin, if_pos hlogout] at h
        obtain ⟨userId, -, hacts⟩ := actsFor_onLogout hvalue h
        exact .inl (hacts.users l hl)
      · obtain ⟨fromid, -, hacts⟩ := actsFor_passesOn hvalue (not_not.mp hcommand) hlogin hlogout h
        exact .inl (hacts.users l hl)

theorem step_users {e : Event} (hevent : ∀ i env, e ≠ .procPdu i env) (h : s.step owner e = some s') :
    s'.handled = s.handled ∧
      ∀ l, (s'.mgr.links l).userId ≠ "" → (s'.mgr.links l).userId = (s.mgr.links l).userId := by
  cases e with
  | procPdu i env => exact absurd rfl (hevent i env)
  | connect l ip port =>
    obtain ⟨-, h⟩ := Option.ite_none_right_eq_some.mp h
    cases h
    refine ⟨rfl, fun l' hl' => ?_⟩
    dsimp only [onConnect] at hl' ⊢
    by_cases hsame : l' = l
    · rw [hsame, modify_links_self] at hl'
      exact absurd rfl hl'
    · rw [modify_links_of_ne _ hsame]
  | lookUp l =>
    cases h
    exact ⟨rfl, fun l' _ => userId_addRef ..⟩
  | release l =>
    cases h
    exact ⟨rfl, fun l' _ => userId_releaseRef ..⟩
  | handlePdu l pdu out =>
    obtain ⟨-, h⟩ := Option.ite_none_left_eq_some.mp h
    cases h
    refine ⟨rfl, fun l' _ => ?_⟩
    refine (Cm.userId_of_core_eq (Cm.handlePdu_core ..) l').trans ?_
    split
    · exact onLoginPretreat_field CClientLink.userId fun _ _ _ _ => rfl
    · rfl
  | onClose l =>
    cases h
    refine ⟨rfl, fun l' hl' => ?_⟩
    dsimp only [onClose] at hl' ⊢
    split at hl'
    · next hcloses =>
      rw [if_pos hcloses]
      exact userId_close hl'
    · next hcloses => rw [if_neg hcloses]
  | onClientTimeout l =>
    cases h
    exact ⟨rfl, fun l' hl' => userId_close hl'⟩
  | records cache =>
    cases h
    exact ⟨rfl, fun _ _ => rfl⟩

theorem Gateway.Authority.step {e : Event} (h : s.Authority owner) (hclean : s.Clean owner e)
    (hstep : s.step owner e = some s') : s'.Authority owner := by
  by_cases hevent : ∃ i env, e = .procPdu i env
  · obtain ⟨i, env, rfl⟩ := hevent
    simp only [Gateway.step] at hstep
    split at hstep
    · cases hstep
    · next r hr =>
      obtain ⟨hfaithful, hstep⟩ := Option.ite_none_right_eq_some.mp hstep
      obtain ⟨out, hout, rfl⟩ := Option.map_eq_some_iff.mp hstep
      refine ⟨List.forall_mem_cons.mpr ⟨?_, h.lawful⟩, fun l hl => ?_⟩
      · exact (handled_lawful_iff hfaithful hout).mpr (hclean r hr)
      · obtain hold | ⟨o, ho, hbound⟩ := onMessageFromPC_users hout hl
        · dsimp only at hl ⊢
          rw [hold] at hl ⊢
          obtain ⟨h', hh', hlogin⟩ := h.users l hl
          exact ⟨h', List.mem_cons_of_mem _ hh', hlogin⟩
        · exact ⟨_, List.mem_cons_self, o, ho, hbound⟩
  · push Not at hevent
    obtain ⟨hhandled, husers⟩ := step_users hevent hstep
    refine ⟨hhandled ▸ h.lawful, fun l hl => ?_⟩
    rw [hhandled, husers l hl]
    exact h.users l (husers l hl ▸ hl)

/-- A packet that is not clean is enough for the authority to be lost. -/
theorem not_authority_of_not_clean {e : Event} (hclean : ¬ s.Clean owner e)
    (hstep : s.step owner e = some s') : ¬ s'.Authority owner := by
  cases e with
  | procPdu i env =>
    obtain ⟨r, hr, hclean⟩ : ∃ r ∈ s.queue[i]?, ¬ r.Clean owner s env := by
      simpa [Gateway.Clean] using hclean
    simp only [Gateway.step, Option.mem_def.mp hr] at hstep
    obtain ⟨hfaithful, hstep⟩ := Option.ite_none_right_eq_some.mp hstep
    obtain ⟨out, hout, rfl⟩ := Option.map_eq_some_iff.mp hstep
    intro hauthority
    exact hclean ((handled_lawful_iff hfaithful hout).mp (hauthority.lawful _ List.mem_cons_self))
  | _ => exact absurd trivial hclean

/-- The gateway keeps to its authority in every run in which what it handles is clean. -/
theorem gateway_authority (h : Run.Reaches (Gateway.step owner) (Gateway.Clean owner) {} s) :
    s.Authority owner := by
  refine h.invariant (Gateway.Authority owner) ⟨by simp, fun l hl => absurd rfl hl⟩ ?_
  intro s e s' hs hclean hstep
  exact hs.step hclean hstep

section Examples

instance (m : CClientLinkMgr) (c : CLoginCache) (env : Env) (userId : String) :
    Decidable (PcFound m c env userId) :=
  inferInstanceAs (Decidable (_ ∨ _))

instance (m : CClientLinkMgr) (c : CLoginCache) (env : Env) (fromid : String) :
    Decidable (AppFound m c env fromid) :=
  inferInstanceAs (Decidable (∃ _ ∈ _, _))

instance (owner : String → String → Option String) (s : Gateway) (pdu : Pdu) (memory : UInt32)
    (value : Json.Value) : (answer : HttpAnswer) →
      Decidable (CleanLogin owner s pdu memory value answer)
  | .failed | .garbage => inferInstanceAs (Decidable (_ ≠ _))
  | .json _ => inferInstanceAs (Decidable (∀ _ ∈ _, _))

instance (owner : String → String → Option String) (s : Gateway) (env : Env) (r : Received) :
    Decidable (r.Clean owner s env) :=
  inferInstanceAs (Decidable (∀ _ ∈ _, _))

instance (owner : String → String → Option String) (s : Gateway) :
    (e : Event) → Decidable (s.Clean owner e)
  | .procPdu .. => inferInstanceAs (Decidable (∀ _ ∈ _, _))
  | .connect .. | .lookUp .. | .release .. | .handlePdu .. | .onClose .. | .onClientTimeout ..
  | .records .. => isTrue trivial

/-- The token `t7` is that of user 7. -/
def ownerOf (token _regid : String) : Option String := if token = "t7" then some "7" else none

/-- A packet of link `l` whose body names a user. -/
def arrives (l : LinkId) (commandId : UInt16) (userId token : String) : Event :=
  .handlePdu l
    { commandId, sessionId := zeroUid,
      body := { strInput := "", value := some (.object
        [("userid", .string userId), ("fromid", .string userId), ("token", .string token)]) } }
    { remote := ("10.0.0.1", 80), generated := Vector.replicate 12 1, unsetSession := zeroUid,
      unsetPeer := zeroUid }

/-- The service says that the token is valid. -/
def accepted : Env := { checkAuth := .json (.object [("code", .string "200")]) }

/-- User 7 logs in and out. -/
def loginAndLogout : List Event :=
  [.connect 0 "10.0.0.1" 80, arrives 0 pcLogin "7" "t7", .procPdu 0 accepted,
    arrives 0 pcLogout "7" "t7", .procPdu 0 {}]

theorem gateway_authority_loginAndLogout :
    ((Run.runGood (Gateway.step ownerOf) (Gateway.Clean ownerOf) {} loginAndLogout).map fun s =>
        s.handled.map Handled.acts) = some [[.closeLink "7" 0, .delUserRec "7"], []] ∧
      ∀ s ∈ Run.runGood (Gateway.step ownerOf) (Gateway.Clean ownerOf) {} loginAndLogout,
        s.Authority ownerOf :=
  ⟨by decide +kernel, fun _ hrun => gateway_authority (Run.reaches_of_runGood hrun)⟩

/-- The service does not answer, and the memory of the code holds the good one; the owner of a token
logs in as somebody else; a PC that has not logged in logs user 7 out. -/
def unlawful : List (List Event × Event) :=
  [([.connect 0 "10.0.0.1" 80, arrives 0 pcLogin "7" ""], .procPdu 0 { errCode := nonErr }),
    ([.connect 0 "10.0.0.1" 80, arrives 0 pcLogin "8" "t7"], .procPdu 0 accepted),
    ([.connect 0 "10.0.0.1" 80, arrives 0 pcLogin "7" "t7", .procPdu 0 accepted,
      .connect 1 "10.0.0.2" 80, arrives 1 pcLogout "7" ""], .procPdu 0 {})]

theorem not_gateway_authority :
    unlawful ≠ [] ∧ ∀ run ∈ unlawful, ∃ s s',
      Run.Reaches (Gateway.step ownerOf) (fun _ _ => True) {} s ∧
      s.step ownerOf run.2 = some s' ∧ ¬ s'.Authority ownerOf := by
  have hruns : ∀ run ∈ unlawful,
      ∃ s ∈ Run.runGood (Gateway.step ownerOf) (fun _ _ => True) {} run.1,
        (s.step ownerOf run.2).isSome ∧ ¬ s.Clean ownerOf run.2 := by decide +kernel
  refine ⟨List.cons_ne_nil _ _, fun run hrun => ?_⟩
  obtain ⟨s, hs, hstep, hclean⟩ := hruns run hrun
  obtain ⟨s', hs'⟩ := Option.isSome_iff_exists.mp hstep
  exact ⟨s, s', Run.reaches_of_runGood hs, hs', not_authority_of_not_clean hclean hs'⟩

end Examples

end DesktopMsgTran

end ImServer
