import ImServer.Cm.LinkAction
import ImServer.Lib.Run

/-!
# The connection manager as a system of links, queues and a login server

Clients connect, send packets and disappear; every packet of a client or a server
waits in a queue until a worker processes it, in any order; a login that was passed
on is answered by the login server any time later, once, several times or never.
A handler runs from its look-ups to its end without another one in between.

`held` counts the callbacks and timers that have looked a link up and not released
it yet. The other components are history and are not read by the code: `requests` are
the logins that were passed on, with the link on which each was received, `generated`
are the session ids given out so far, `hostLogin` is the link of the last login that
was recorded for a host, and `bound` are the links to which an answer of the login
server has bound a user that they still have.
-/

namespace ImServer

namespace Cm

open CTransimission CClientLinkMgr

/-- Where a packet comes from: the link on which its bytes arrived, the link whose
`UserLeft` posted it, the login server's answer to a login that was received on a
link, or anything else a server sent. -/
inductive Source where
  | client (l : LinkId)
  | userLeft (l : LinkId)
  | loginReply (origin : LinkId)
  | server
  deriving DecidableEq, Repr

structure Queued where
  source : Source
  pdu : Pdu
  deriving DecidableEq, Repr

/-- A login that was passed on to the login server, with the link that it came from and the host
under which the answer finds it. -/
structure Request where
  origin : LinkId
  sHost : String
  deriving DecidableEq, Repr

structure State where
  mgr : CClientLinkMgr := {}
  queue : List Queued := []
  held : LinkId → Nat := fun _ => 0
  requests : List Request := []
  generated : List UidCode := []
  hostLogin : String → Option LinkId := fun _ => none
  bound : LinkId → Bool := fun _ => false

/-- What `HandlePdu` gets from outside: the peer's address, the session id that
`GenerateUId` makes, and the bytes of the session ids that are read uninitialised. -/
structure Outside where
  remote : String × UInt16
  generated : UidCode
  unsetSession : UidCode
  unsetPeer : UidCode
  deriving DecidableEq, Repr

inductive Event where
  | connect (l : LinkId) (ip : String) (port : UInt16)
  | lookUp (l : LinkId)
  | release (l : LinkId)
  | handlePdu (l : LinkId) (pdu : Pdu) (out : Outside)
  | onClose (l : LinkId)
  | onClientTimeout (l : LinkId)
  | serverPdu (pdu : Pdu)
  | loginReply (request : Request) (res : LoginResult)
  | procPdu (i : Nat) (uninit : UidCode)

/-- `OnLoginPretreat` is called for these commands and accepts the login. -/
def AcceptsLogin (m : CClientLinkMgr) (l : LinkId) (pdu : Pdu) : Prop :=
  (m.links l).bClosing = false ∧ (pdu.commandId = cmLogin ∨ pdu.commandId = pcLogin) ∧
    (m.links l).bRegist = false ∧ (m.links l).bLogining = false

instance (m : CClientLinkMgr) (l : LinkId) (pdu : Pdu) : Decidable (AcceptsLogin m l pdu) :=
  inferInstanceAs (Decidable (_ ∧ _ ∧ _ ∧ _))

/-- `HandlePdu` on a client's link, with the packet it dispatches. The link of the
packet's session is looked up and not used; a registration is refused. -/
def handlePdu (m : CClientLinkMgr) (l : LinkId) (pdu : Pdu) (out : Outside) :
    CClientLinkMgr × Option Pdu :=
  let k := m.links l
  if k.bClosing then (m, none)
  else
    let m := m.visitSession (if k.bRegist then pdu.sessionId else out.unsetSession)
    if pdu.commandId = systemPing ∨ pdu.commandId = systemHeartbeat then (m, none)
    else if pdu.commandId = cmLogin ∨ pdu.commandId = pcLogin then
      match m.onLoginPretreat l out.remote out.unsetPeer out.generated with
      | none => (m, none)
      | some m => (m, some { pdu with sessionId := out.generated })
    else (m, some pdu)

/-- `DispatchPacket`: a packet without an executor is dropped. -/
def dispatchPacket (queue : List Queued) (source : Source) : Option Pdu → List Queued
  | none => queue
  | some pdu =>
    if (packetExecutor pdu.commandId).isSome then queue ++ [⟨source, pdu⟩] else queue

/-- The time-out notification that `UserLeft` posts. -/
def timeoutPdu (sid : UidCode) : Pdu :=
  { commandId := systemTimeoutNotification, sessionId := sid, body := .invalid }

/-- The login host after an accepted login: recorded where `addSessionByHost` is. -/
def hostLoginAfter (s : State) (m : CClientLinkMgr) (l : LinkId) : String → Option LinkId :=
  if (m.links l).peerIp = "" then s.hostLogin
  else Function.update s.hostLogin (m.links l).peerHost (some l)

/-- The login of `source` that was handed to the login server, if any. -/
def requestOf (source : Source) (out : Option (Service × Pdu)) : List Request :=
  match source, out with
  | .client l, some (.login, pdu) =>
    if pdu.commandId = cmLoginTrans then [⟨l, pdu.body.sHost⟩] else []
  | _, _ => []

/-- The links to which an answer of the login server binds a user. -/
def boundBy (source : Source) (a : Action) (l : LinkId) : Bool :=
  match source, a with
  | .loginReply _, .bind l' _ _ => l = l'
  | _, _ => false

/-- The new registry; a link that has lost its user is bound no longer. -/
def State.withMgr (s : State) (m : CClientLinkMgr) : State :=
  { s with mgr := m, bound := fun l => s.bound l && (m.links l).userId ≠ "" }

def step (s : State) : Event → Option State
  | .connect l ip port =>
    if (s.mgr.links l).life = .unborn then
      some (s.withMgr (s.mgr.onConnect l .mobileLogin ip port))
    else none
  | .lookUp l =>
    if (s.mgr.links l).life = .live then
      some { s.withMgr (s.mgr.addRef l) with held := Function.update s.held l (s.held l + 1) }
    else none
  | .release l =>
    if 0 < s.held l then
      some { s.withMgr (s.mgr.releaseRef l) with held := Function.update s.held l (s.held l - 1) }
    else none
  | .handlePdu l pdu out =>
    if 0 < s.held l then
      let (m, dispatched) := handlePdu s.mgr l pdu out
      some { s.withMgr m with
        queue := dispatchPacket s.queue (.client l) dispatched
        generated := if AcceptsLogin s.mgr l pdu then out.generated :: s.generated else s.generated
        hostLogin := if AcceptsLogin s.mgr l pdu then hostLoginAfter s m l else s.hostLogin }
    else none
  | .onClose l =>
    if 0 < s.held l then
      let (m, sid) := s.mgr.onClose l
      some { s.withMgr m with
        queue := dispatchPacket s.queue (.userLeft l) (sid.map timeoutPdu) }
    else none
  | .onClientTimeout l =>
    if 0 < s.held l then
      let (m, sid) := s.mgr.close l
      some { s.withMgr m with
        queue := dispatchPacket s.queue (.userLeft l) (sid.map timeoutPdu) }
    else none
  | .serverPdu pdu =>
    -- Login results come from the login server and answer a request.
    if pdu.commandId = svrLoginResult then none
    else some { s with queue := dispatchPacket s.queue .server (some pdu) }
  | .loginReply request res =>
    if request ∈ s.requests then
      some { s with
        queue := dispatchPacket s.queue (.loginReply request.origin) (some
          { commandId := svrLoginResult, sessionId := zeroUid,
            body := .loginResult { res with sHost := request.sHost } }) }
    else none
  | .procPdu i uninit =>
    match s.queue[i]? with
    | none => none
    | some q =>
      let (m, out) := procPdu s.mgr q.pdu uninit
      some { s.withMgr m with
        queue := s.queue.eraseIdx i
        requests := requestOf q.source out ++ s.requests
        bound := fun l => (s.bound l || boundBy q.source (action s.mgr q.pdu uninit) l) &&
          (m.links l).userId ≠ "" }

/-- A client connects from a host, and its login is passed on. -/
def loginEvents (l : LinkId) (ip : String) (port : UInt16) (sid : UidCode) : List Event :=
  [.connect l ip port, .lookUp l,
    .handlePdu l { commandId := cmLogin, sessionId := zeroUid, body := .loginTrans "" }
      { remote := (ip, port), generated := sid, unsetSession := zeroUid, unsetPeer := zeroUid },
    .procPdu 0 zeroUid]

/-- The login server's positive answer to a login is processed: it is taken by its receiver, and
then it is the packet in front of the queue. -/
def answerEvents (l : LinkId) (sHost sUserId : String) : List Event :=
  [.loginReply ⟨l, sHost⟩ { sUserId, sHost, type := .loginAck, nErr := nonErr }, .procPdu 0 zeroUid]

/-- The registry after an event, reference counts apart. -/
def mgrAfter (s : State) : Event → CClientLinkMgr
  | .connect l ip port => s.mgr.onConnect l .mobileLogin ip port
  | .handlePdu l pdu out =>
    if AcceptsLogin s.mgr l pdu then
      (s.mgr.onLoginPretreat l out.remote out.unsetPeer out.generated).getD s.mgr
    else s.mgr
  | .onClose l => (s.mgr.onClose l).1
  | .onClientTimeout l => (s.mgr.close l).1
  | .procPdu i uninit =>
    match s.queue[i]? with
    | none => s.mgr
    | some q => (action s.mgr q.pdu uninit).apply s.mgr
  | _ => s.mgr

variable {s s' : State} {e : Event}

theorem handlePdu_core (m : CClientLinkMgr) (l : LinkId) (pdu : Pdu) (out : Outside) :
    (handlePdu m l pdu out).1.core =
      (if AcceptsLogin m l pdu then
        (m.onLoginPretreat l out.remote out.unsetPeer out.generated).getD m else m).core := by
  obtain ⟨m', hm', hcore⟩ : ∃ m', m' = m.visitSession
      (if (m.links l).bRegist then pdu.sessionId else out.unsetSession) ∧ m'.core = m.core :=
    ⟨_, rfl, CClientLinkMgr.core_visitSession⟩
  simp only [handlePdu, ← hm']
  by_cases hclosing : (m.links l).bClosing = true
  · rw [if_pos hclosing, if_neg]
    rintro ⟨hopen, -⟩
    rw [hopen] at hclosing
    cases hclosing
  · rw [if_neg hclosing]
    split
    · next hping =>
      rw [if_neg]
      · exact hcore
      · rintro ⟨-, hlogin, -⟩
        rcases hping with hping | hping <;> rw [hping] at hlogin <;> revert hlogin <;> decide
    · split
      · next hlogin =>
        have hfst : (match m'.onLoginPretreat l out.remote out.unsetPeer out.generated with
            | none => (m', none)
            | some m => (m, some { pdu with sessionId := out.generated })).1 =
            (m'.onLoginPretreat l out.remote out.unsetPeer out.generated).getD m' := by
          split
          · next h => rw [h, Option.getD_none]
          · next h => rw [h, Option.getD_some]
        rw [hfst, core_onLoginPretreat_congr hcore]
        split
        · rfl
        · next hreject =>
          have hbusy : ((m.links l).bRegist || (m.links l).bLogining) = true := by
            by_contra hfree
            obtain ⟨hregist, hlogining⟩ := Bool.or_eq_false_iff.mp (eq_false_of_ne_true hfree)
            exact hreject ⟨eq_false_of_ne_true hclosing, hlogin, hregist, hlogining⟩
          rw [onLoginPretreat, if_pos hbusy]
          rfl
      · next hlogin =>
        rw [if_neg fun haccept => hlogin haccept.2.1]
        exact hcore

/-- Every event does to the registry what `mgrAfter` says, reference counts apart. -/
theorem step_core (h : step s e = some s') : s'.mgr.core = (mgrAfter s e).core := by
  cases e with
  | connect l ip port =>
    obtain ⟨-, h⟩ := Option.ite_none_right_eq_some.mp h
    cases h
    rfl
  | lookUp l =>
    obtain ⟨-, h⟩ := Option.ite_none_right_eq_some.mp h
    cases h
    exact core_addRef
  | release l =>
    obtain ⟨-, h⟩ := Option.ite_none_right_eq_some.mp h
    cases h
    exact core_releaseRef
  | handlePdu l pdu out =>
    obtain ⟨-, h⟩ := Option.ite_none_right_eq_some.mp h
    cases h
    exact handlePdu_core _ _ _ _
  | onClose l =>
    obtain ⟨-, h⟩ := Option.ite_none_right_eq_some.mp h
    cases h
    rfl
  | onClientTimeout l =>
    obtain ⟨-, h⟩ := Option.ite_none_right_eq_some.mp h
    cases h
    rfl
  | serverPdu pdu =>
    obtain ⟨-, h⟩ := Option.ite_none_left_eq_some.mp h
    cases h
    rfl
  | loginReply request res =>
    obtain ⟨-, h⟩ := Option.ite_none_right_eq_some.mp h
    cases h
    rfl
  | procPdu i uninit =>
    simp only [step] at h
    simp only [mgrAfter]
    split at h
    · cases h
    · next q hq =>
      cases h
      exact procPdu_core _ _

end Cm

end ImServer
