import ImServer.Msg.OfflineMsg

/-!
# Chats and calls between users who block each other

The handlers of calls (msg/sighandler.cpp) and of chats (msg/msghandle.cpp) ask another server
for the friendship of the two users, store a document for the receiver and send him the message
if he is online. The result of a handler here is what it does: the acknowledgement, the writes
to the store, the states of calls and the messages that go out to the receiver.

Of a document that is written the call id stands beside it, and the state of a call, which only
the client reads, is not kept.
-/

namespace ImServer

namespace Msg

def sigSponsorCallDeliver : UInt32 := 0xb094

def sigSponsorCallAnsDeliver : UInt32 := 0xb098

def sigExchangeNatInfoDeliver : UInt32 := 0xb0a2

def sigHangUpDeliver : UInt32 := 0xb0a8

def sigCallStateNotifyDeliver : UInt32 := 0xb0b4

structure SIGSponsorCall where
  fromId : String
  inviteId : String
  msgId : String
  callId : String := ""
  body : String := ""
  deriving DecidableEq, Repr

structure SIGSponsorCallAns where
  fromId : String
  toId : String
  msgId : String
  errcode : ErrCode := .nonErr
  body : String := ""
  deriving DecidableEq, Repr

structure SIGHangUp where
  fromId : String
  toId : String
  msgId : String
  callId : String := ""
  body : String := ""
  deriving DecidableEq, Repr

structure SIGP2PCallExchangeNatInfo where
  fromId : String
  toId : String
  msgId : String
  body : String := ""
  deriving DecidableEq, Repr

structure SIGP2PCallStateNotify where
  fromId : String
  toId : String
  msgId : String
  deriving DecidableEq, Repr

namespace OfflineMsg

def ofSponsorCall (now : Nat) (msg : SIGSponsorCall) : OfflineMsg where
  msgId := msg.msgId
  fromId := msg.fromId
  toId := msg.inviteId
  cmdId := sigSponsorCallDeliver
  msgData := .other msg.body
  createTime := now

def ofSponsorCallAns (now : Nat) (msg : SIGSponsorCallAns) : OfflineMsg where
  msgId := msg.msgId
  fromId := msg.fromId
  toId := msg.toId
  cmdId := sigSponsorCallAnsDeliver
  msgData := .other msg.body
  createTime := now

def ofHangUp (now : Nat) (msg : SIGHangUp) : OfflineMsg where
  msgId := msg.msgId
  fromId := msg.fromId
  toId := msg.toId
  cmdId := sigHangUpDeliver
  msgData := .other msg.body
  createTime := now

def ofExchangeNatInfo (now : Nat) (msg : SIGP2PCallExchangeNatInfo) : OfflineMsg where
  msgId := msg.msgId
  fromId := msg.fromId
  toId := msg.toId
  cmdId := sigExchangeNatInfoDeliver
  msgData := .other msg.body
  createTime := now

end OfflineMsg

/-- What a user has set for his notifications. -/
structure Settings where
  newMsg : Bool := true
  newCall : Bool := true
  hideMsgSoundOn : Bool := true
  undisturb : Bool := false
  deriving DecidableEq, Repr

structure FriendInfo extends Settings where
  friendStatus : FriendStatus
  userStatus : FriendStatus
  deriving DecidableEq, Repr

structure LoginInfo where
  isLogin : Bool
  /-- `checkDeviceLastUser`. -/
  lastUser : Bool := true
  deriving DecidableEq, Repr

structure SigEnv where
  now : Nat := 0
  /-- The state that the first user has the second one in. -/
  record : String → String → FriendStatus
  /-- Whether the server of the friendships answers. -/
  fetched : Bool := true
  settings : String → Settings := fun _ => {}
  loginInfo : String → Option LoginInfo := fun _ => none
  /-- Whether mongo takes the document that is written. -/
  written : Bool := true
  /-- Whether mongo updates the state of a call. -/
  updated : Bool := true

namespace SigEnv

def isLogin (env : SigEnv) (user : String) : Bool := (env.loginInfo user).any (·.isLogin)

def getFriendInfo (env : SigEnv) (userId friendId : String) : Option FriendInfo :=
  if env.fetched then
    some { env.settings friendId with
      friendStatus := env.record friendId userId
      userStatus := env.record userId friendId }
  else none

/-- Whether `InsertOne` succeeds. -/
def inserts (env : SigEnv) (doc : OfflineMsg) : Bool := doc.isValid && env.written

/-- What the task of a chat sees, of what the handler of a signal finds outside. -/
def chat (env : SigEnv) (msg : MESChat) : Env where
  now := env.now
  friend := (env.getFriendInfo msg.fromId msg.toId).map fun info =>
    (info.friendStatus, info.userStatus)
  written := env.written
  isLogin := env.isLogin

end SigEnv

inductive SigErr where
  | code (err : ErrCode)
  | errCallPeerOffline
  deriving DecidableEq, Repr

inductive Write where
  | insert (doc : OfflineMsg) (callId : String)
  /-- `updateCallOfflineMsgStatus`. -/
  | callStatus (toId callId : String) (status : Nat)
  deriving DecidableEq, Repr

inductive CallState where
  | idel
  | busy
  deriving DecidableEq, Repr

inductive Sent where
  | deliver (cmdId : UInt32) (toId : String)
  | customerService (cmdId : UInt32)
  | push (toId : String)
  deriving DecidableEq, Repr

structure Outcome where
  ack : Option SigErr := none
  writes : List Write := []
  busy : List (String × CallState) := []
  sent : List Sent := []
  deriving DecidableEq, Repr

def Write.apply (store : Store) : Write → Store
  | insert doc _ => replaceOne doc.keyDoc doc store
  | callStatus .. => store

/-- The store after a handler, with its writes in their order. -/
def Outcome.store (outcome : Outcome) (store : Store) : Store := outcome.writes.foldl Write.apply store

def checkFriendShip : Option FriendInfo → ErrCode
  | none => .exceptErr
  | some info =>
    if info.friendStatus = .noRela ∨ info.userStatus = .noRela then .errChatForbidden
    -- The source asks for `NO_RELA` of the user once more.
    else if info.friendStatus = .isBlack ∨ info.userStatus = .noRela then .errChatFriendBlock
    else if info.friendStatus = .isDel ∨ info.userStatus = .isDel then .errChatFriendDel
    else .nonErr

def isCustomerService (toId : String) : Bool := toId = "10000"

/-- Sending a message to a user who is online, or a notification to one who is not. -/
def deliverOrPush (env : SigEnv) (cmdId : UInt32) (toId : String) (pushes : Bool) : List Sent :=
  match env.loginInfo toId with
  | none => []
  | some login =>
    if login.isLogin then [.deliver cmdId toId]
    else if pushes && login.lastUser then [.push toId]
    else []

/-- Sending a message to a user who is online. -/
def deliver (env : SigEnv) (cmdId : UInt32) (toId : String) : List Sent :=
  if env.isLogin toId then [.deliver cmdId toId] else []

/-- Whether the receiver of a chat wants to be notified. -/
def pushesChat (info : FriendInfo) : Bool :=
  info.newMsg && !info.undisturb && (info.friendStatus ≠ .isStranger || info.hideMsgSoundOn)

/-- `HandleMsgChatTask` with what it sends. -/
def sendMsgChatTask (env : SigEnv) (store : Store) (msg : MESChat) : Outcome :=
  let (err, _) := handleMsgChatTask (env.chat msg) store msg
  if err ≠ .nonErr then { ack := some (.code err) }
  else
    let doc := OfflineMsg.ofChat env.now msg
    let replaced := store.any doc.keyDoc
    let pushes := (env.getFriendInfo msg.fromId msg.toId).any pushesChat
    { ack := some (.code err)
      writes := [.insert doc ""]
      sent := if isCustomerService msg.toId then [.customerService mesChatDeliver]
        else deliverOrPush env mesChatDeliver msg.toId (!replaced && pushes) }

def handleSponsorCallTask (env : SigEnv) (store : Store) (msg : SIGSponsorCall) : Outcome :=
  let info := env.getFriendInfo msg.fromId msg.inviteId
  let err := checkFriendShip info
  if err ≠ .nonErr then { ack := some (.code err) }
  else
    let doc := OfflineMsg.ofSponsorCall env.now msg
    let replaced := store.any doc.keyDoc
    if env.inserts doc then
      { ack := some (.code .nonErr)
        writes := [.insert doc msg.callId]
        sent := deliverOrPush env sigSponsorCallDeliver msg.inviteId
          (!replaced && info.any (·.newCall)) }
    else { ack := some (.code .exceptErr) }

/-- The answer is stored before the code of the check is read. -/
def handleSponsorCallAns (env : SigEnv) (msg : SIGSponsorCallAns) : Outcome :=
  let err := checkFriendShip (env.getFriendInfo msg.toId msg.fromId)
  let doc := OfflineMsg.ofSponsorCallAns env.now msg
  let writes := if env.inserts doc then [.insert doc ""] else []
  if err ≠ .nonErr then { ack := some (.code err), writes := writes }
  else if env.isLogin msg.toId then
    { ack := some (.code .nonErr)
      writes := writes
      busy :=
        if msg.errcode = .nonErr then [(msg.fromId, .busy), (msg.toId, .busy)]
        else if msg.errcode = .exceptErr then [(msg.fromId, .idel), (msg.toId, .idel)]
        else []
      sent := [.deliver sigSponsorCallAnsDeliver msg.toId] }
  else { ack := some .errCallPeerOffline, writes := writes }

/-- The document of a hang-up is left out if the call could be marked and the receiver is told. -/
def handleHangUpTask (env : SigEnv) (msg : SIGHangUp) : Outcome :=
  let err := checkFriendShip (env.getFriendInfo msg.fromId msg.toId)
  if err ≠ .nonErr then { ack := some (.code err) }
  else
    let doc := OfflineMsg.ofHangUp env.now msg
    let insert := if env.inserts doc then [Write.insert doc ""] else []
    let busy := [(msg.fromId, CallState.idel), (msg.toId, .idel)]
    if msg.callId ≠ "" ∧ env.updated then
      { ack := some (.code .nonErr)
        writes := .callStatus msg.toId msg.callId 1 ::
          (if env.isLogin msg.toId then [] else insert)
        busy := busy
        sent := deliver env sigHangUpDeliver msg.toId }
    else if env.inserts doc then
      { ack := some (.code .nonErr)
        writes := insert
        busy := busy
        sent := deliver env sigHangUpDeliver msg.toId }
    else { ack := some (.code .exceptErr), busy := busy }

/-- The check is commented out in the source. -/
def onExchangeNatInfo (env : SigEnv) (msg : SIGP2PCallExchangeNatInfo) : Outcome :=
  let doc := OfflineMsg.ofExchangeNatInfo env.now msg
  { ack := some (if env.isLogin msg.toId then .code .nonErr else .errCallPeerOffline)
    writes := if env.inserts doc then [.insert doc ""] else []
    sent := deliver env sigExchangeNatInfoDeliver msg.toId }

def onCallStateNotify (env : SigEnv) (msg : SIGP2PCallStateNotify) : Outcome :=
  let err := checkFriendShip (env.getFriendInfo msg.fromId msg.toId)
  if err ≠ .nonErr then { ack := some (.code err) }
  else
    { ack := some (if env.isLogin msg.toId then .code .nonErr else .errCallPeerOffline)
      sent := deliver env sigCallStateNotifyDeliver msg.toId }

inductive SigRequest where
  | chat (msg : MESChat)
  | sponsorCall (msg : SIGSponsorCall)
  | sponsorCallAns (msg : SIGSponsorCallAns)
  | hangUp (msg : SIGHangUp)
  | exchangeNatInfo (msg : SIGP2PCallExchangeNatInfo)
  | callStateNotify (msg : SIGP2PCallStateNotify)
  deriving DecidableEq, Repr

namespace SigRequest

def fromId : SigRequest → String
  | chat msg => msg.fromId
  | sponsorCall msg => msg.fromId
  | sponsorCallAns msg => msg.fromId
  | hangUp msg => msg.fromId
  | exchangeNatInfo msg => msg.fromId
  | callStateNotify msg => msg.fromId

/-- The receiver, whichever field of the request names him. -/
def toId : SigRequest → String
  | chat msg => msg.toId
  | sponsorCall msg => msg.inviteId
  | sponsorCallAns msg => msg.toId
  | hangUp msg => msg.toId
  | exchangeNatInfo msg => msg.toId
  | callStateNotify msg => msg.toId

def msgId : SigRequest → String
  | chat msg => msg.msgId
  | sponsorCall msg => msg.msgId
  | sponsorCallAns msg => msg.msgId
  | hangUp msg => msg.msgId
  | exchangeNatInfo msg => msg.msgId
  | callStateNotify msg => msg.msgId

/-- "lack of required parameter". -/
def lacks (req : SigRequest) : Bool := req.fromId = "" || req.toId = "" || req.msgId = ""

/-- The handler of a request; the last two do not look at the parameters. -/
def handle (env : SigEnv) (store : Store) (req : SigRequest) : Outcome :=
  match req with
  | chat msg => if req.lacks then {} else sendMsgChatTask env store msg
  | sponsorCall msg => if req.lacks then {} else handleSponsorCallTask env store msg
  | sponsorCallAns msg => if req.lacks then {} else handleSponsorCallAns env msg
  | hangUp msg => if req.lacks then {} else handleHangUpTask env msg
  | exchangeNatInfo msg => onExchangeNatInfo env msg
  | callStateNotify msg => onCallStateNotify env msg

end SigRequest

/-- The writes are those that the store of a chat is given by. -/
theorem sendMsgChatTask_refines (env : SigEnv) (store : Store) (msg : MESChat) :
    (sendMsgChatTask env store msg).ack =
        some (.code (handleMsgChatTask (env.chat msg) store msg).1) ∧
      (sendMsgChatTask env store msg).store store =
        (handleMsgChatTask (env.chat msg) store msg).2 := by
  simp only [sendMsgChatTask, handleMsgChatTask, insertOfflineMsg]
  split
  · simp [Outcome.store]
  · split
    · simp [Outcome.store]
    · split
      · rename_i store' hins
        obtain ⟨-, hstore⟩ := Option.ite_none_right_eq_some.mp hins
        obtain rfl := Option.some_inj.mp hstore
        simp [Outcome.store, Write.apply, SigEnv.chat]
      · simp [Outcome.store]

/-- A state that keeps the other user out. -/
def FriendStatus.blocks (status : FriendStatus) : Prop := status = .isBlack ∨ status = .noRela

/-- One of the two users has the other on the black list or without a record. -/
def Blocked (env : SigEnv) (a b : String) : Prop :=
  (env.record a b).blocks ∨ (env.record b a).blocks

/-- Nothing is stored for the receiver, and nothing goes out to him. -/
def Outcome.Silent (outcome : Outcome) : Prop := outcome.writes = [] ∧ outcome.sent = []

/-- The blocked friendships that the check lets pass: the user whose request is checked has the
other on the black list, and the other has him as a friend. -/
def Slips (env : SigEnv) (userId friendId : String) : Prop :=
  env.fetched ∧ env.record userId friendId = .isBlack ∧
    (env.record friendId userId = .isNormal ∨ env.record friendId userId = .isStranger)

/-- When a handler reaches the receiver although the users are blocked. -/
def SigRequest.Leaks (env : SigEnv) (req : SigRequest) : Prop :=
  match req with
  | .chat _ => False
  | .sponsorCall msg => ¬ req.lacks ∧ Slips env msg.fromId msg.inviteId ∧ env.written
  | .sponsorCallAns msg =>
    ¬ req.lacks ∧ (env.written ∨ Slips env msg.toId msg.fromId ∧ env.isLogin msg.toId)
  | .hangUp msg =>
    ¬ req.lacks ∧ Slips env msg.fromId msg.toId ∧ (env.written ∨ msg.callId ≠ "" ∧ env.updated)
  | .exchangeNatInfo msg => env.written ∧ msg.msgId ≠ "" ∨ env.isLogin msg.toId
  | .callStateNotify msg => Slips env msg.fromId msg.toId ∧ env.isLogin msg.toId

theorem Blocked.symm {env : SigEnv} {a b : String} (h : Blocked env a b) : Blocked env b a :=
  Or.symm h

theorem friendErr_blocked {env : SigEnv} {msg : MESChat} (h : Blocked env msg.fromId msg.toId) :
    friendErr (env.chat msg).friend ≠ .nonErr := by
  simp only [SigEnv.chat, SigEnv.getFriendInfo]
  split
  · simp only [Option.map_some, friendErr]
    obtain (h | h) | (h | h) := h <;> simp [h] <;> split <;> simp
  · simp [friendErr]

theorem checkFriendShip_blocked {env : SigEnv} {a b : String} (h : Blocked env a b) :
    checkFriendShip (env.getFriendInfo a b) = .nonErr ↔ Slips env a b := by
  simp only [SigEnv.getFriendInfo, Slips]
  split
  · rename_i hfetched
    simp only [checkFriendShip, hfetched, true_and]
    obtain (h | h) | (h | h) := h
    all_goals cases huser : env.record a b <;> cases hfriend : env.record b a <;> simp_all
  · rename_i hfetched
    simp [checkFriendShip, hfetched]

theorem deliver_eq_nil (env : SigEnv) (cmdId : UInt32) (toId : String) :
    deliver env cmdId toId = [] ↔ ¬ env.isLogin toId := by
  simp [deliver]

theorem SigRequest.not_lacks {req : SigRequest} (h : ¬ req.lacks) : req.msgId ≠ "" := by
  simp only [lacks, Bool.or_eq_true, decide_eq_true_eq, not_or] at h
  exact h.2

theorem chat_silent {env : SigEnv} {msg : MESChat} (store : Store)
    (h : Blocked env msg.fromId msg.toId) : (sendMsgChatTask env store msg).Silent := by
  have herr := friendErr_blocked h
  have hne : (handleMsgChatTask (env.chat msg) store msg).1 ≠ .nonErr := by
    simp only [handleMsgChatTask]
    split
    · simp
    · simpa only [if_pos herr] using herr
  simp only [sendMsgChatTask]
  rw [if_pos hne]
  exact ⟨rfl, rfl⟩

theorem sponsorCall_silent_iff {env : SigEnv} {msg : SIGSponsorCall} (store : Store)
    (hid : msg.msgId ≠ "") (h : Blocked env msg.fromId msg.inviteId) :
    (handleSponsorCallTask env store msg).Silent ↔
      ¬ (Slips env msg.fromId msg.inviteId ∧ env.written) := by
  have hins : env.inserts (.ofSponsorCall env.now msg) = env.written := by
    simp [SigEnv.inserts, OfflineMsg.isValid, OfflineMsg.ofSponsorCall, sigSponsorCallDeliver, hid]
  simp only [handleSponsorCallTask, hins]
  rw [← checkFriendShip_blocked h]
  by_cases herr : checkFriendShip (env.getFriendInfo msg.fromId msg.inviteId) = .nonErr
  · cases hw : env.written <;> simp [herr, Outcome.Silent]
  · simp [herr, Outcome.Silent]

theorem sponsorCallAns_silent_iff {env : SigEnv} {msg : SIGSponsorCallAns}
    (hid : msg.msgId ≠ "") (h : Blocked env msg.toId msg.fromId) :
    (handleSponsorCallAns env msg).Silent ↔
      ¬ (env.written ∨ Slips env msg.toId msg.fromId ∧ env.isLogin msg.toId) := by
  have hins : env.inserts (.ofSponsorCallAns env.now msg) = env.written := by
    simp [SigEnv.inserts, OfflineMsg.isValid, OfflineMsg.ofSponsorCallAns, sigSponsorCallAnsDeliver,
      hid]
  simp only [handleSponsorCallAns, hins]
  rw [← checkFriendShip_blocked h]
  by_cases herr : checkFriendShip (env.getFriendInfo msg.toId msg.fromId) = .nonErr
  · cases hw : env.written <;> cases hl : env.isLogin msg.toId <;> simp [herr, Outcome.Silent]
  · cases hw : env.written <;> simp [herr, Outcome.Silent]

theorem hangUp_silent_iff {env : SigEnv} {msg : SIGHangUp}
    (hid : msg.msgId ≠ "") (h : Blocked env msg.fromId msg.toId) :
    (handleHangUpTask env msg).Silent ↔
      ¬ (Slips env msg.fromId msg.toId ∧ (env.written ∨ msg.callId ≠ "" ∧ env.updated)) := by
  have hins : env.inserts (.ofHangUp env.now msg) = env.written := by
    simp [SigEnv.inserts, OfflineMsg.isValid, OfflineMsg.ofHangUp, sigHangUpDeliver, hid]
  simp only [handleHangUpTask, hins]
  rw [← checkFriendShip_blocked h]
  by_cases herr : checkFriendShip (env.getFriendInfo msg.fromId msg.toId) = .nonErr
  · by_cases hmark : msg.callId ≠ "" ∧ env.updated
    · simp [herr, hmark, Outcome.Silent]
    · cases hw : env.written <;> simp [herr, hmark, Outcome.Silent]
  · simp [herr, Outcome.Silent]

theorem exchangeNatInfo_silent_iff (env : SigEnv) (msg : SIGP2PCallExchangeNatInfo) :
    (onExchangeNatInfo env msg).Silent ↔
      ¬ (env.written ∧ msg.msgId ≠ "" ∨ env.isLogin msg.toId) := by
  have hins : env.inserts (.ofExchangeNatInfo env.now msg) ↔ env.written ∧ msg.msgId ≠ "" := by
    simp only [SigEnv.inserts, OfflineMsg.isValid, Bool.and_eq_true, decide_eq_true_eq]
    simp [OfflineMsg.ofExchangeNatInfo, sigExchangeNatInfoDeliver, and_comm]
  simp only [onExchangeNatInfo, hins, Outcome.Silent, deliver_eq_nil, not_or]
  refine and_congr_left fun _ => ?_
  split <;> simp_all

theorem callStateNotify_silent_iff {env : SigEnv} {msg : SIGP2PCallStateNotify}
    (h : Blocked env msg.fromId msg.toId) :
    (onCallStateNotify env msg).Silent ↔
      ¬ (Slips env msg.fromId msg.toId ∧ env.isLogin msg.toId) := by
  simp only [onCallStateNotify]
  rw [← checkFriendShip_blocked h]
  by_cases herr : checkFriendShip (env.getFriendInfo msg.fromId msg.toId) = .nonErr
  · simp [herr, Outcome.Silent, deliver_eq_nil]
  · simp [herr, Outcome.Silent]

/-- A request between blocked users reaches the receiver in nothing exactly when it is none of
those that leak. -/
theorem blocked_silent_iff (env : SigEnv) (store : Store) (req : SigRequest) :
    (Blocked env req.fromId req.toId → (req.handle env store).Silent) ↔
      (Blocked env req.fromId req.toId → ¬ req.Leaks env) := by
  refine imp_congr_right fun h => ?_
  have hempty : ({} : Outcome).Silent := ⟨rfl, rfl⟩
  by_cases hlacks : req.lacks
  · cases req with
    | exchangeNatInfo msg => exact exchangeNatInfo_silent_iff env msg
    | callStateNotify msg => exact callStateNotify_silent_iff h
    | _ => simp [SigRequest.handle, SigRequest.Leaks, hlacks, hempty]
  · have hid := SigRequest.not_lacks hlacks
    cases req with
    | chat msg => simp [SigRequest.handle, SigRequest.Leaks, hlacks, chat_silent store h]
    | sponsorCall msg =>
      simpa [SigRequest.handle, SigRequest.Leaks, hlacks] using sponsorCall_silent_iff store hid h
    | sponsorCallAns msg =>
      simpa [SigRequest.handle, SigRequest.Leaks, hlacks] using
        sponsorCallAns_silent_iff hid h.symm
    | hangUp msg =>
      simpa [SigRequest.handle, SigRequest.Leaks, hlacks] using hangUp_silent_iff hid h
    | exchangeNatInfo msg => exact exchangeNatInfo_silent_iff env msg
    | callStateNotify msg => exact callStateNotify_silent_iff h

/-- Ann has Bob on the black list, and his answer to a call is stored for her. -/
theorem blocked_answer_stored :
    ¬ ∀ (env : SigEnv) (store : Store) (req : SigRequest),
      Blocked env req.fromId req.toId → (req.handle env store).Silent := by
  intro h
  let env : SigEnv :=
    { record := fun a b => if a = "ann" ∧ b = "bob" then .isBlack else .isNormal }
  have hblocked : Blocked env "bob" "ann" := .inr (.inl rfl)
  have hsilent := h env [] (.sponsorCallAns ⟨"bob", "ann", "m1", .nonErr, ""⟩) hblocked
  exact absurd hsilent.1 (by decide)

end Msg

end ImServer
