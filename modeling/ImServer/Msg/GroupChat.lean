import ImServer.Lib.Collection
import ImServer.Msg.ChatDurability

/-!
# Group chats of the message server

A chat to a group is stored once, in the collection of group messages, and each member but the
sender gets an entry that names it among his offline messages (msg/groupChatHandle.cpp,
msg/mod_mongodb/grpOfflineMsg.cpp). The document is stored before the members are fetched, and
a chat that finds its document stored is answered as a repetition.

The chats of a group run one after another, since their thread is chosen by the group. The
entries are written by tasks of another pool, here one member at a time, between whatever else
the server does.
-/

namespace ImServer

namespace Msg

structure MESGrpChat where
  fromId : String
  grpId : String
  msgId : String
  content : String
  msgTime : Nat := 0
  deriving DecidableEq, Repr

structure MESGrpChatDeliveredAck where
  fromId : String
  grpId : String
  msgId : String
  deriving DecidableEq, Repr

structure GroupChatCancel where
  fromId : String
  groupId : String
  msgId : String
  msgTime : Nat := 0
  deriving DecidableEq, Repr

inductive GrpStatus where
  | grpDeposit
  | grpNormal
  | grpDismiss
  deriving DecidableEq, Repr

def isLetter (char : Char) : Bool := ('a' ≤ char && char ≤ 'z') || ('A' ≤ char && char ≤ 'Z')

/-- The length is that of the bytes. -/
def isGrpIdValid (grpId : String) : Bool :=
  20 ≤ grpId.utf8ByteSize && grpId.utf8ByteSize ≤ 40 &&
    grpId.toList.all (fun char => isLetter char || char.isDigit) && grpId.toList.any Char.isDigit

/-- What tells two group chats apart. -/
structure GrpMsgKey where
  msgId : String
  fromId : String
  grpId : String
  deriving DecidableEq, Repr

def MESGrpChat.key (msg : MESGrpChat) : GrpMsgKey := ⟨msg.msgId, msg.fromId, msg.grpId⟩

structure GrpOfflineMsg where
  msgId : String
  fromId : String
  grpId : String
  msgData : MESGrpChat
  createTime : Nat
  bPulled : Nat := 0
  deriving DecidableEq, Repr

abbrev GrpStore := List GrpOfflineMsg

namespace GrpOfflineMsg

def ofChat (msg : MESGrpChat) : GrpOfflineMsg where
  msgId := msg.msgId
  fromId := msg.fromId
  grpId := msg.grpId
  msgData := msg
  createTime := msg.msgTime

def isValid (doc : GrpOfflineMsg) : Bool := doc.createTime ≠ 0 && doc.msgId ≠ ""

def key (doc : GrpOfflineMsg) : GrpMsgKey := ⟨doc.msgId, doc.fromId, doc.grpId⟩

def keyDoc (doc : GrpOfflineMsg) (stored : GrpOfflineMsg) : Bool :=
  stored.msgId = doc.msgId && stored.fromId = doc.fromId && stored.grpId = doc.grpId

end GrpOfflineMsg

/-- `CGrpOfflineMsgKeys`, which has no sender. -/
def grpOfflineMsgKeys (grpId msgId : String) (doc : GrpOfflineMsg) : Bool :=
  doc.grpId = grpId && doc.msgId = msgId

def delGrpOfflineMsg (grpId msgId : String) (store : GrpStore) : GrpStore :=
  Collection.updateMany (grpOfflineMsgKeys grpId msgId)
    (fun doc => { doc with bPulled := doc.bPulled + 1 }) store

/-- The bits that `InsertOne` returns. -/
inductive Inserted where
  | failed
  | success
  | successReplaceOne
  deriving DecidableEq, Repr

def insertGrpOfflineMsg (written : Bool) (doc : GrpOfflineMsg) (store : GrpStore) :
    Inserted × GrpStore :=
  if doc.isValid && written then
    (if store.any doc.keyDoc then .successReplaceOne else .success,
      Collection.replaceOne doc.keyDoc doc store)
  else (.failed, store)

structure GrpEnv where
  now : Nat := 1
  /-- The status of the group, if it could be fetched. -/
  grpInfo : Option GrpStatus := some .grpNormal
  /-- Whether mongo takes the document. -/
  written : Bool := true
  /-- The members of the group, if they could be fetched. -/
  memberInfo : Option (List String) := none

/-- The answer, the group messages, and the message and members of the task that is queued. -/
structure GrpChatResult where
  ack : Option ErrCode
  grpStore : GrpStore
  task : Option (MESGrpChat × List String) := none

def onGrpChatInserted (env : GrpEnv) (doc : GrpOfflineMsg) (res : Inserted) (store : GrpStore) :
    GrpChatResult :=
  match res with
  | .failed => ⟨some .exceptErr, store, none⟩
  | .successReplaceOne => ⟨some .nonErr, store, none⟩
  | .success =>
    match env.memberInfo with
    | none => ⟨some .errGroupNetworkexception, store, none⟩
    | some members =>
      if doc.fromId ∈ members then ⟨some .nonErr, store, some (doc.msgData, members)⟩
      else ⟨some .errChatForbidden, delGrpOfflineMsg doc.grpId doc.msgId store, none⟩

/-- Why a chat is not stored: it is dropped without an answer, or answered with an error. -/
def checkGrpChat (env : GrpEnv) (msg : MESGrpChat) : Option (Option ErrCode) :=
  if msg.grpId = "" ∨ msg.fromId = "" ∨ msg.msgId = "" then some none
  else if !isGrpIdValid msg.grpId then some none
  else if msg.content = "" then some (some .errChatUnhealthy)
  else
    match env.grpInfo with
    | none => some (some .errGroupNetworkexception)
    | some status => if status ≠ .grpNormal then some (some .errChatForbidden) else none

def onGrpMsgChat (env : GrpEnv) (store : GrpStore) (msg : MESGrpChat) : GrpChatResult :=
  match checkGrpChat env msg with
  | some ack => ⟨ack, store, none⟩
  | none =>
    let doc := GrpOfflineMsg.ofChat { msg with msgTime := env.now }
    let (res, store) := insertGrpOfflineMsg env.written doc store
    onGrpChatInserted env doc res store

/-- The entry of a member, which has no data and the group as its sender. -/
def OfflineMsg.ofGrpChat (msg : MESGrpChat) (toId : String) : OfflineMsg where
  msgId := msg.msgId
  fromId := msg.grpId
  toId := toId
  cmdId := mesGrpchatDeliver
  msgData := .other ""
  createTime := msg.msgTime
  isChatDeliver := true

def nBatch : Nat := 20

/-- One turn of the loop of `sendGroupMsg`: the entries of members that are online are collected
and inserted together. The inserts succeed. -/
def sendGroupMember (isLogin : Bool) (msg : MESGrpChat) (res : List OfflineMsg × Store)
    (toId : String) : List OfflineMsg × Store :=
  let doc := OfflineMsg.ofGrpChat msg toId
  if isLogin then
    let offlineMsgs := res.1 ++ [doc]
    if nBatch ≤ offlineMsgs.length then ([], insertMany offlineMsgs res.2) else (offlineMsgs, res.2)
  else (res.1, (insertOfflineMsg {} doc res.2).getD res.2)

/-- The entries that the loop has left are inserted at the end. -/
def sendRest (res : List OfflineMsg × Store) : Store :=
  if 0 < res.1.length then insertMany res.1 res.2 else res.2

def receivers (msg : MESGrpChat) (members : List String) : List String :=
  members.filter (· ≠ msg.fromId)

def sendGroupMsg (isLogin : String → Bool) (msg : MESGrpChat) (members : List String)
    (store : Store) : Store :=
  sendRest ((receivers msg members).foldl
    (fun res toId => sendGroupMember (isLogin toId) msg res toId) ([], store))

def onGrpMsgChatDeliverAck (store : Store) (msg : MESGrpChatDeliveredAck) : Store :=
  delOfflineMsg msg.fromId mesGrpchatDeliver msg.msgId store

/-- `COfflineMsgDelManyUserMsgKeys`. -/
def manyUserKeys (toIds : List String) (cmdId : UInt32) (msgId : String) (doc : OfflineMsg) : Bool :=
  toIds.contains doc.toId && doc.msgId = msgId && (cmdId = 0 || doc.cmdId = cmdId)

/-- What a member is told of a cancel; the group and the kind of the cancel are left out. -/
def memberCancel (store : Store) (msg : GroupChatCancel) (toId : String) : MESChatCancel where
  fromId := msg.fromId
  toId := toId
  msgId := msg.msgId
  msgTime := msg.msgTime
  sendState := if getOfflineMsgPullStatus toId mesGrpchatDeliver msg.msgId store then 1 else 0

def sendGroupCancelMsg (msg : GroupChatCancel) (members : List String) (store : Store) : Store :=
  insertMany (members.map fun toId => .ofCancel (memberCancel store msg toId))
    (updateMany (manyUserKeys members mesGrpchatDeliver msg.msgId) store)

/-- `HandleMsgChatCancelTask` of a group, after the checks of `OnGrpMsgChatCancel`. -/
def onGrpMsgChatCancel (memberInfo : Option (List String)) (store : Store) (msg : GroupChatCancel) :
    Option ErrCode × Store :=
  if msg.groupId = "" ∨ msg.fromId = "" ∨ msg.msgId = "" ∨ !isGrpIdValid msg.groupId then (none, store)
  else
    match memberInfo with
    | none => (none, store)
    | some members =>
      if msg.fromId ∈ members then (some .nonErr, sendGroupCancelMsg msg members store)
      else (some .errChatForbidden, store)

/-- A task of `sendGroupMsg` that has not come to its end. -/
structure SendTask where
  msg : MESGrpChat
  toIds : List String
  offlineMsgs : List OfflineMsg := []
  deriving DecidableEq, Repr

/-- A chat that was accepted, with the members that were fetched. -/
structure Accepted where
  msg : MESGrpChat
  members : List String
  deriving DecidableEq, Repr

structure GrpChatState where
  store : Store
  grpStore : GrpStore := []
  tasks : List SendTask := []
  /-- The chats that were answered without an error. -/
  acked : List GrpMsgKey := []
  accepted : List Accepted := []
  deriving DecidableEq

inductive GrpChatEvent where
  | chat (env : GrpEnv) (msg : MESGrpChat)
  /-- The next turn of the task at a position of the queue. -/
  | send (task : Nat) (isLogin : Bool)
  | deliverAck (msg : MESGrpChatDeliveredAck)
  | cancel (memberInfo : Option (List String)) (msg : GroupChatCancel)
  | cancelDeliverAck (userId msgId : String)
  /-- An operation of a request that is about no group. -/
  | other (e : Event)

namespace GrpChatState

def chat (s : GrpChatState) (env : GrpEnv) (msg : MESGrpChat) : GrpChatState :=
  let res := onGrpMsgChat env s.grpStore msg
  let s := { s with
    grpStore := res.grpStore
    acked := if res.ack = some .nonErr then msg.key :: s.acked else s.acked }
  match res.task with
  | none => s
  | some (msg, members) =>
    { s with
      tasks := s.tasks ++ [⟨msg, receivers msg members, []⟩]
      accepted := ⟨msg, members⟩ :: s.accepted }

def send (s : GrpChatState) (i : Nat) (task : SendTask) (isLogin : Bool) : GrpChatState :=
  match task.toIds with
  | [] => { s with store := sendRest (task.offlineMsgs, s.store), tasks := s.tasks.eraseIdx i }
  | toId :: toIds =>
    let (offlineMsgs, store) :=
      sendGroupMember isLogin task.msg (task.offlineMsgs, s.store) toId
    { s with store := store, tasks := s.tasks.set i ⟨task.msg, toIds, offlineMsgs⟩ }

def step (s : GrpChatState) : GrpChatEvent → Option GrpChatState
  | .chat env msg => some (s.chat env msg)
  | .send i isLogin => s.tasks[i]?.map (s.send i · isLogin)
  | .deliverAck msg => some { s with store := onGrpMsgChatDeliverAck s.store msg }
  | .cancel memberInfo msg => some { s with store := (onGrpMsgChatCancel memberInfo s.store msg).2 }
  | .cancelDeliverAck userId msgId =>
    some { s with store := delOfflineMsg userId mesChatcancelDeliver msgId s.store }
  | .other e => if e.op ∈ e.req.ops then some { s with store := e.op.apply s.store } else none

/-- The turns of a task that nothing interrupts. -/
def sendEvents (isLogin : String → Bool) (i : Nat) (toIds : List String) : List GrpChatEvent :=
  toIds.map (fun toId => .send i (isLogin toId)) ++ [.send i false]

theorem run_sendEvents (isLogin : String → Bool) {i : Nat} {task : SendTask} {s : GrpChatState}
    (htask : s.tasks[i]? = some task) :
    ∃ s', Run.run step s (sendEvents isLogin i task.toIds) = some s' ∧
      s'.store = sendRest (task.toIds.foldl
        (fun res toId => sendGroupMember (isLogin toId) task.msg res toId)
        (task.offlineMsgs, s.store)) ∧
      s'.tasks = s.tasks.eraseIdx i := by
  obtain ⟨msg, toIds, offlineMsgs⟩ := task
  induction toIds generalizing s offlineMsgs with
  | nil =>
    have hstep : s.step (.send i false) = some (s.send i ⟨msg, [], offlineMsgs⟩ false) := by
      simp [step, htask]
    exact ⟨_, Run.run_cons.mpr ⟨_, hstep, rfl⟩, rfl, rfl⟩
  | cons toId toIds ih =>
    have hstep : s.step (.send i (isLogin toId)) =
        some (s.send i ⟨msg, toId :: toIds, offlineMsgs⟩ (isLogin toId)) := by
      simp [step, htask]
    have hi : i < s.tasks.length := (List.getElem?_eq_some_iff.mp htask).1
    obtain ⟨s', hrun, hstore, htasks⟩ := ih
      (sendGroupMember (isLogin toId) msg (offlineMsgs, s.store) toId).1
      (s := s.send i ⟨msg, toId :: toIds, offlineMsgs⟩ (isLogin toId))
      (by simp [send, hi])
    refine ⟨s', Run.run_cons.mpr ⟨_, hstep, hrun⟩, hstore, ?_⟩
    rw [htasks]
    simp [send, List.eraseIdx_set_eq]

theorem run_sendGroupMsg (isLogin : String → Bool) {i : Nat} {msg : MESGrpChat}
    {members : List String} {s : GrpChatState}
    (htask : s.tasks[i]? = some ⟨msg, receivers msg members, []⟩) :
    ∃ s', Run.run step s (sendEvents isLogin i (receivers msg members)) = some s' ∧
      s'.store = sendGroupMsg isLogin msg members s.store ∧ s'.tasks = s.tasks.eraseIdx i :=
  run_sendEvents isLogin htask

/-- A chat that finds its document stored was accepted before, and an entry that is written
alone does not take the place of an entry of another group. -/
def good (s : GrpChatState) : GrpChatEvent → Prop
  | .chat env msg =>
    checkGrpChat env msg = none → env.written = true → env.now ≠ 0 →
      (∃ doc ∈ s.grpStore, doc.key = msg.key) → ∃ a ∈ s.accepted, a.msg.key = msg.key
  | .send i false =>
    ∀ task ∈ s.tasks[i]?, ∀ toId ∈ task.toIds.head?,
      ∀ doc ∈ s.store.find? (OfflineMsg.ofGrpChat task.msg toId).keyDoc, doc.fromId = task.msg.grpId
  | _ => True

instance (s : GrpChatState) : (e : GrpChatEvent) → Decidable (s.good e)
  | .chat .. => inferInstanceAs (Decidable (_ → _ → _ → (∃ doc ∈ s.grpStore, _) → ∃ a ∈ s.accepted, _))
  | .send _ false => inferInstanceAs (Decidable (∀ task ∈ _, ∀ toId ∈ _, ∀ doc ∈ _, _))
  | .send _ true | .deliverAck _ | .cancel .. | .cancelDeliverAck .. | .other _ => .isTrue trivial

end GrpChatState

/-- The member has an entry that names the chat. -/
def HasEntry (store : Store) (msg : MESGrpChat) (toId : String) : Prop :=
  ∃ doc ∈ store, doc.toId = toId ∧ doc.cmdId = mesGrpchatDeliver ∧ doc.msgId = msg.msgId ∧
    doc.fromId = msg.grpId

section Entries

variable {store : Store} {msg msg' : MESGrpChat} {toId toId' : String}

theorem HasEntry.of_mem (h : OfflineMsg.ofGrpChat msg toId ∈ store) : HasEntry store msg toId :=
  ⟨_, h, rfl, rfl, rfl, rfl⟩

theorem HasEntry.insertMany (h : HasEntry store msg toId) (docs : List OfflineMsg) :
    HasEntry (insertMany docs store) msg toId := by
  obtain ⟨doc, hdoc, hentry⟩ := h
  exact ⟨doc, List.mem_append_left _ hdoc, hentry⟩

theorem HasEntry.updateMany (h : HasEntry store msg toId) (filter : OfflineMsg → Bool) :
    HasEntry (updateMany filter store) msg toId := by
  obtain ⟨doc, hdoc, hentry⟩ := h
  refine ⟨_, List.mem_map_of_mem hdoc, ?_⟩
  split
  · exact hentry
  · exact hentry

theorem HasEntry.replaceOne (h : HasEntry store msg toId) {receiver msgId : String} {cmdId : UInt32}
    (hne : cmdId ≠ 0) (hcmd : cmdId ≠ mesGrpchatDeliver) (new : OfflineMsg) :
    HasEntry (replaceOne (offlineMsgKeys receiver cmdId msgId) new store) msg toId := by
  obtain ⟨doc, hdoc, hentry⟩ := h
  refine ⟨doc, mem_replaceOne hdoc ?_, hentry⟩
  simp [offlineMsgKeys, hentry.2.1, hne, hcmd.symm]

theorem keyDoc_eq_true {doc stored : OfflineMsg} :
    doc.keyDoc stored = true ↔ stored.toId = doc.toId ∧
      (doc.msgId = "" ∨ stored.msgId = doc.msgId) ∧ (doc.cmdId = 0 ∨ stored.cmdId = doc.cmdId) := by
  simp only [OfflineMsg.keyDoc, offlineMsgKeys, Bool.and_eq_true, Bool.or_eq_true, decide_eq_true_eq,
    and_assoc]

theorem isValid_eq_true {doc : OfflineMsg} : doc.isValid = true ↔ doc.cmdId ≠ 0 ∧ doc.msgId ≠ "" := by
  simp only [OfflineMsg.isValid, Bool.and_eq_true, decide_eq_true_eq]

/-- An entry that is written alone takes at most the place of one that names the same chat. -/
theorem HasEntry.insertOfflineMsg (h : HasEntry store msg toId)
    (hfound : ∀ doc ∈ store.find? (OfflineMsg.ofGrpChat msg' toId').keyDoc, doc.fromId = msg'.grpId) :
    HasEntry ((Msg.insertOfflineMsg {} (.ofGrpChat msg' toId') store).getD store) msg toId := by
  unfold Msg.insertOfflineMsg
  split
  · next hvalid =>
    obtain ⟨doc, hdoc, hentry⟩ := h
    let new := OfflineMsg.ofGrpChat msg' toId'
    have hcases : doc ∈ Msg.replaceOne new.keyDoc new store ∨ store.find? new.keyDoc = some doc :=
      replaceOne_eq new.keyDoc new store ▸ Collection.mem_replaceOne_or_found hdoc
    obtain hmem | hdocFound := hcases
    · exact ⟨doc, hmem, hentry⟩
    · have hfrom : doc.fromId = msg'.grpId := hfound doc hdocFound
      obtain ⟨hkeyTo, hkeyId⟩ := keyDoc_eq_true.mp (List.find?_some hdocFound)
      have hkeyId := hkeyId.1.resolve_left (isValid_eq_true.mp (Bool.and_eq_true_iff.mp hvalid).1).2
      obtain ⟨hto, -, hmsgId, hgrp⟩ := hentry
      refine ⟨_, new_mem_replaceOne _ _ _, ?_, rfl, ?_, ?_⟩
      · exact hkeyTo.symm.trans hto
      · exact hkeyId.symm.trans hmsgId
      · exact hfrom.symm.trans hgrp
  · exact h

/-- The entry of a member that is not online is in the store. -/
theorem HasEntry.of_insertOfflineMsg (hid : msg.msgId ≠ "") (toId : String) (store : Store) :
    HasEntry ((Msg.insertOfflineMsg {} (.ofGrpChat msg toId) store).getD store) msg toId := by
  have hvalid : (OfflineMsg.ofGrpChat msg toId).isValid = true := by
    simp [OfflineMsg.isValid, OfflineMsg.ofGrpChat, hid, mesGrpchatDeliver]
  simp only [Msg.insertOfflineMsg, hvalid, Bool.and_self, if_true, Option.getD_some]
  exact .of_mem (new_mem_replaceOne _ _ _)

/-- A turn inserts the entry of its member, or keeps it, and what was kept before, for later. -/
theorem sendGroupMember_serves (isLogin : Bool) (hid : msg.msgId ≠ "") {offlineMsgs : List OfflineMsg}
    (h : toId = toId' ∨ OfflineMsg.ofGrpChat msg toId ∈ offlineMsgs) :
    HasEntry (sendGroupMember isLogin msg (offlineMsgs, store) toId').2 msg toId ∨
      OfflineMsg.ofGrpChat msg toId ∈ (sendGroupMember isLogin msg (offlineMsgs, store) toId').1 := by
  unfold sendGroupMember
  split
  · have hmem : OfflineMsg.ofGrpChat msg toId ∈ offlineMsgs ++ [OfflineMsg.ofGrpChat msg toId'] := by
      obtain rfl | h := h
      · exact List.mem_append_right _ List.mem_cons_self
      · exact List.mem_append_left _ h
    dsimp only
    split
    · exact .inl (.of_mem (List.mem_append_right _ hmem))
    · exact .inr hmem
  · obtain rfl | h := h
    · exact .inl (.of_insertOfflineMsg hid toId store)
    · exact .inr h

theorem HasEntry.sendGroupMember (h : HasEntry store msg toId) {isLogin : Bool}
    {offlineMsgs : List OfflineMsg}
    (hfound : isLogin = false →
      ∀ doc ∈ store.find? (OfflineMsg.ofGrpChat msg' toId').keyDoc, doc.fromId = msg'.grpId) :
    HasEntry (sendGroupMember isLogin msg' (offlineMsgs, store) toId').2 msg toId := by
  unfold Msg.sendGroupMember
  cases isLogin with
  | true =>
    simp only [if_true]
    split
    · exact h.insertMany _
    · exact h
  | false => exact h.insertOfflineMsg (hfound rfl)

theorem HasEntry.sendRest (h : HasEntry store msg toId) (offlineMsgs : List OfflineMsg) :
    HasEntry (sendRest (offlineMsgs, store)) msg toId := by
  unfold Msg.sendRest
  split
  · exact h.insertMany _
  · exact h

theorem HasEntry.of_sendRest {offlineMsgs : List OfflineMsg}
    (h : OfflineMsg.ofGrpChat msg toId ∈ offlineMsgs) (store : Store) :
    HasEntry (Msg.sendRest (offlineMsgs, store)) msg toId := by
  unfold Msg.sendRest
  rw [if_pos (List.length_pos_of_mem h)]
  exact .of_mem (List.mem_append_right _ h)

theorem HasEntry.onGrpMsgChatCancel (h : HasEntry store msg toId) (memberInfo : Option (List String))
    (cancel : GroupChatCancel) :
    HasEntry (onGrpMsgChatCancel memberInfo store cancel).2 msg toId := by
  unfold Msg.onGrpMsgChatCancel
  split
  · exact h
  · split
    · exact h
    · split
      · exact (h.updateMany _).insertMany _
      · exact h

end Entries

/-- A request that is about no group replaces only chats and notifications. -/
theorem Request.cmd_of_replaceOne {req : Request} {toId msgId : String} {cmdId : UInt32}
    {doc : OfflineMsg} (h : .replaceOne toId cmdId msgId doc ∈ req.ops) :
    cmdId = mesChatDeliver ∨ cmdId = mesChatDeliveredNotification := by
  have hdeliver : ∀ {env user items}, .replaceOne toId cmdId msgId doc ∉ deliverOps env user items := by
    intro env user items h
    simp only [deliverOps, othersOps, chatOps, List.mem_append, List.mem_map, List.mem_flatMap] at h
    obtain ⟨group, -, h⟩ | ⟨group, -, h⟩ := h
    · cases h
    · split at h
      · simp at h
      · cases h
  cases req with
  | chat env msg =>
    obtain ⟨-, h⟩ := mem_ops_chat h
    cases h
    exact .inl rfl
  | cancel env msg pulled =>
    obtain ⟨-, doc', h⟩ := mem_ops_cancel h
    cases h
    exact .inl rfl
  | deliverAck env msg =>
    obtain ⟨-, ⟨doc', h⟩ | h⟩ := mem_ops_deliverAck h
    · cases h
      exact .inr rfl
    · cases h
  | delivered env msg => exact absurd (List.mem_ite_nil_left.mp h).2 hdeliver
  | pull env msg dirty =>
    obtain h | ⟨msgId, h⟩ := mem_ops_pull h
    · exact absurd h hdeliver
    · cases h
  | notifyAck msg =>
    obtain ⟨group, -, h⟩ := List.mem_map.mp h
    cases h

theorem HasEntry.apply {store : Store} {msg : MESGrpChat} {toId : String}
    (h : HasEntry store msg toId) {req : Request} {op : Op} (hop : op ∈ req.ops) :
    HasEntry (op.apply store) msg toId := by
  cases op with
  | replaceOne receiver cmdId msgId doc =>
    obtain rfl | rfl := Request.cmd_of_replaceOne hop
    · exact h.replaceOne (by decide) (by decide) doc
    · exact h.replaceOne (by decide) (by decide) doc
  | insertMany docs => exact h.insertMany docs
  | delOfflineMsg toId cmdId msgId => exact h.updateMany _
  | delOfflineMsgs toId cmdId msgIds => exact h.updateMany _

theorem GrpOfflineMsg.keyDoc_eq_true {doc stored : GrpOfflineMsg} :
    doc.keyDoc stored = true ↔ stored.key = doc.key := by
  simp only [keyDoc, key, Bool.and_eq_true, decide_eq_true_eq, GrpMsgKey.mk.injEq, and_assoc]

theorem GrpOfflineMsg.isValid_eq_true {doc : GrpOfflineMsg} :
    doc.isValid = true ↔ doc.createTime ≠ 0 ∧ doc.msgId ≠ "" := by
  simp only [GrpOfflineMsg.isValid, Bool.and_eq_true, decide_eq_true_eq]

theorem inserted_eq {msg : MESGrpChat} (hid : msg.msgId ≠ "") (written : Bool) (now : Nat)
    (store : GrpStore) :
    (insertGrpOfflineMsg written (.ofChat { msg with msgTime := now }) store).1 =
      if written = true ∧ now ≠ 0 then
        if ∃ doc ∈ store, doc.key = msg.key then .successReplaceOne else .success
      else .failed := by
  have hvalid : ((GrpOfflineMsg.ofChat { msg with msgTime := now }).isValid && written) = true ↔
      written = true ∧ now ≠ 0 := by
    rw [Bool.and_eq_true, GrpOfflineMsg.isValid_eq_true]
    exact ⟨fun h => ⟨h.2, h.1.1⟩, fun h => ⟨⟨h.2, hid⟩, h.1⟩⟩
  have hany : store.any (GrpOfflineMsg.ofChat { msg with msgTime := now }).keyDoc = true ↔
      ∃ doc ∈ store, doc.key = msg.key := by
    simp only [List.any_eq_true, GrpOfflineMsg.keyDoc_eq_true]
    rfl
  unfold insertGrpOfflineMsg
  by_cases htaken : written = true ∧ now ≠ 0
  · rw [if_pos (hvalid.mpr htaken), if_pos htaken]
    by_cases hstored : ∃ doc ∈ store, doc.key = msg.key
    · simp only [if_pos (hany.mpr hstored), if_pos hstored]
    · simp only [if_neg (mt hany.mp hstored), if_neg hstored]
  · rw [if_neg (mt hvalid.mp htaken), if_neg htaken]

theorem checkGrpChat_ne_nonErr (env : GrpEnv) (msg : MESGrpChat) :
    checkGrpChat env msg ≠ some (some .nonErr) := by
  unfold checkGrpChat
  repeat' split
  all_goals simp

theorem msgId_ne_of_checkGrpChat {env : GrpEnv} {msg : MESGrpChat} (h : checkGrpChat env msg = none) :
    msg.msgId ≠ "" := by
  intro hid
  simp [checkGrpChat, hid] at h

/-- What a chat comes to: no answer or an error, a repetition, or a task for the members. -/
theorem onGrpMsgChat_cases (env : GrpEnv) (store : GrpStore) (msg : MESGrpChat) :
    ((onGrpMsgChat env store msg).ack ≠ some .nonErr ∧ (onGrpMsgChat env store msg).task = none) ∨
    ((onGrpMsgChat env store msg).task = none ∧ checkGrpChat env msg = none ∧ env.written = true ∧
      env.now ≠ 0 ∧ ∃ doc ∈ store, doc.key = msg.key) ∨
    ∃ members, msg.fromId ∈ members ∧ msg.msgId ≠ "" ∧
      (onGrpMsgChat env store msg).task = some ({ msg with msgTime := env.now }, members) := by
  unfold onGrpMsgChat
  cases hcheck : checkGrpChat env msg with
  | some ack => exact .inl ⟨fun hack => checkGrpChat_ne_nonErr env msg (hack ▸ hcheck), rfl⟩
  | none =>
    simp only [inserted_eq (msgId_ne_of_checkGrpChat hcheck)]
    by_cases htaken : env.written = true ∧ env.now ≠ 0
    · rw [if_pos htaken]
      by_cases hstored : ∃ doc ∈ store, doc.key = msg.key
      · rw [if_pos hstored]
        exact .inr (.inl ⟨rfl, trivial, htaken.1, htaken.2, hstored⟩)
      · rw [if_neg hstored]
        simp only [onGrpChatInserted]
        cases env.memberInfo with
        | none => exact .inl ⟨by simp, rfl⟩
        | some members =>
          dsimp only
          split
          · next hmem => exact .inr (.inr ⟨members, hmem, msgId_ne_of_checkGrpChat hcheck, rfl⟩)
          · exact .inl ⟨by simp, rfl⟩
    · rw [if_neg htaken]
      exact .inl ⟨by simp [onGrpChatInserted], rfl⟩

/-- The task will write the entry of the member, to whom it has not come yet or whose document it
holds. -/
def SendTask.Serves (task : SendTask) (msg : MESGrpChat) (toId : String) : Prop :=
  task.msg = msg ∧ (toId ∈ task.toIds ∨ OfflineMsg.ofGrpChat msg toId ∈ task.offlineMsgs)

namespace GrpChatState

/-- Every chat that was answered without an error was accepted when the sender was a member,
and when no task of it is left, all other members that were fetched have an entry. -/
def AckSound (s : GrpChatState) : Prop :=
  ∀ key ∈ s.acked, ∃ a ∈ s.accepted, a.msg.key = key ∧ a.msg.fromId ∈ a.members ∧
    ((∀ task ∈ s.tasks, task.msg.key ≠ key) →
      ∀ toId ∈ a.members, toId ≠ a.msg.fromId → HasEntry s.store a.msg toId)

/-- Every receiver of an accepted chat has his entry, or a task that will write it. -/
structure Inv (s : GrpChatState) : Prop where
  acked : ∀ key ∈ s.acked, ∃ a ∈ s.accepted, a.msg.key = key
  member : ∀ a ∈ s.accepted, a.msg.fromId ∈ a.members ∧ a.msg.msgId ≠ ""
  served : ∀ a ∈ s.accepted, ∀ toId ∈ receivers a.msg a.members,
    HasEntry s.store a.msg toId ∨ ∃ task ∈ s.tasks, task.Serves a.msg toId

theorem Inv.ackSound {s : GrpChatState} (hinv : s.Inv) : s.AckSound := by
  intro key hkey
  obtain ⟨a, ha, rfl⟩ := hinv.acked key hkey
  refine ⟨a, ha, rfl, (hinv.member a ha).1, ?_⟩
  intro hnone toId hmem hne
  have hreceiver : toId ∈ receivers a.msg a.members := List.mem_filter.mpr ⟨hmem, by simpa using hne⟩
  obtain hentry | ⟨task, htask, hmsg, -⟩ := hinv.served a ha toId hreceiver
  · exact hentry
  · exact absurd (congrArg MESGrpChat.key hmsg) (hnone task htask)

/-- Events that keep the entries and touch nothing else keep the invariant. -/
theorem Inv.of_store {s : GrpChatState} (hinv : s.Inv) {store : Store}
    (hkeep : ∀ msg toId, HasEntry s.store msg toId → HasEntry store msg toId) :
    Inv { s with store := store } :=
  ⟨hinv.acked, hinv.member,
    fun a ha toId hto => (hinv.served a ha toId hto).imp_left (hkeep a.msg toId)⟩

theorem mem_acked {key new : GrpMsgKey} {acked : List GrpMsgKey} {answered : Prop}
    [Decidable answered] (h : key ∈ if answered then new :: acked else acked) :
    key = new ∨ key ∈ acked := by
  split at h
  · exact List.mem_cons.mp h
  · exact .inr h

theorem Inv.chat {s : GrpChatState} (hinv : s.Inv) {env : GrpEnv} {msg : MESGrpChat}
    (hgood : s.good (.chat env msg)) : (s.chat env msg).Inv := by
  obtain ⟨hack, htask⟩ | ⟨htask, hcheck, hwritten, hnow, hstored⟩ | ⟨members, hmem, hid, htask⟩ :=
    onGrpMsgChat_cases env s.grpStore msg
  · simp only [GrpChatState.chat, htask, if_neg hack]
    exact ⟨hinv.acked, hinv.member, hinv.served⟩
  · simp only [GrpChatState.chat, htask]
    refine ⟨?_, hinv.member, hinv.served⟩
    intro key hkey
    obtain rfl | hkey := mem_acked hkey
    · exact hgood hcheck hwritten hnow hstored
    · exact hinv.acked key hkey
  · simp only [GrpChatState.chat, htask]
    refine ⟨?_, ?_, ?_⟩
    · intro key hkey
      obtain rfl | hkey := mem_acked hkey
      · exact ⟨_, List.mem_cons_self, rfl⟩
      · obtain ⟨a, ha, heq⟩ := hinv.acked key hkey
        exact ⟨a, List.mem_cons_of_mem _ ha, heq⟩
    · rintro a (_ | ⟨_, ha⟩)
      · exact ⟨hmem, hid⟩
      · exact hinv.member a ha
    · rintro a (_ | ⟨_, ha⟩) toId hto
      · exact .inr ⟨_, List.mem_append_right _ List.mem_cons_self, rfl, .inl hto⟩
      · refine (hinv.served a ha toId hto).imp_right ?_
        rintro ⟨task, htask, hserves⟩
        exact ⟨task, List.mem_append_left _ htask, hserves⟩

theorem Inv.send {s : GrpChatState} (hinv : s.Inv) {i : Nat} {task : SendTask} {isLogin : Bool}
    (htask : s.tasks[i]? = some task) (hgood : s.good (.send i isLogin)) :
    (s.send i task isLogin).Inv := by
  obtain ⟨msg, toIds, offlineMsgs⟩ := task
  cases toIds with
  | nil =>
    refine ⟨hinv.acked, hinv.member, ?_⟩
    intro a ha toId hto
    obtain hentry | ⟨task, hmem, hmsg, hserves⟩ := hinv.served a ha toId hto
    · exact .inl (hentry.sendRest offlineMsgs)
    · obtain ⟨j, hj⟩ := List.mem_iff_getElem?.mp hmem
      by_cases hij : j = i
      · obtain rfl : _ = task := Option.some.inj (htask.symm.trans (hij ▸ hj))
        refine .inl (.of_sendRest (hserves.resolve_left List.not_mem_nil) s.store)
      · refine .inr ⟨task, ?_, hmsg, hserves⟩
        exact List.mem_eraseIdx_iff_getElem?.mpr ⟨j, hij, hj⟩
  | cons toId₀ toIds =>
    have hfound : isLogin = false → ∀ doc ∈ s.store.find? (OfflineMsg.ofGrpChat msg toId₀).keyDoc,
        doc.fromId = msg.grpId := by
      rintro rfl
      exact hgood _ htask toId₀ rfl
    refine ⟨hinv.acked, hinv.member, ?_⟩
    intro a ha toId hto
    obtain hentry | ⟨task, hmem, hmsg, hserves⟩ := hinv.served a ha toId hto
    · exact .inl (hentry.sendGroupMember hfound)
    · obtain ⟨j, hj⟩ := List.mem_iff_getElem?.mp hmem
      by_cases hij : j = i
      · obtain rfl : _ = task := Option.some.inj (htask.symm.trans (hij ▸ hj))
        obtain rfl : msg = a.msg := hmsg
        have hi : i < s.tasks.length := (List.getElem?_eq_some_iff.mp htask).1
        have hnew : ⟨a.msg, toIds, (sendGroupMember isLogin a.msg (offlineMsgs, s.store) toId₀).1⟩ ∈
            (s.send i ⟨a.msg, toId₀ :: toIds, offlineMsgs⟩ isLogin).tasks := List.mem_set hi _
        by_cases hrest : toId ∈ toIds
        · exact .inr ⟨_, hnew, rfl, .inl hrest⟩
        · have hnow : toId = toId₀ ∨ OfflineMsg.ofGrpChat a.msg toId ∈ offlineMsgs :=
            hserves.imp_left fun h => (List.mem_cons.mp h).resolve_right hrest
          refine (sendGroupMember_serves isLogin (hinv.member a ha).2 hnow).imp_right ?_
          exact fun hkept => ⟨_, hnew, rfl, .inr hkept⟩
      · refine .inr ⟨task, ?_, hmsg, hserves⟩
        refine List.mem_iff_getElem?.mpr ⟨j, ?_⟩
        exact (List.getElem?_set_ne (Ne.symm hij)).trans hj

theorem Inv.step {s s' : GrpChatState} {e : GrpChatEvent} (hinv : s.Inv) (hgood : s.good e)
    (hstep : s.step e = some s') : s'.Inv := by
  cases e with
  | chat env msg =>
    obtain rfl := Option.some.inj hstep
    exact hinv.chat hgood
  | send i isLogin =>
    obtain ⟨task, htask, rfl⟩ := Option.map_eq_some_iff.mp hstep
    exact hinv.send htask hgood
  | deliverAck msg =>
    obtain rfl := Option.some.inj hstep
    exact hinv.of_store fun _ _ h => h.updateMany _
  | cancel memberInfo msg =>
    obtain rfl := Option.some.inj hstep
    exact hinv.of_store fun _ _ h => h.onGrpMsgChatCancel memberInfo msg
  | cancelDeliverAck userId msgId =>
    obtain rfl := Option.some.inj hstep
    exact hinv.of_store fun _ _ h => h.updateMany _
  | other e =>
    obtain ⟨hop, hstate⟩ := Option.ite_none_right_eq_some.mp hstep
    obtain rfl := Option.some.inj hstate
    exact hinv.of_store fun _ _ h => h.apply hop

end GrpChatState

/-- Whatever chats are sent again, and whatever inserts and fetches fail, a group chat that is
answered without an error was accepted from a member, and its tasks leave an entry for every
other member. -/
theorem grp_acks_sound {store : Store} {s : GrpChatState}
    (h : Run.Reaches GrpChatState.step GrpChatState.good { store := store } s) : s.AckSound := by
  refine GrpChatState.Inv.ackSound (Run.Reaches.invariant GrpChatState.Inv ?_ ?_ h)
  · exact ⟨fun _ h => absurd h List.not_mem_nil, fun _ h => absurd h List.not_mem_nil,
      fun _ h => absurd h List.not_mem_nil⟩
  · intro s e s' hinv hgood hstep
    exact hinv.step hgood hstep

def exampleChat : MESGrpChat := ⟨"ann", "group00000000000000a1", "1", "hi", 0⟩

/-- A chat whose insert fails, its repetition, which is accepted, one more repetition, and the
task for two members, one of them online. -/
def acceptedRun : List GrpChatEvent :=
  [.chat { written := false } exampleChat,
    .chat { memberInfo := some ["ann", "bob", "carl"] } exampleChat,
    .send 0 true, .chat {} exampleChat, .send 0 false, .send 0 false]

theorem grp_acks_sound_repeated :
    ∃ s, Run.run GrpChatState.step { store := [] } acceptedRun = some s ∧
      s.acked = [exampleChat.key, exampleChat.key] ∧ s.tasks = [] ∧ s.AckSound := by
  have hrun : (Run.runGood GrpChatState.step GrpChatState.good { store := [] } acceptedRun).map
      (fun s => (s.acked, s.tasks)) = some ([exampleChat.key, exampleChat.key], []) := by
    decide +kernel
  obtain ⟨s, hgood, heq⟩ := Option.map_eq_some_iff.mp hrun
  obtain ⟨hacked, htasks⟩ := Prod.mk.inj heq
  exact ⟨s, Run.run_of_runGood hgood, hacked, htasks, grp_acks_sound (Run.reaches_of_runGood hgood)⟩

/-- A stranger is refused, and answered without an error when he repeats his chat. -/
def refusedRun : List GrpChatEvent :=
  [.chat { memberInfo := some ["bob", "carl"] } exampleChat,
    .chat { memberInfo := some ["bob", "carl"] } exampleChat]

theorem grp_acks_unsound_refused :
    ∃ s, Run.run GrpChatState.step { store := [] } refusedRun = some s ∧
      s.acked = [exampleChat.key] ∧ s.accepted = [] ∧ s.tasks = [] ∧ s.store = [] ∧ ¬ s.AckSound := by
  have hrun : (Run.run GrpChatState.step { store := [] } refusedRun).map
      (fun s => (s.acked, s.accepted, s.tasks, s.store)) = some ([exampleChat.key], [], [], []) := by
    decide +kernel
  obtain ⟨s, hrun, heq⟩ := Option.map_eq_some_iff.mp hrun
  simp only [Prod.mk.injEq] at heq
  obtain ⟨hacked, haccepted, htasks, hstore⟩ := heq
  refine ⟨s, hrun, hacked, haccepted, htasks, hstore, ?_⟩
  intro hsound
  obtain ⟨a, ha, -⟩ := hsound exampleChat.key (hacked ▸ List.mem_singleton_self _)
  rw [haccepted] at ha
  cases ha

end Msg

end ImServer
