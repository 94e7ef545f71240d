import ImServer.Lib.Multimap

/-!
# The store of offline messages

Messages that a user has not acknowledged yet are documents of a mongo collection
(msg/mod_mongodb/offlineMsg.cpp, offlineMsgMgr.cpp, database/mongoDbColl.cpp), and the tasks
of the message server insert, replace and delete them (msg/msghandle.cpp,
msg/offLineMsgHandle.cpp). A document is not removed: deleting counts up its field `bPulled`,
and pulling skips the documents that have it.

Operations of mongo are atomic. An insert of one document may fail, the other operations
succeed. What goes out to users is left out, but for the notifications of a delivered request.
-/

namespace ImServer

namespace Msg

def mesChatDeliver : UInt32 := 0xb004

def mesChatDeliveredNotification : UInt32 := 0xb006

def mesGrpchatDeliver : UInt32 := 0xb074

def mesChatcancelDeliver : UInt32 := 0xb082

structure MESChat where
  fromId : String
  toId : String
  msgId : String
  content : String
  deriving DecidableEq, Repr

structure MESChatCancel where
  fromId : String
  toId : String
  msgId : String
  msgTime : Nat := 0
  sendState : Nat := 0
  deriving DecidableEq, Repr

structure MESChatDeliveredAck where
  fromId : String
  toId : String
  msgId : String
  deriving DecidableEq, Repr

structure OfflineDeliveredMsg where
  cmdId : UInt32
  fromId : String
  toId : String
  msgId : String
  deriving DecidableEq, Repr

structure MESOfflineMsgDelivered where
  fromId : String
  toId : String := ""
  msgId : String
  lsMsgs : List OfflineDeliveredMsg
  deriving DecidableEq, Repr

structure MESOfflineMsg where
  fromId : String := ""
  toId : String
  msgId : String
  lsMsgs : List OfflineDeliveredMsg := []
  deriving DecidableEq, Repr

structure MESOfflineMsgDeliveredNotifyAck where
  fromId : String
  msgId : String
  lsMsgs : List OfflineDeliveredMsg
  deriving DecidableEq, Repr

inductive ErrCode where
  | nonErr
  | exceptErr
  | errChatUnhealthy
  | errChatForbidden
  | errChatFriendBlock
  | errChatFriendDel
  | errGroupNetworkexception
  deriving DecidableEq, Repr

/-- A serialised message. -/
inductive MsgData where
  | chat (msg : MESChat)
  | cancel (msg : MESChatCancel)
  | deliveredAck (msg : MESChatDeliveredAck)
  | other (text : String)
  deriving DecidableEq, Repr

/-- A document; one that was not deleted has no field `bPulled`, which is 0 here. -/
structure OfflineMsg where
  msgId : String
  fromId : String
  toId : String
  cmdId : UInt32
  msgData : MsgData
  createTime : Nat
  isChatDeliver : Bool := false
  bPulled : Nat := 0
  deriving DecidableEq, Repr

abbrev Store := List OfflineMsg

namespace OfflineMsg

def ofChat (now : Nat) (msg : MESChat) : OfflineMsg where
  msgId := msg.msgId
  fromId := msg.fromId
  toId := msg.toId
  cmdId := mesChatDeliver
  msgData := .chat msg
  createTime := now
  isChatDeliver := true

def ofCancel (msg : MESChatCancel) : OfflineMsg where
  msgId := msg.msgId
  fromId := msg.fromId
  toId := msg.toId
  cmdId := mesChatcancelDeliver
  msgData := .cancel msg
  createTime := msg.msgTime

def ofDeliveredAck (now : Nat) (msg : MESChatDeliveredAck) : OfflineMsg where
  msgId := msg.msgId
  fromId := msg.fromId
  toId := msg.toId
  cmdId := mesChatDeliveredNotification
  msgData := .deliveredAck msg
  createTime := now

def isValid (doc : OfflineMsg) : Bool := doc.cmdId ≠ 0 && doc.msgId ≠ ""

end OfflineMsg

/-- `COfflineMsgKeys`; an empty message id and the command 0 are left out of the filter. -/
def offlineMsgKeys (toId : String) (cmdId : UInt32) (msgId : String) (doc : OfflineMsg) : Bool :=
  doc.toId = toId && (msgId = "" || doc.msgId = msgId) && (cmdId = 0 || doc.cmdId = cmdId)

/-- `COfflineMsgDelSpecificUserManyMsgKeys`. -/
def manyMsgKeys (toId : String) (cmdId : UInt32) (msgIds : List String) (doc : OfflineMsg) : Bool :=
  doc.toId = toId && (cmdId = 0 || doc.cmdId = cmdId) && msgIds.contains doc.msgId

def OfflineMsg.keyDoc (doc : OfflineMsg) : OfflineMsg → Bool :=
  offlineMsgKeys doc.toId doc.cmdId doc.msgId

/-- Counting up `bPulled` of the documents that a filter finds. -/
def updateMany (filter : OfflineMsg → Bool) (store : Store) : Store :=
  store.map fun doc => if filter doc then { doc with bPulled := doc.bPulled + 1 } else doc

/-- `replace_one` with `upsert`. -/
def replaceOne (filter : OfflineMsg → Bool) (doc : OfflineMsg) : Store → Store
  | [] => [doc]
  | first :: rest => if filter first then doc :: rest else first :: replaceOne filter doc rest

def insertMany (docs : List OfflineMsg) (store : Store) : Store := store ++ docs

def delOfflineMsg (toId : String) (cmdId : UInt32) (msgId : String) (store : Store) : Store :=
  updateMany (offlineMsgKeys toId cmdId msgId) store

def delOfflineMsgs (toId : String) (cmdId : UInt32) (msgIds : List String) (store : Store) : Store :=
  updateMany (manyMsgKeys toId cmdId msgIds) store

/-- Whether the message is no longer waiting. -/
def getOfflineMsgPullStatus (toId : String) (cmdId : UInt32) (msgId : String) (store : Store) : Bool :=
  !store.any fun doc =>
    doc.toId = toId && doc.cmdId = cmdId && doc.msgId = msgId && doc.bPulled = 0

inductive FriendStatus where
  | isNormal
  | isBlack
  | isDel
  | noRela
  | isStranger
  deriving DecidableEq, Repr

structure Env where
  now : Nat := 0
  /-- The two states of the friendship, if they could be got. -/
  friend : Option (FriendStatus × FriendStatus) := some (.isNormal, .isNormal)
  /-- Whether mongo takes the one document that is written. -/
  written : Bool := true
  isLogin : String → Bool := fun _ => false

def friendErr : Option (FriendStatus × FriendStatus) → ErrCode
  | none => .errGroupNetworkexception
  | some (friend, user) =>
    if friend = .noRela ∨ user = .noRela then .errChatForbidden
    else if friend = .isBlack ∨ user = .isBlack then .errChatFriendBlock
    else if friend = .isDel ∨ user = .isDel then .errChatFriendDel
    else .nonErr

/-- `InsertOne`, which replaces a document with the same key. -/
def insertOfflineMsg (env : Env) (doc : OfflineMsg) (store : Store) : Option Store :=
  if doc.isValid && env.written then some (replaceOne doc.keyDoc doc store) else none

/-- `HandleMsgChatTask`: the code of the acknowledgement, and the store. -/
def handleMsgChatTask (env : Env) (store : Store) (msg : MESChat) : ErrCode × Store :=
  if msg.content = "" then (.errChatUnhealthy, store)
  else
    let err := friendErr env.friend
    if err ≠ .nonErr then (err, store)
    else
      match insertOfflineMsg env (.ofChat env.now msg) store with
      | some store => (.nonErr, store)
      | none => (.exceptErr, store)

/-- A chat without sender, receiver or id is not answered. -/
def onMsgChat (env : Env) (store : Store) (msg : MESChat) : Option ErrCode × Store :=
  if msg.fromId = "" ∨ msg.toId = "" ∨ msg.msgId = "" then (none, store)
  else
    let (err, store) := handleMsgChatTask env store msg
    (some err, store)

def handleMsgChatCancelTask (env : Env) (store : Store) (msg : MESChatCancel) : ErrCode × Store :=
  let err := friendErr env.friend
  if err ≠ .nonErr then (err, store)
  else
    let pulled := getOfflineMsgPullStatus msg.toId mesChatDeliver msg.msgId store
    let msg := { msg with sendState := if pulled then 1 else 0 }
    if env.written then
      (.nonErr,
        replaceOne (offlineMsgKeys msg.toId mesChatDeliver msg.msgId) (.ofCancel msg) store)
    else (.exceptErr, store)

def onMsgChatCancel (env : Env) (store : Store) (msg : MESChatCancel) : Option ErrCode × Store :=
  if msg.fromId = "" ∨ msg.toId = "" ∨ msg.msgId = "" then (none, store)
  else
    let (err, store) := handleMsgChatCancelTask env store msg
    (some err, store)

def handleMsgChatDeliverAckTask (env : Env) (store : Store) (msg : MESChatDeliveredAck) : Store :=
  match insertOfflineMsg env (.ofDeliveredAck env.now msg) store with
  | some store => delOfflineMsg msg.fromId mesChatDeliver msg.msgId store
  | none => store

def onMsgChatDeliverAck (env : Env) (store : Store) (msg : MESChatDeliveredAck) : Store :=
  if msg.fromId = "" ∨ msg.toId = "" ∨ msg.msgId = "" then store
  else handleMsgChatDeliverAckTask env store msg

structure DeleteKey where
  toId : String
  cmdId : UInt32
  deriving DecidableEq, Repr

def DeleteKey.lt (a b : DeleteKey) : Bool :=
  a.toId < b.toId || (a.toId = b.toId && a.cmdId < b.cmdId)

/-- The notification that a chat has been delivered, to its sender. -/
def notifyOf (item : OfflineDeliveredMsg) : MESChatDeliveredAck where
  fromId := item.toId
  toId := item.fromId
  msgId := item.msgId

def isChat (item : OfflineDeliveredMsg) : Bool := item.cmdId = mesChatDeliver

/-- The messages of other kinds are deleted, those with the same receiver and command together. -/
def deleteOthers (store : Store) (items : List OfflineDeliveredMsg) : Store :=
  let others := items.filter (!isChat ·)
  let map := Multimap.groups DeleteKey.lt
    (others.map fun item => ((⟨item.toId, item.cmdId⟩ : DeleteKey), item.msgId))
  map.foldl (fun store group => delOfflineMsgs group.1.toId group.1.cmdId group.2 store) store

/-- What is done for the chats of one sender: the notifications are inserted, the chats of the
user are deleted, and the sender is told if he is online. -/
def deliverChats (env : Env) (user msgId : String)
    (res : Store × List MESOfflineMsgDelivered) (group : String × List OfflineDeliveredMsg) :
    Store × List MESOfflineMsgDelivered :=
  let docs := group.2.map fun item => OfflineMsg.ofDeliveredAck env.now (notifyOf item)
  let msgIds := group.2.map (·.msgId)
  let store :=
    if 0 < docs.length then delOfflineMsgs user mesChatDeliver msgIds (insertMany docs res.1)
    else res.1
  let notify : MESOfflineMsgDelivered :=
    { fromId := user, toId := group.1, msgId := msgId
      lsMsgs := group.2.map ({ · with cmdId := mesChatDeliveredNotification }) }
  (store, if env.isLogin group.1 then res.2 ++ [notify] else res.2)

/-- The code that both overloads of `HandleOfflineMsgDelivered` have: the store, and the
notifications that are sent. -/
def deliverItems (env : Env) (store : Store) (user msgId : String)
    (items : List OfflineDeliveredMsg) : Store × List MESOfflineMsgDelivered :=
  let store := deleteOthers store items
  let map := Multimap.groups (fun a b : String => decide (a < b))
    ((items.filter isChat).map fun item => (item.fromId, item))
  map.foldl (deliverChats env user msgId) (store, [])

/-- `MESOfflineMsgDelivereddAck`. -/
structure DeliveredAck where
  msgId : String
  userId : String
  deriving DecidableEq, Repr

structure DeliveredResult where
  store : Store
  notifies : List MESOfflineMsgDelivered
  ack : Option DeliveredAck

/-- `HandleOfflineMsgDelivered` of a delivered request, item by item. Each item may leave a
notification for its sender. -/
def handleOfflineMsgDelivered (env : Env) (store : Store) (msg : MESOfflineMsgDelivered) :
    DeliveredResult :=
  let (store, notifies) := deliverItems env store msg.fromId msg.msgId msg.lsMsgs
  ⟨store, notifies, some ⟨msg.msgId, msg.fromId⟩⟩

/-- `HandleOfflineMsgDelivered` of a request that pulls messages. -/
def handlePulledDelivered (env : Env) (store : Store) (msg : MESOfflineMsg) : DeliveredResult :=
  let (store, notifies) := deliverItems env store msg.toId msg.msgId msg.lsMsgs
  ⟨store, notifies, none⟩

def onOfflineMsgDelivered (env : Env) (store : Store) (msg : MESOfflineMsgDelivered) : Store :=
  if msg.fromId = "" then store else (handleOfflineMsgDelivered env store msg).store

/-- `HandleGetOfflineMsg`: the group chats that have no content any more are deleted. -/
def handleGetOfflineMsg (env : Env) (store : Store) (msg : MESOfflineMsg) (dirty : List String) :
    Store :=
  let store := if 0 < msg.lsMsgs.length then (handlePulledDelivered env store msg).store else store
  dirty.foldl (fun store msgId => delOfflineMsg msg.toId mesGrpchatDeliver msgId store) store

def onGetOfflineMsg (env : Env) (store : Store) (msg : MESOfflineMsg) (dirty : List String) : Store :=
  if msg.toId = "" ∨ msg.msgId = "" then store else handleGetOfflineMsg env store msg dirty

def handleOfflineMsgDeliveredNotifyAckTask (store : Store) (msg : MESOfflineMsgDeliveredNotifyAck) :
    Store :=
  -- The keys of this map are signed.
  let map := Multimap.groups (fun a b : UInt32 => decide (a.toInt32 < b.toInt32))
    (msg.lsMsgs.map fun item => (item.cmdId, item.msgId))
  map.foldl (fun store group => delOfflineMsgs msg.fromId group.1 group.2 store) store

end Msg

end ImServer
