import Mathlib.Data.List.Perm.Basic
import ImServer.Msg.Acknowledgement

/-!
# Notifications about relations

The servers behind the message server tell it of changes to groups and friends
(msg/notify_handle.cpp). Who is notified of a change to a group is listed in the message, or looked
up by HTTP. A user who is logged in is sent a message, and for each one a document is stored: one by
one in queued tasks, or for a common notification by one `insert_many`, which may fail after any
number of documents.

Every notification that can be parsed is answered. The pushes to devices are left out. What a user
acknowledges in between is not considered.
-/

namespace ImServer

namespace Msg

def mesAddfriendDeliver : UInt32 := 0xb034

def mesAddfriendAnsDeliver : UInt32 := 0xb038

def mesJoingrpDeliver : UInt32 := 0xb054

def mesGrpnotifyDeliver : UInt32 := 0xb068

def msCommonnotifyDeliver : UInt32 := 0xb0c4

def notifyTypeGrpmemRemove : Int32 := 3

def grprelationTypeMasterAnsApply : Int32 := 8

def grprelationTypeMasterAnsInvite : Int32 := 9

def friendNotifyTypeAdd : Int32 := 1

def friendNotifyTypeAns : Int32 := 2

structure SVRMSGGroupRelationNotify where
  grpId : String
  msgId : String
  /-- Who is notified. -/
  toIds : List String := []
  msgTime : UInt64 := 0
  oprUserId : String := ""
  mnpledUserId : List String := []
  content : String := ""
  notifyType : Int32
  operId : String := ""
  extend : String := ""

structure SVRMSGFriendRelationNotify where
  fromId : String
  toId : String
  msgId : String
  memoName : String := ""
  notifyType : Int32
  selfIntroduce : String := ""
  msgTime : UInt64 := 0
  operId : String := ""
  extend : String := ""

structure SVRMSGCommonMsgNotify where
  fromId : String
  toIds : List String
  msgId : String
  notifyType : Int32 := 0
  content : String := ""
  msgTime : UInt64 := 0
  extend : String := ""

structure SVRMSGNotifyACK where
  msgId : String
  msgTime : Nat
  errcode : ErrCode

structure MESJoinGrp where
  fromId : String
  toId : String := ""
  grpId : String
  msgId : String
  reqType : UInt32 := 0
  msgTime : UInt64
  operId : String
  extend : String

structure MESGrpNotify where
  grpId : String
  toId : String := ""
  msgId : String
  msgTime : UInt64
  oprUserId : String
  mnpledUserId : List String
  content : String
  notifyType : Int32
  errcode : ErrCode
  extend : String

structure MESAddFriend where
  fromId : String
  toId : String
  msgId : String
  desc : String := ""
  memoName : String
  packetId : UInt32 := 0
  selfIntroduce : String
  msgTime : Nat
  operId : String
  extend : String

structure MESAddFriendAns where
  fromId : String
  toId : String
  msgId : String
  ans : String
  memoName : String
  msgTime : Nat
  extend : String

structure MSGCommonNotify where
  fromId : String
  toIds : List String := []
  msgId : String
  notifyType : Int32
  content : String
  msgTime : UInt64
  toId : String := ""

/-- What a user is sent, by the kind of the notification. -/
inductive NotifyMsg where
  | joinGrp (msg : MESJoinGrp)
  | grpNotify (msg : MESGrpNotify)
  | addFriend (msg : MESAddFriend)
  | addFriendAns (msg : MESAddFriendAns)
  | commonNotify (msg : MSGCommonNotify)

def NotifyMsg.entry : NotifyMsg → EntryKey
  | joinGrp msg => ⟨msg.toId, mesJoingrpDeliver, msg.msgId⟩
  | grpNotify msg => ⟨msg.toId, mesGrpnotifyDeliver, msg.msgId⟩
  | addFriend msg => ⟨msg.toId, mesAddfriendDeliver, msg.msgId⟩
  | addFriendAns msg => ⟨msg.toId, mesAddfriendAnsDeliver, msg.msgId⟩
  | commonNotify msg => ⟨msg.toId, msCommonnotifyDeliver, msg.msgId⟩

/-- The constructors of `COfflineMsg`. -/
def OfflineMsg.ofDeliver (codec : NotifyMsg → String) (now : Nat) (msg : NotifyMsg) : OfflineMsg where
  msgId := msg.entry.msgId
  fromId :=
    match msg with
    | .joinGrp msg => msg.grpId
    | .grpNotify msg => msg.grpId
    | .addFriend msg => msg.fromId
    | .addFriendAns msg => msg.fromId
    | .commonNotify msg => msg.fromId
  toId := msg.entry.toId
  cmdId := msg.entry.cmdId
  msgData := .other (codec msg)
  createTime :=
    match msg with
    | .grpNotify msg => msg.msgTime.toNat
    | .joinGrp _ | .addFriend _ | .addFriendAns _ | .commonNotify _ => now

structure NotifyEnv where
  now : Nat := 0
  /-- The master of the group. -/
  masterId : String := ""
  /-- The members of the group. -/
  members : List String := []
  /-- Whether the look-up by HTTP succeeds. -/
  found : Bool := true
  /-- Whether the user of each look-up of logins is logged in. -/
  isLogin : Nat → Bool := fun _ => false
  /-- Whether mongo takes the document of each task. -/
  taken : Nat → Bool := fun _ => true
  /-- After how many documents an `insert_many` fails, if it does. -/
  failsAfter : Option Nat := none

def NotifyEnv.getGroupInfo (env : NotifyEnv) : Option String :=
  if env.found then some env.masterId else none

def NotifyEnv.getGroupMemberInfoList (env : NotifyEnv) : Option (List String) :=
  if env.found then some env.members else none

structure Fanout where
  sent : List NotifyMsg := []
  /-- The documents that are inserted by tasks. -/
  tasks : List OfflineMsg := []
  /-- The documents that an `insert_many` has written. -/
  written : List OfflineMsg := []

section Handlers

variable (codec : NotifyMsg → String) (env : NotifyEnv)

/-- The lambdas `sendMsg`. -/
def sendMsg (deliver : String → NotifyMsg) (res : Fanout) (toId : String) : Fanout where
  sent := if env.isLogin res.tasks.length then res.sent ++ [deliver toId] else res.sent
  tasks := res.tasks ++ [.ofDeliver codec env.now (deliver toId)]
  written := res.written

def joinGroup (msg : SVRMSGGroupRelationNotify) (reqType : UInt32) (toId : String) : NotifyMsg :=
  .joinGrp
    { fromId := msg.oprUserId, toId, grpId := msg.grpId, msgId := msg.msgId, reqType
      msgTime := msg.msgTime, operId := msg.operId, extend := msg.extend }

def onJoinGrp (msg : SVRMSGGroupRelationNotify) : Fanout :=
  if msg.notifyType = grprelationTypeMasterAnsApply then
    match env.getGroupInfo with
    | none => {}
    | some masterId => sendMsg codec env (joinGroup msg 0) {} masterId
  else if msg.notifyType = grprelationTypeMasterAnsInvite then
    msg.mnpledUserId.foldl (sendMsg codec env (joinGroup msg 1)) {}
  else {}

def grpNotifyDeliver (msg : SVRMSGGroupRelationNotify) (toId : String) : NotifyMsg :=
  .grpNotify
    { grpId := msg.grpId, toId, msgId := msg.msgId, msgTime := msg.msgTime, oprUserId := msg.oprUserId
      mnpledUserId := msg.mnpledUserId, content := msg.content, notifyType := msg.notifyType
      errcode := .nonErr, extend := msg.extend }

def handleMsgGrpNotifyTask (msg : SVRMSGGroupRelationNotify) : Fanout :=
  let send := sendMsg codec env (grpNotifyDeliver msg)
  if msg.toIds.length = 0 then
    match env.getGroupMemberInfoList with
    | none => {}
    | some members =>
      let res := members.foldl send {}
      if msg.notifyType = notifyTypeGrpmemRemove then msg.mnpledUserId.foldl send res else res
  else
    let res := msg.toIds.foldl send {}
    if msg.notifyType = notifyTypeGrpmemRemove then msg.mnpledUserId.foldl send res else res

def groupRelationNotify (msg : SVRMSGGroupRelationNotify) : Fanout × SVRMSGNotifyACK :=
  let res :=
    if msg.notifyType = grprelationTypeMasterAnsApply ∨
        msg.notifyType = grprelationTypeMasterAnsInvite then
      onJoinGrp codec env msg
    else handleMsgGrpNotifyTask codec env msg
  (res, ⟨msg.msgId, env.now, .nonErr⟩)

def addFriendOf (msg : SVRMSGFriendRelationNotify) : MESAddFriend where
  fromId := msg.fromId
  toId := msg.toId
  msgId := msg.msgId
  memoName := msg.memoName
  selfIntroduce := msg.selfIntroduce
  msgTime := env.now
  operId := msg.operId
  extend := msg.extend

/-- What is stored has another `packetId` than what is sent. -/
def addFriendHandle (msg : SVRMSGFriendRelationNotify) : Fanout where
  sent := if env.isLogin 0 then [.addFriend (addFriendOf env msg)] else []
  tasks :=
    [.ofDeliver codec env.now (.addFriend { addFriendOf env msg with desc := "", packetId := -1 })]

def addFriendAnsOf (msg : SVRMSGFriendRelationNotify) : MESAddFriendAns where
  fromId := msg.fromId
  toId := msg.toId
  msgId := msg.msgId
  ans := msg.selfIntroduce
  memoName := msg.memoName
  msgTime := env.now
  extend := msg.extend

def addFriendAnsHandle (msg : SVRMSGFriendRelationNotify) : Fanout where
  sent := if env.isLogin 0 then [.addFriendAns (addFriendAnsOf env msg)] else []
  tasks := [.ofDeliver codec env.now (.addFriendAns (addFriendAnsOf env msg))]

def friendRelationNotify (msg : SVRMSGFriendRelationNotify) : Fanout × SVRMSGNotifyACK :=
  let res :=
    if msg.notifyType = friendNotifyTypeAdd then addFriendHandle codec env msg
    else if msg.notifyType = friendNotifyTypeAns then addFriendAnsHandle codec env msg
    else {}
  (res, ⟨msg.msgId, env.now, .nonErr⟩)

def commonNotifyDeliver (msg : SVRMSGCommonMsgNotify) (toId : String) : NotifyMsg :=
  .commonNotify
    { fromId := msg.fromId, msgId := msg.msgId, notifyType := msg.notifyType, content := msg.content
      msgTime := msg.msgTime, toId }

/-- `InsertMany`: whether it succeeds, and what it has written. -/
def notifyInsertMany (docs : List OfflineMsg) : Bool × List OfflineMsg :=
  match env.failsAfter with
  | none => (true, docs)
  | some n => (false, docs.take n)

/-- The users that are found to be logged in, when the users of a list are looked up in turn. -/
def loggedIn (ids : List String) : List String := (ids.zipIdx.filter (env.isLogin ·.2)).map Prod.fst

def handleCommonNotifyMsgTask (msg : SVRMSGCommonMsgNotify) : Fanout :=
  let docs := msg.toIds.map fun toId =>
    OfflineMsg.ofDeliver codec env.now (commonNotifyDeliver msg toId)
  match notifyInsertMany env docs with
  | (false, written) => { written }
  | (true, written) => { sent := (loggedIn env msg.toIds).map (commonNotifyDeliver msg), written }

def commonMsgNotify (msg : SVRMSGCommonMsgNotify) : Fanout × SVRMSGNotifyACK :=
  (handleCommonNotifyMsgTask codec env msg, ⟨msg.msgId, env.now, .nonErr⟩)

end Handlers

inductive RelationNotify where
  | group (msg : SVRMSGGroupRelationNotify)
  | friend (msg : SVRMSGFriendRelationNotify)
  | common (msg : SVRMSGCommonMsgNotify)

def RelationNotify.handle (codec : NotifyMsg → String) (env : NotifyEnv) :
    RelationNotify → Fanout × SVRMSGNotifyACK
  | group msg => groupRelationNotify codec env msg
  | friend msg => friendRelationNotify codec env msg
  | common msg => commonMsgNotify codec env msg

/-- The tasks run in some order; each is given with its place in the queue. -/
def runInserts (env : NotifyEnv) (order : List (OfflineMsg × Nat)) (store : Store) : Store :=
  order.foldl (fun store task =>
    (insertOfflineMsg { written := env.taken task.2 } task.1 store).getD store) store

def Fanout.store (env : NotifyEnv) (res : Fanout) (order : List (OfflineMsg × Nat)) (store : Store) :
    Store :=
  runInserts env order (insertMany res.written store)

/-- A message waits for the user it is for. -/
def Noticed (codec : NotifyMsg → String) (store : Store) (msg : NotifyMsg) : Prop :=
  ∃ doc ∈ store, doc.entry = msg.entry ∧ doc.msgData = .other (codec msg) ∧ doc.bPulled = 0

namespace RelationNotify

/-- Who is to be notified: the users that are listed, or else the master for an application to join,
the invited users for an invitation, and the members for other notifications about a group. A removal
is also for the users that are removed. -/
def intended (env : NotifyEnv) : RelationNotify → List String
  | group msg =>
    (if msg.toIds ≠ [] then msg.toIds
      else if msg.notifyType = grprelationTypeMasterAnsApply then [env.masterId]
      else if msg.notifyType = grprelationTypeMasterAnsInvite then msg.mnpledUserId
      else env.members) ++
    if msg.notifyType = notifyTypeGrpmemRemove then msg.mnpledUserId else []
  | friend msg => [msg.toId]
  | common msg => msg.toIds

/-- What is stored for a user. The type of a notification about a friend may be unknown. -/
def deliver (env : NotifyEnv) : RelationNotify → Option (String → NotifyMsg)
  | group msg =>
    some <|
      if msg.notifyType = grprelationTypeMasterAnsApply then joinGroup msg 0
      else if msg.notifyType = grprelationTypeMasterAnsInvite then joinGroup msg 1
      else grpNotifyDeliver msg
  | friend msg =>
    if msg.notifyType = friendNotifyTypeAdd then
      some fun toId => .addFriend { addFriendOf env msg with toId, packetId := -1 }
    else if msg.notifyType = friendNotifyTypeAns then
      some fun toId => .addFriendAns { addFriendAnsOf env msg with toId }
    else none
  | common msg => some (commonNotifyDeliver msg)

/-- Everyone who is to be notified is, if the answer says so, and nobody is sent two messages. -/
structure Sound (codec : NotifyMsg → String) (env : NotifyEnv) (store : Store)
    (order : List (OfflineMsg × Nat)) (notify : RelationNotify) : Prop where
  noticed : (notify.handle codec env).2.errcode = .nonErr → ∀ toId ∈ notify.intended env,
    ∃ deliver ∈ notify.deliver env,
      Noticed codec ((notify.handle codec env).1.store env order store) (deliver toId)
  once : ∀ toId, ((notify.handle codec env).1.sent.filter (·.entry.toId = toId)).length ≤ 1

/-- Whom the server turns to, one after another. -/
def addressed (env : NotifyEnv) : RelationNotify → List String
  | group msg =>
    if msg.notifyType = grprelationTypeMasterAnsApply then if env.found then [env.masterId] else []
    else if msg.notifyType = grprelationTypeMasterAnsInvite then msg.mnpledUserId
    else if msg.toIds = [] ∧ env.found = false then []
    else
      (if msg.toIds = [] then env.members else msg.toIds) ++
        if msg.notifyType = notifyTypeGrpmemRemove then msg.mnpledUserId else []
  | friend msg =>
    if msg.notifyType = friendNotifyTypeAdd ∨ msg.notifyType = friendNotifyTypeAns then [msg.toId]
    else []
  | common msg => msg.toIds

/-- Whether the document of the user at this place is written. -/
def Taken (env : NotifyEnv) (i : Nat) : RelationNotify → Prop
  | group msg => msg.msgId ≠ "" ∧ env.taken i = true
  | friend msg => msg.msgId ≠ "" ∧ env.taken i = true
  | common _ => ∀ n ∈ env.failsAfter, i < n

/-- Whether users are sent anything: not after an `insert_many` that fails. -/
def Sends (env : NotifyEnv) : RelationNotify → Prop
  | group _ | friend _ => True
  | common _ => env.failsAfter = none

/-- Everyone who is to be notified has the message already, or the server turns to him and his
document is written; and it does not turn to him twice while he is logged in. -/
structure Reached (codec : NotifyMsg → String) (env : NotifyEnv) (store : Store)
    (notify : RelationNotify) : Prop where
  noticed : ∀ toId ∈ notify.intended env, ∃ deliver ∈ notify.deliver env,
    Noticed codec store (deliver toId) ∨
      ∃ i, (notify.addressed env)[i]? = some toId ∧ notify.Taken env i
  once : notify.Sends env → ∀ i j toId, i < j → (notify.addressed env)[i]? = some toId →
    (notify.addressed env)[j]? = some toId → ¬ (env.isLogin i = true ∧ env.isLogin j = true)

end RelationNotify

theorem keyDoc_iff_entry {doc stored : OfflineMsg} (h : doc.isValid = true) :
    doc.keyDoc stored = true ↔ stored.entry = doc.entry := by
  obtain ⟨hcmd, hid⟩ := isValid_eq_true.mp h
  rw [keyDoc_eq_true, or_iff_right hid, or_iff_right hcmd]
  constructor
  · rintro ⟨hto, hmsgId, hcmdId⟩
    exact EntryKey.ext hto hcmdId hmsgId
  · intro hentry
    exact ⟨congrArg EntryKey.toId hentry, congrArg EntryKey.msgId hentry,
      congrArg EntryKey.cmdId hentry⟩

section Noticed

variable {codec : NotifyMsg → String} {env : NotifyEnv} {store : Store} {msg : NotifyMsg}

/-- A document that is taken for the message, if it has its entry. -/
structure Carries (codec : NotifyMsg → String) (msg : NotifyMsg) (doc : OfflineMsg) : Prop where
  fresh : doc.bPulled = 0
  msgData : doc.entry = msg.entry → doc.msgData = .other (codec msg)

theorem noticed_replaceOne {doc : OfflineMsg} (hdoc : Carries codec msg doc)
    (hvalid : doc.isValid = true) :
    Noticed codec (replaceOne doc.keyDoc doc store) msg ↔
      Noticed codec store msg ∨ doc.entry = msg.entry := by
  constructor
  · rintro ⟨stored, hstored, hentry, hdata, hpulled⟩
    obtain rfl | hstored := mem_of_mem_replaceOne hstored
    · exact .inr hentry
    · exact .inl ⟨stored, hstored, hentry, hdata, hpulled⟩
  · intro h
    by_cases hsame : doc.entry = msg.entry
    · exact ⟨doc, new_mem_replaceOne _ _ _, hsame, hdoc.msgData hsame, hdoc.fresh⟩
    · obtain ⟨stored, hstored, hentry, hdata, hpulled⟩ := h.resolve_right hsame
      have hother : doc.keyDoc stored = false := by
        refine Bool.eq_false_iff.mpr fun hfound => hsame ?_
        exact ((keyDoc_iff_entry hvalid).mp hfound).symm.trans hentry
      exact ⟨stored, mem_replaceOne hstored hother, hentry, hdata, hpulled⟩

theorem noticed_insert {doc : OfflineMsg} {taken : Bool} (hdoc : Carries codec msg doc) :
    Noticed codec ((insertOfflineMsg { written := taken } doc store).getD store) msg ↔
      Noticed codec store msg ∨ doc.entry = msg.entry ∧ doc.isValid = true ∧ taken = true := by
  rw [insertOfflineMsg]
  split
  · next hinsert =>
    obtain ⟨hvalid, htaken⟩ := Bool.and_eq_true_iff.mp hinsert
    rw [Option.getD_some, noticed_replaceOne hdoc hvalid]
    exact or_congr_right ⟨fun h => ⟨h, hvalid, htaken⟩, And.left⟩
  · next hinsert =>
    rw [Option.getD_none]
    refine ⟨.inl, fun h => h.resolve_right ?_⟩
    rintro ⟨-, hvalid, htaken⟩
    exact hinsert (Bool.and_eq_true_iff.mpr ⟨hvalid, htaken⟩)

theorem noticed_runInserts {order : List (OfflineMsg × Nat)}
    (h : ∀ task ∈ order, Carries codec msg task.1) :
    Noticed codec (runInserts env order store) msg ↔ Noticed codec store msg ∨
      ∃ task ∈ order, task.1.entry = msg.entry ∧ task.1.isValid = true ∧ env.taken task.2 = true := by
  induction order generalizing store with
  | nil => simp [runInserts]
  | cons task order ih =>
    obtain ⟨htask, horder⟩ := List.forall_mem_cons.mp h
    rw [runInserts, List.foldl_cons, ← runInserts, ih horder, noticed_insert htask, or_assoc]
    simp only [List.exists_mem_cons_iff]

end Noticed

section Handlers

variable {codec : NotifyMsg → String} {env : NotifyEnv} {deliver : String → NotifyMsg}
  {ids : List String}

theorem foldl_sendMsg (res : Fanout) :
    ids.foldl (sendMsg codec env deliver) res =
      { sent := res.sent ++
          ((ids.zipIdx res.tasks.length).filter (env.isLogin ·.2)).map (deliver ·.1)
        tasks := res.tasks ++ ids.map fun toId => .ofDeliver codec env.now (deliver toId)
        written := res.written } := by
  induction ids generalizing res with
  | nil => simp
  | cons toId ids ih =>
    rw [List.foldl_cons, ih, List.zipIdx_cons, List.filter_cons]
    cases hlogin : env.isLogin res.tasks.length <;> simp [sendMsg, hlogin]

/-- The users of a list are notified one after another. -/
def notifyAll (codec : NotifyMsg → String) (env : NotifyEnv) (deliver : String → NotifyMsg)
    (ids : List String) : Fanout where
  sent := (loggedIn env ids).map deliver
  tasks := ids.map fun toId => .ofDeliver codec env.now (deliver toId)

theorem foldl_sendMsg_nil :
    ids.foldl (sendMsg codec env deliver) {} = notifyAll codec env deliver ids := by
  rw [foldl_sendMsg, notifyAll, loggedIn, List.map_map]
  rfl

theorem handleMsgGrpNotifyTask_eq (msg : SVRMSGGroupRelationNotify) :
    handleMsgGrpNotifyTask codec env msg =
      notifyAll codec env (grpNotifyDeliver msg)
        (if msg.toIds = [] ∧ env.found = false then []
          else (if msg.toIds = [] then env.members else msg.toIds) ++
            if msg.notifyType = notifyTypeGrpmemRemove then msg.mnpledUserId else []) := by
  have hremove : ∀ ids : List String,
      (if msg.notifyType = notifyTypeGrpmemRemove then
        msg.mnpledUserId.foldl (sendMsg codec env (grpNotifyDeliver msg))
          (ids.foldl (sendMsg codec env (grpNotifyDeliver msg)) {})
        else ids.foldl (sendMsg codec env (grpNotifyDeliver msg)) {}) =
      notifyAll codec env (grpNotifyDeliver msg)
        (ids ++ if msg.notifyType = notifyTypeGrpmemRemove then msg.mnpledUserId else []) := by
    intro ids
    split
    · rw [← List.foldl_append, foldl_sendMsg_nil]
    · rw [List.append_nil, foldl_sendMsg_nil]
  rw [handleMsgGrpNotifyTask]
  simp only [List.length_eq_zero_iff, NotifyEnv.getGroupMemberInfoList]
  by_cases htoIds : msg.toIds = []
  · cases hfound : env.found with
    | false => simp [htoIds, notifyAll, loggedIn]
    | true => simpa [htoIds] using hremove env.members
  · simpa [htoIds] using hremove msg.toIds

/-- A notification about a group goes to the users the server turns to. -/
theorem groupRelationNotify_eq (msg : SVRMSGGroupRelationNotify) {deliver : String → NotifyMsg}
    (hdeliver : deliver ∈ (RelationNotify.group msg).deliver env) :
    (groupRelationNotify codec env msg).1 =
      notifyAll codec env deliver ((RelationNotify.group msg).addressed env) := by
  obtain rfl := Option.some.inj hdeliver
  simp only [groupRelationNotify, RelationNotify.addressed]
  by_cases happly : msg.notifyType = grprelationTypeMasterAnsApply
  · cases hfound : env.found <;>
      simp [onJoinGrp, NotifyEnv.getGroupInfo, happly, hfound, ← foldl_sendMsg_nil]
  · by_cases hinvite : msg.notifyType = grprelationTypeMasterAnsInvite
    · have hne : grprelationTypeMasterAnsInvite ≠ grprelationTypeMasterAnsApply := by decide
      simp [onJoinGrp, hinvite, hne, ← foldl_sendMsg_nil]
    · simp [happly, hinvite, handleMsgGrpNotifyTask_eq]

theorem loggedIn_singleton (env : NotifyEnv) (toId : String) :
    loggedIn env [toId] = if env.isLogin 0 then [toId] else [] := by
  cases hlogin : env.isLogin 0 <;> simp [loggedIn, hlogin]

theorem friendRelationNotify_eq (msg : SVRMSGFriendRelationNotify) {deliver : String → NotifyMsg}
    (hdeliver : deliver ∈ (RelationNotify.friend msg).deliver env) :
    (friendRelationNotify codec env msg).1.written = [] ∧
      (friendRelationNotify codec env msg).1.tasks =
        [.ofDeliver codec env.now (deliver msg.toId)] := by
  simp only [RelationNotify.deliver] at hdeliver
  rw [friendRelationNotify]
  split at hdeliver
  · obtain rfl := Option.some.inj hdeliver
    rename_i hadd
    exact ⟨by rw [if_pos hadd]; rfl, by rw [if_pos hadd]; rfl⟩
  · next hadd =>
    split at hdeliver
    · next hans =>
      obtain rfl := Option.some.inj hdeliver
      exact ⟨by rw [if_neg hadd, if_pos hans]; rfl, by rw [if_neg hadd, if_pos hans]; rfl⟩
    · cases hdeliver

theorem sent_friendRelationNotify (msg : SVRMSGFriendRelationNotify) :
    (friendRelationNotify codec env msg).1.sent.map (·.entry.toId) =
      loggedIn env ((RelationNotify.friend msg).addressed env) := by
  simp only [friendRelationNotify, RelationNotify.addressed]
  by_cases hadd : msg.notifyType = friendNotifyTypeAdd
  · rw [if_pos hadd, if_pos (.inl hadd), loggedIn_singleton, addFriendHandle]
    cases env.isLogin 0 <;> rfl
  · by_cases hans : msg.notifyType = friendNotifyTypeAns
    · rw [if_neg hadd, if_pos hans, if_pos (.inr hans), loggedIn_singleton, addFriendAnsHandle]
      cases env.isLogin 0 <;> rfl
    · rw [if_neg hadd, if_neg hans, if_neg (not_or.mpr ⟨hadd, hans⟩)]
      rfl

end Handlers

namespace RelationNotify

def msgId : RelationNotify → String
  | group msg => msg.msgId
  | friend msg => msg.msgId
  | common msg => msg.msgId

section Entries

variable {codec : NotifyMsg → String} {env : NotifyEnv} {store : Store} {notify : RelationNotify}
  {deliver : String → NotifyMsg}

theorem deliver_entry (h : deliver ∈ notify.deliver env) :
    ∃ cmdId : UInt32, cmdId ≠ 0 ∧ ∀ toId, (deliver toId).entry = ⟨toId, cmdId, notify.msgId⟩ := by
  cases notify with
  | group msg =>
    obtain rfl := Option.some.inj h
    split
    · exact ⟨mesJoingrpDeliver, by decide, fun _ => rfl⟩
    · split
      · exact ⟨mesJoingrpDeliver, by decide, fun _ => rfl⟩
      · exact ⟨mesGrpnotifyDeliver, by decide, fun _ => rfl⟩
  | friend msg =>
    simp only [RelationNotify.deliver] at h
    split at h
    · obtain rfl := Option.some.inj h
      exact ⟨mesAddfriendDeliver, by decide, fun _ => rfl⟩
    · split at h
      · obtain rfl := Option.some.inj h
        exact ⟨mesAddfriendAnsDeliver, by decide, fun _ => rfl⟩
      · cases h
  | common msg =>
    obtain rfl := Option.some.inj h
    exact ⟨msCommonnotifyDeliver, by decide, fun _ => rfl⟩

theorem entry_ofDeliver (codec : NotifyMsg → String) (now : Nat) (msg : NotifyMsg) :
    (OfflineMsg.ofDeliver codec now msg).entry = msg.entry := rfl

theorem carries_deliver (h : deliver ∈ notify.deliver env) (now : Nat) (toId toId' : String) :
    Carries codec (deliver toId) (.ofDeliver codec now (deliver toId')) := by
  obtain ⟨cmdId, -, hentry⟩ := deliver_entry h
  refine ⟨rfl, fun hsame => ?_⟩
  rw [entry_ofDeliver, hentry, hentry] at hsame
  obtain rfl : toId' = toId := congrArg EntryKey.toId hsame
  rfl

theorem noticed_tasks (h : deliver ∈ notify.deliver env) {ids : List String}
    {order : List (OfflineMsg × Nat)}
    (horder : order.Perm
      (ids.map fun toId => OfflineMsg.ofDeliver codec env.now (deliver toId)).zipIdx)
    (toId : String) :
    Noticed codec (runInserts env order store) (deliver toId) ↔ Noticed codec store (deliver toId) ∨
      ∃ i, ids[i]? = some toId ∧ notify.msgId ≠ "" ∧ env.taken i = true := by
  obtain ⟨cmdId, hcmd, hentry⟩ := deliver_entry h
  have htask : ∀ task : OfflineMsg × Nat, task ∈ order ↔
      ∃ toId, ids[task.2]? = some toId ∧ .ofDeliver codec env.now (deliver toId) = task.1 := by
    intro task
    rw [horder.mem_iff, List.mem_zipIdx_iff_getElem?, List.getElem?_map, Option.map_eq_some_iff]
  have hvalid : ∀ toId, (OfflineMsg.ofDeliver codec env.now (deliver toId)).isValid = true ↔
      notify.msgId ≠ "" := by
    intro toId
    have hkey : (OfflineMsg.ofDeliver codec env.now (deliver toId)).isValid = true ↔
        (deliver toId).entry.cmdId ≠ 0 ∧ (deliver toId).entry.msgId ≠ "" := isValid_eq_true
    rw [hkey, hentry]
    exact and_iff_right hcmd
  rw [noticed_runInserts]
  · refine or_congr_right ⟨?_, ?_⟩
    · rintro ⟨⟨doc, i⟩, hmem, hsame, hdoc, htaken⟩
      obtain ⟨toId', hi, rfl⟩ := (htask _).mp hmem
      rw [entry_ofDeliver, hentry, hentry] at hsame
      obtain rfl : toId' = toId := congrArg EntryKey.toId hsame
      exact ⟨i, hi, (hvalid _).mp hdoc, htaken⟩
    · rintro ⟨i, hi, hid, htaken⟩
      exact ⟨(_, i), (htask _).mpr ⟨toId, hi, rfl⟩, rfl, (hvalid toId).mpr hid, htaken⟩
  · intro task hmem
    obtain ⟨toId', -, hdoc⟩ := (htask task).mp hmem
    exact hdoc ▸ carries_deliver h env.now toId toId'

theorem noticed_written (h : deliver ∈ notify.deliver env) {ids : List String} (toId : String) :
    Noticed codec
        (insertMany (ids.map fun toId => OfflineMsg.ofDeliver codec env.now (deliver toId)) store)
        (deliver toId) ↔
      Noticed codec store (deliver toId) ∨ toId ∈ ids := by
  obtain ⟨cmdId, -, hentry⟩ := deliver_entry h
  constructor
  · rintro ⟨doc, hdoc, hsame, hdata, hpulled⟩
    obtain hdoc | hdoc := List.mem_append.mp hdoc
    · exact .inl ⟨doc, hdoc, hsame, hdata, hpulled⟩
    · obtain ⟨toId', hmem, rfl⟩ := List.mem_map.mp hdoc
      rw [entry_ofDeliver, hentry, hentry] at hsame
      obtain rfl : toId' = toId := congrArg EntryKey.toId hsame
      exact .inr hmem
  · rintro (⟨doc, hdoc, hsame, hdata, hpulled⟩ | hmem)
    · exact ⟨doc, List.mem_append_left _ hdoc, hsame, hdata, hpulled⟩
    · exact ⟨_, List.mem_append_right _ (List.mem_map_of_mem hmem), rfl, rfl, rfl⟩

theorem written_commonNotify (msg : SVRMSGCommonMsgNotify) :
    ∃ ids : List String, (∀ toId, toId ∈ ids ↔
        ∃ i, msg.toIds[i]? = some toId ∧ (RelationNotify.common msg).Taken env i) ∧
      (handleCommonNotifyMsgTask codec env msg).written =
        ids.map fun toId => .ofDeliver codec env.now (commonNotifyDeliver msg toId) := by
  simp only [handleCommonNotifyMsgTask, notifyInsertMany, Taken]
  cases env.failsAfter with
  | none =>
    refine ⟨msg.toIds, fun toId => ?_, rfl⟩
    simp [List.mem_iff_getElem?]
  | some n =>
    refine ⟨msg.toIds.take n, fun toId => ?_, List.map_take.symm⟩
    simp [List.mem_iff_getElem?, List.getElem?_take, and_comm]

theorem tasks_commonNotify (msg : SVRMSGCommonMsgNotify) :
    (handleCommonNotifyMsgTask codec env msg).tasks = [] := by
  rw [handleCommonNotifyMsgTask]
  split <;> rfl

theorem noticed_store {order : List (OfflineMsg × Nat)} (h : deliver ∈ notify.deliver env)
    (horder : order.Perm (notify.handle codec env).1.tasks.zipIdx) (toId : String) :
    Noticed codec ((notify.handle codec env).1.store env order store) (deliver toId) ↔
      Noticed codec store (deliver toId) ∨
        ∃ i, (notify.addressed env)[i]? = some toId ∧ notify.Taken env i := by
  cases notify with
  | group msg =>
    have hres : (groupRelationNotify codec env msg).1 =
        notifyAll codec env deliver ((RelationNotify.group msg).addressed env) :=
      groupRelationNotify_eq msg h
    rw [handle, hres] at horder ⊢
    rw [Fanout.store, notifyAll, insertMany, List.append_nil]
    exact noticed_tasks h horder toId
  | friend msg =>
    obtain ⟨hwritten, htasks⟩ := @friendRelationNotify_eq codec env msg deliver h
    have hknown : (RelationNotify.friend msg).addressed env = [msg.toId] := by
      simp only [RelationNotify.deliver] at h
      refine if_pos ?_
      by_contra hunknown
      rw [not_or] at hunknown
      rw [if_neg hunknown.1, if_neg hunknown.2] at h
      cases h
    rw [handle, htasks] at horder
    rw [handle, Fanout.store, hwritten, insertMany, List.append_nil, hknown]
    have hone : order.Perm
        ([msg.toId].map fun toId => OfflineMsg.ofDeliver codec env.now (deliver toId)).zipIdx :=
      horder
    exact noticed_tasks h hone toId
  | common msg =>
    obtain ⟨ids, hids, hwritten⟩ := @written_commonNotify codec env msg
    obtain rfl := Option.some.inj h
    have horder : order = [] := by
      rw [handle, commonMsgNotify, tasks_commonNotify] at horder
      exact horder.eq_nil
    rw [handle, commonMsgNotify, Fanout.store, hwritten, horder]
    have hcommon : commonNotifyDeliver msg ∈ (common msg).deliver env := rfl
    exact (noticed_written hcommon toId).trans (or_congr_right (hids toId))

end Entries

section Sent

variable {codec : NotifyMsg → String} {env : NotifyEnv} {store : Store}

theorem nodup_loggedIn {ids : List String} :
    (loggedIn env ids).Nodup ↔ ∀ i j toId, i < j → ids[i]? = some toId → ids[j]? = some toId →
      ¬ (env.isLogin i = true ∧ env.isLogin j = true) := by
  rw [loggedIn, List.Nodup, List.pairwise_map, List.pairwise_filter, List.pairwise_iff_getElem]
  simp only [List.length_zipIdx, List.getElem_zipIdx, Nat.zero_add]
  constructor
  · rintro h i j toId hlt hi hj ⟨hlogini, hloginj⟩
    obtain ⟨hilt, rfl⟩ := List.getElem?_eq_some_iff.mp hi
    obtain ⟨hjlt, heq⟩ := List.getElem?_eq_some_iff.mp hj
    exact h i j hilt hjlt hlt hlogini hloginj heq.symm
  · intro h i j hilt hjlt hlt hlogini hloginj heq
    exact h i j _ hlt (List.getElem?_eq_getElem hilt)
      ((List.getElem?_eq_getElem hjlt).trans (congrArg some heq.symm)) ⟨hlogini, hloginj⟩

theorem once_iff_nodup {sent : List NotifyMsg} :
    (∀ toId, (sent.filter (·.entry.toId = toId)).length ≤ 1) ↔ (sent.map (·.entry.toId)).Nodup := by
  rw [List.nodup_iff_count_le_one]
  refine forall_congr' fun toId => ?_
  rw [List.count_eq_countP, List.countP_map, List.countP_eq_length_filter]
  refine iff_of_eq (congrArg (fun ids : List NotifyMsg => ids.length ≤ 1) ?_)
  exact List.filter_congr fun msg _ => rfl

theorem sent_handle (notify : RelationNotify) (h : notify.Sends env) :
    (notify.handle codec env).1.sent.map (·.entry.toId) = loggedIn env (notify.addressed env) := by
  cases notify with
  | group msg =>
    rw [handle, groupRelationNotify_eq msg rfl, notifyAll, List.map_map]
    refine (List.map_congr_left fun toId _ => ?_).trans (List.map_id _)
    obtain ⟨cmdId, -, hentry⟩ := deliver_entry (rfl : _ ∈ (group msg).deliver env)
    exact congrArg EntryKey.toId (hentry toId)
  | friend msg => exact sent_friendRelationNotify msg
  | common msg =>
    have hfails : env.failsAfter = none := h
    rw [handle, commonMsgNotify, handleCommonNotifyMsgTask, notifyInsertMany, hfails, List.map_map]
    exact (List.map_congr_left fun toId _ => rfl).trans (List.map_id _)

theorem sent_of_not_sends {notify : RelationNotify} (h : ¬ notify.Sends env) :
    (notify.handle codec env).1.sent = [] := by
  cases notify with
  | group msg => exact absurd trivial h
  | friend msg => exact absurd trivial h
  | common msg =>
    obtain ⟨n, hfails⟩ := Option.ne_none_iff_exists'.mp h
    rw [handle, commonMsgNotify, handleCommonNotifyMsgTask, notifyInsertMany, hfails]

/-- A user is sent at most one message, unless he is turned to twice while he is logged in. -/
theorem once_iff (notify : RelationNotify) :
    (∀ toId, ((notify.handle codec env).1.sent.filter (·.entry.toId = toId)).length ≤ 1) ↔
      (notify.Sends env → ∀ i j toId, i < j → (notify.addressed env)[i]? = some toId →
        (notify.addressed env)[j]? = some toId → ¬ (env.isLogin i = true ∧ env.isLogin j = true)) := by
  by_cases hsends : notify.Sends env
  · rw [once_iff_nodup, sent_handle notify hsends, nodup_loggedIn]
    exact ⟨fun h _ => h, fun h => h hsends⟩
  · refine iff_of_true (fun toId => ?_) fun h => absurd h hsends
    rw [sent_of_not_sends hsends]
    exact Nat.zero_le 1

end Sent

theorem errcode_handle (codec : NotifyMsg → String) (env : NotifyEnv) (notify : RelationNotify) :
    (notify.handle codec env).2.errcode = .nonErr := by
  cases notify <;> rfl

/-- A notification is handled as its answer says exactly if the look-up and the inserts reach
everyone and no user who is logged in is turned to twice. -/
theorem sound_iff_reached (codec : NotifyMsg → String) (env : NotifyEnv) (store : Store)
    (notify : RelationNotify) (order : List (OfflineMsg × Nat))
    (horder : order.Perm (notify.handle codec env).1.tasks.zipIdx) :
    notify.Sound codec env store order ↔ notify.Reached codec env store := by
  have hnoticed : ∀ toId, (∃ deliver ∈ notify.deliver env,
      Noticed codec ((notify.handle codec env).1.store env order store) (deliver toId)) ↔
      ∃ deliver ∈ notify.deliver env, Noticed codec store (deliver toId) ∨
        ∃ i, (notify.addressed env)[i]? = some toId ∧ notify.Taken env i :=
    fun toId => exists_congr fun deliver => and_congr_right fun h => noticed_store h horder toId
  constructor
  · intro h
    refine ⟨fun toId hmem => (hnoticed toId).mp ?_, (once_iff notify).mp h.once⟩
    exact h.noticed (errcode_handle codec env notify) toId hmem
  · intro h
    refine ⟨fun _ toId hmem => (hnoticed toId).mpr (h.noticed toId hmem), ?_⟩
    exact (once_iff notify).mpr h.once

/-- Two listed users, one of whom is logged in. -/
theorem sound_iff_reached_listed :
    (group ⟨"g1", "m1", ["bob", "carl"], 5, "ann", [], "hi", 1, "", ""⟩).Sound (fun _ => "")
      { isLogin := fun i => i = 0 } []
      (((group ⟨"g1", "m1", ["bob", "carl"], 5, "ann", [], "hi", 1, "", ""⟩).handle (fun _ => "")
        { isLogin := fun i => i = 0 }).1.tasks.zipIdx) := by
  refine (sound_iff_reached _ _ _ _ _ (List.Perm.refl _)).mpr ⟨fun toId hmem => ?_, fun _ => ?_⟩
  · refine ⟨_, rfl, .inr ?_⟩
    obtain rfl | hmem := List.mem_cons.mp hmem
    · exact ⟨0, rfl, by decide, rfl⟩
    · obtain rfl := List.mem_singleton.mp hmem
      exact ⟨1, rfl, by decide, rfl⟩
  · rintro i j toId hlt - - ⟨hi, hj⟩
    have hi : i = 0 := of_decide_eq_true hi
    have hj : j = 0 := of_decide_eq_true hj
    omega

/-- The members of the group cannot be looked up. -/
theorem not_sound :
    ∃ (codec : NotifyMsg → String) (env : NotifyEnv) (store : Store) (notify : RelationNotify)
      (order : List (OfflineMsg × Nat)), order.Perm (notify.handle codec env).1.tasks.zipIdx ∧
        ¬ notify.Sound codec env store order := by
  refine ⟨fun _ => "", { members := ["bob"], found := false }, [],
    group ⟨"g1", "m1", [], 5, "ann", [], "hi", 1, "", ""⟩, [], List.Perm.refl _, ?_⟩
  intro h
  obtain ⟨deliver, -, doc, hdoc, -⟩ := h.noticed rfl "bob" List.mem_cons_self
  cases hdoc

end RelationNotify

end Msg

end ImServer
