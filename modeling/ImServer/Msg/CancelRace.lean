import ImServer.Lib.Withdraw
import ImServer.Msg.Acknowledgement

/-!
# A chat and its cancel at the same time

The tasks of a chat and of its cancel are queued at worker threads that are chosen at random
(base/threadpool.cpp), so that the operations of the two may come in any order. The task of a
direct chat replaces one document, and its cancel replaces it again; the tasks of a group chat
store the chat and then write the entries of the members, and its cancel deletes these entries.
-/

namespace ImServer

namespace Msg

/-- The operations of `sendGroupMsg` from a turn of its loop on. -/
def sendOps (isLogin : String → Bool) (msg : MESGrpChat) : List String → List OfflineMsg → List Op
  | [], offlineMsgs => if 0 < offlineMsgs.length then [.insertMany offlineMsgs] else []
  | toId :: toIds, offlineMsgs =>
    let doc := OfflineMsg.ofGrpChat msg toId
    if isLogin toId then
      let offlineMsgs := offlineMsgs ++ [doc]
      if nBatch ≤ offlineMsgs.length then .insertMany offlineMsgs :: sendOps isLogin msg toIds []
      else sendOps isLogin msg toIds offlineMsgs
    else if doc.isValid then
      .replaceOne toId mesGrpchatDeliver msg.msgId doc :: sendOps isLogin msg toIds offlineMsgs
    else sendOps isLogin msg toIds offlineMsgs

theorem foldl_sendOps_cons (isLogin : String → Bool) (msg : MESGrpChat) (toId : String)
    (toIds : List String) (res : List OfflineMsg × Store) :
    (sendOps isLogin msg (toId :: toIds) res.1).foldl Op.apply res.2 =
      (sendOps isLogin msg toIds (sendGroupMember (isLogin toId) msg res toId).1).foldl Op.apply
        (sendGroupMember (isLogin toId) msg res toId).2 := by
  simp only [sendOps, sendGroupMember, insertOfflineMsg, Bool.and_true]
  split
  · split <;> rfl
  · split <;> rfl

theorem foldl_sendOps (isLogin : String → Bool) (msg : MESGrpChat) (toIds : List String)
    (res : List OfflineMsg × Store) :
    (sendOps isLogin msg toIds res.1).foldl Op.apply res.2 =
      sendRest (toIds.foldl (fun res toId => sendGroupMember (isLogin toId) msg res toId) res) := by
  induction toIds generalizing res with
  | nil =>
    by_cases hkept : 0 < res.1.length
    · simp [sendOps, sendRest, hkept, Op.apply]
    · simp [sendOps, sendRest, hkept]
  | cons toId toIds ih => rw [foldl_sendOps_cons, ih, List.foldl_cons]

theorem sendGroupMsg_eq_ops (isLogin : String → Bool) (msg : MESGrpChat) (members : List String)
    (store : Store) :
    sendGroupMsg isLogin msg members store =
      (sendOps isLogin msg (receivers msg members) []).foldl Op.apply store :=
  (foldl_sendOps isLogin msg (receivers msg members) ([], store)).symm

/-- An operation that writes entries of a group chat, for the given members. -/
inductive Op.Sends (msg : MESGrpChat) : List String → Op → Prop
  | one (toId : String) :
      Sends msg [toId] (.replaceOne toId mesGrpchatDeliver msg.msgId (.ofGrpChat msg toId))
  | batch {toIds : List String} (hne : toIds ≠ []) :
      Sends msg toIds (.insertMany (toIds.map (.ofGrpChat msg)))

/-- The operations write entries of receivers only, and of all of them. -/
structure SendsTo (msg : MESGrpChat) (toIds : List String) (ops : List Op) : Prop where
  sends : ∀ op ∈ ops, ∃ group, op.Sends msg group ∧ ∀ toId ∈ group, toId ∈ toIds
  all : ∀ toId ∈ toIds, ∃ op ∈ ops, ∃ group, op.Sends msg group ∧ toId ∈ group

theorem SendsTo.cons {msg : MESGrpChat} {group toIds all : List String} {op : Op} {ops : List Op}
    (hop : op.Sends msg group) (hops : SendsTo msg toIds ops)
    (hall : ∀ toId, toId ∈ all ↔ toId ∈ group ∨ toId ∈ toIds) : SendsTo msg all (op :: ops) := by
  refine ⟨?_, ?_⟩
  · rintro op' (_ | ⟨_, hop'⟩)
    · exact ⟨group, hop, fun toId hto => (hall toId).mpr (.inl hto)⟩
    · obtain ⟨group', hsends, hto⟩ := hops.sends op' hop'
      exact ⟨group', hsends, fun toId h => (hall toId).mpr (.inr (hto toId h))⟩
  · intro toId hto
    obtain hgroup | hrest := (hall toId).mp hto
    · exact ⟨op, List.mem_cons_self, group, hop, hgroup⟩
    · obtain ⟨op', hop', hgroup'⟩ := hops.all toId hrest
      exact ⟨op', List.mem_cons_of_mem _ hop', hgroup'⟩

theorem sendsTo_sendOps (isLogin : String → Bool) {msg : MESGrpChat} (hid : msg.msgId ≠ "")
    (toIds kept : List String) :
    SendsTo msg (kept ++ toIds) (sendOps isLogin msg toIds (kept.map (.ofGrpChat msg))) := by
  have hvalid : ∀ toId, (OfflineMsg.ofGrpChat msg toId).isValid = true := by
    intro toId
    exact isValid_eq_true.mpr ⟨(by decide : mesGrpchatDeliver ≠ 0), hid⟩
  have hnil : SendsTo msg [] [] := ⟨by simp, by simp⟩
  induction toIds generalizing kept with
  | nil =>
    cases kept with
    | nil => exact hnil
    | cons toId kept =>
      rw [sendOps, if_pos (by simp)]
      exact .cons (.batch (List.cons_ne_nil _ _)) hnil (by simp)
  | cons toId toIds ih =>
    simp only [sendOps, hvalid, if_true]
    have hkept : kept.map (OfflineMsg.ofGrpChat msg) ++ [OfflineMsg.ofGrpChat msg toId] =
        (kept ++ [toId]).map (.ofGrpChat msg) := by
      rw [List.map_append, List.map_singleton]
    have happend : kept ++ toId :: toIds = (kept ++ [toId]) ++ toIds := List.append_cons ..
    rw [hkept]
    split
    · rw [happend]
      split
      · exact .cons (.batch (by simp)) (ih []) (by simp [or_assoc])
      · exact ih (kept ++ [toId])
    · exact .cons (.one toId) (ih kept) (by simp [or_left_comm])

structure Mongo where
  store : Store
  grpStore : GrpStore := []
  deriving DecidableEq

namespace Mongo

def write (f : Store → Store) (m : Mongo) : Mongo := { m with store := f m.store }

def writeGrp (f : GrpStore → GrpStore) (m : Mongo) : Mongo := { m with grpStore := f m.grpStore }

end Mongo

/-- A task that answers its client, if it does. -/
abbrev MongoTask := Prog Mongo (Option ErrCode)

open Prog

/-- `OnMsgChat` and `HandleMsgChatTask`. -/
def msgChatTask (env : Env) (msg : MESChat) : MongoTask :=
  if msg.fromId = "" ∨ msg.toId = "" ∨ msg.msgId = "" then done none
  else if msg.content = "" then done (some .errChatUnhealthy)
  else
    let err := friendErr env.friend
    if err ≠ .nonErr then done (some err)
    else
      let doc := OfflineMsg.ofChat env.now msg
      if doc.isValid && env.written then
        modify (Mongo.write (replaceOne doc.keyDoc doc)) (done (some .nonErr))
      else done (some .exceptErr)

/-- `OnMsgChatCancel` and `HandleMsgChatCancelTask`. -/
def msgChatCancelTask (env : Env) (msg : MESChatCancel) : MongoTask :=
  if msg.fromId = "" ∨ msg.toId = "" ∨ msg.msgId = "" then done none
  else
    let err := friendErr env.friend
    if err ≠ .nonErr then done (some err)
    else
      read (fun m => getOfflineMsgPullStatus msg.toId mesChatDeliver msg.msgId m.store) fun pulled =>
        let msg := { msg with sendState := if pulled then 1 else 0 }
        if env.written then
          modify (Mongo.write
              (replaceOne (offlineMsgKeys msg.toId mesChatDeliver msg.msgId) (.ofCancel msg)))
            (done (some .nonErr))
        else done (some .exceptErr)

/-- `OnGrpChatInserted`, and `sendGroupMsg` behind it. -/
def grpChatInsertedTask (env : GrpEnv) (isLogin : String → Bool) (doc : GrpOfflineMsg) :
    Inserted → MongoTask
  | .failed => done (some .exceptErr)
  | .successReplaceOne => done (some .nonErr)
  | .success =>
    match env.memberInfo with
    | none => done (some .errGroupNetworkexception)
    | some members =>
      if doc.fromId ∈ members then
        let ops := sendOps isLogin doc.msgData (receivers doc.msgData members) []
        writes (ops.map fun op => Mongo.write (op.apply ·)) (done (some .nonErr))
      else
        modify (Mongo.writeGrp (delGrpOfflineMsg doc.grpId doc.msgId)) (done (some .errChatForbidden))

/-- `OnGrpMsgChat`. -/
def grpMsgChatTask (env : GrpEnv) (isLogin : String → Bool) (msg : MESGrpChat) : MongoTask :=
  match checkGrpChat env msg with
  | some ack => done ack
  | none =>
    let doc := GrpOfflineMsg.ofChat { msg with msgTime := env.now }
    cmd (Mongo.writeGrp fun grpStore => (insertGrpOfflineMsg env.written doc grpStore).2) fun m =>
      grpChatInsertedTask env isLogin doc (insertGrpOfflineMsg env.written doc m.grpStore).1

/-- `sendGroupCancelMsg` from a turn of its loop on. -/
def sendGroupCancelTask (msg : GroupChatCancel) (members : List String) :
    List String → List OfflineMsg → MongoTask
  | [], docs =>
    modify (Mongo.write (updateMany (manyUserKeys members mesGrpchatDeliver msg.msgId)))
      (modify (Mongo.write (insertMany docs)) (done (some .nonErr)))
  | toId :: toIds, docs =>
    read (fun m => memberCancel m.store msg toId) fun cancel =>
      sendGroupCancelTask msg members toIds (docs ++ [.ofCancel cancel])

/-- `OnGrpMsgChatCancel` and `HandleMsgChatCancelTask`. -/
def grpMsgChatCancelTask (memberInfo : Option (List String)) (msg : GroupChatCancel) : MongoTask :=
  if msg.groupId = "" ∨ msg.fromId = "" ∨ msg.msgId = "" ∨ !isGrpIdValid msg.groupId then done none
  else
    match memberInfo with
    | none => done none
    | some members =>
      if msg.fromId ∈ members then sendGroupCancelTask msg members members []
      else done (some .errChatForbidden)

theorem msgChatTask_alone (env : Env) (msg : MESChat) (m : Mongo) :
    (msgChatTask env msg).alone m =
      ((onMsgChat env m.store msg).1, { m with store := (onMsgChat env m.store msg).2 }) := by
  simp only [msgChatTask, onMsgChat, handleMsgChatTask, insertOfflineMsg]
  split_ifs <;> simp_all [Mongo.write]

theorem msgChatCancelTask_alone (env : Env) (msg : MESChatCancel) (m : Mongo) :
    (msgChatCancelTask env msg).alone m =
      ((onMsgChatCancel env m.store msg).1,
        { m with store := (onMsgChatCancel env m.store msg).2 }) := by
  simp only [msgChatCancelTask, onMsgChatCancel, handleMsgChatCancelTask]
  split_ifs <;> simp_all [Mongo.write]

theorem sendGroupCancelTask_alone (msg : GroupChatCancel) (members toIds : List String)
    (docs : List OfflineMsg) (m : Mongo) :
    (sendGroupCancelTask msg members toIds docs).alone m =
      (some .nonErr, m.write fun store =>
        insertMany (docs ++ toIds.map fun toId => OfflineMsg.ofCancel (memberCancel store msg toId))
          (updateMany (manyUserKeys members mesGrpchatDeliver msg.msgId) store)) := by
  induction toIds generalizing docs with
  | nil => simp [sendGroupCancelTask, Mongo.write]
  | cons toId toIds ih =>
    rw [sendGroupCancelTask, alone_read, ih]
    simp [Mongo.write]

theorem grpMsgChatCancelTask_alone (memberInfo : Option (List String)) (msg : GroupChatCancel)
    (m : Mongo) :
    (grpMsgChatCancelTask memberInfo msg).alone m =
      ((onGrpMsgChatCancel memberInfo m.store msg).1,
        { m with store := (onGrpMsgChatCancel memberInfo m.store msg).2 }) := by
  simp only [grpMsgChatCancelTask, onGrpMsgChatCancel]
  split
  · rfl
  · cases memberInfo with
    | none => rfl
    | some members =>
      dsimp only
      split
      · rw [sendGroupCancelTask_alone]
        rfl
      · rfl

theorem foldl_write (ops : List Op) (m : Mongo) :
    (ops.map fun op => Mongo.write (op.apply ·)).foldl (fun m f => f m) m =
      { m with store := ops.foldl Op.apply m.store } := by
  induction ops generalizing m with
  | nil => rfl
  | cons op ops ih => exact ih _

/-- The store after the task that a group chat has queued, if there is one. -/
def GrpChatResult.sent (res : GrpChatResult) (isLogin : String → Bool) (store : Store) : Store :=
  match res.task with
  | none => store
  | some (msg, members) => sendGroupMsg isLogin msg members store

theorem grpMsgChatTask_alone (env : GrpEnv) (isLogin : String → Bool) (msg : MESGrpChat) (m : Mongo) :
    (grpMsgChatTask env isLogin msg).alone m =
      ((onGrpMsgChat env m.grpStore msg).ack,
        { store := (onGrpMsgChat env m.grpStore msg).sent isLogin m.store
          grpStore := (onGrpMsgChat env m.grpStore msg).grpStore }) := by
  simp only [grpMsgChatTask, onGrpMsgChat]
  cases checkGrpChat env msg with
  | some ack => rfl
  | none =>
    simp only [alone, grpChatInsertedTask, onGrpChatInserted]
    cases (insertGrpOfflineMsg env.written _ m.grpStore).1 with
    | failed => rfl
    | successReplaceOne => rfl
    | success =>
      cases env.memberInfo with
      | none => rfl
      | some members =>
        dsimp only
        split
        · rw [alone_writes, foldl_write, ← sendGroupMsg_eq_ops]
          rfl
        · rfl

inductive Talk where
  | direct (env cancelEnv : Env) (msg : MESChat) (cancelTime : Nat)
  /-- Any user may send the cancel, and the members are fetched once more for it. -/
  | group (env : GrpEnv) (isLogin : String → Bool) (msg : MESGrpChat)
      (memberInfo : Option (List String)) (user : String) (cancelTime : Nat)

/-- Where a chat may be left by a cancel that replaces the first document with its key. -/
def othersWithKey (msg : MESChat) (store : Store) : Store :=
  (store.filter (offlineMsgKeys msg.toId mesChatDeliver msg.msgId)).tail

namespace Talk

def tasks : Talk → Turns.Party → MongoTask
  | direct env _ msg _, .first => msgChatTask env msg
  | direct _ env msg time, .second =>
    msgChatCancelTask env
      { fromId := msg.fromId, toId := msg.toId, msgId := msg.msgId, msgTime := time }
  | group env isLogin msg _ _ _, .first => grpMsgChatTask env isLogin msg
  | group _ _ msg memberInfo user time, .second =>
    grpMsgChatCancelTask memberInfo ⟨user, msg.grpId, msg.msgId, time⟩

/-- The document is an entry of the chat. -/
def isEntry : Talk → OfflineMsg → Bool
  | direct _ _ msg _, doc =>
    doc.toId = msg.toId && doc.cmdId = mesChatDeliver && doc.msgId = msg.msgId &&
      doc.fromId = msg.fromId
  | group _ _ msg _ _ _, doc =>
    doc.cmdId = mesGrpchatDeliver && doc.msgId = msg.msgId && doc.fromId = msg.grpId

/-- Some entry of the chat is pending, for a receiver of a kind. -/
def WaitsFor (talk : Talk) (P : String → Prop) (store : Store) : Prop :=
  ∃ doc ∈ store, talk.isEntry doc = true ∧ doc.bPulled = 0 ∧ P doc.toId

abbrev Waits (talk : Talk) (store : Store) : Prop := talk.WaitsFor (fun _ => True) store

/-- What the tasks of the chat do to the entries, one operation of mongo after the other. -/
def ops : Talk → GrpStore → List Op
  | direct env _ msg _, _ => (Request.chat env msg).ops
  | group env isLogin msg _ _ _, grpStore =>
    match (onGrpMsgChat env grpStore msg).task with
    | none => []
    | some (msg, members) => sendOps isLogin msg (receivers msg members) []

/-- The tasks of the chat write entries, so that there is something to cancel. -/
def Stores (talk : Talk) (m : Mongo) : Prop := talk.ops m.grpStore ≠ []

/-- How often the cancel looks before it replaces or deletes. -/
def looks : Talk → Nat
  | direct .. => 1
  | group _ _ _ memberInfo _ _ => (memberInfo.getD []).length

/-- What a cancel does not reach: a second document with the key of the chat, and entries of users
that were not fetched for it. -/
def Left : Talk → Mongo → Prop
  | talk@(direct _ _ msg _), m => talk.Waits (othersWithKey msg m.store)
  | talk@(group env _ msg memberInfo _ _), m =>
    talk.WaitsFor (· ∉ memberInfo.getD []) m.store ∨
      ∃ task ∈ (onGrpMsgChat env m.grpStore msg).task, ∃ toId ∈ receivers task.1 task.2,
        toId ∉ memberInfo.getD []

end Talk

/-- The documents that a filter finds after it has replaced the first of them. -/
theorem filter_replaceOne (filter : OfflineMsg → Bool) (new : OfflineMsg) (store : Store) :
    (replaceOne filter new store).filter filter =
      (if filter new then [new] else []) ++ (store.filter filter).tail := by
  induction store with
  | nil =>
    simp only [replaceOne, List.filter_nil, List.tail_nil, List.append_nil, List.filter_cons]
  | cons first rest ih =>
    cases hfirst : filter first with
    | true =>
      simp only [replaceOne, hfirst, if_true, List.filter_cons, List.tail_cons]
      split
      · rfl
      · rfl
    | false =>
      rw [replaceOne, if_neg (by simp [hfirst]), List.filter_cons_of_neg (by simp [hfirst]), ih,
        List.filter_cons_of_neg (by simp [hfirst])]

/-- The writes of the tasks of a chat. -/
def writesOf (ops : List Op) : List (Mongo → Mongo) := ops.map fun op => Mongo.write (op.apply ·)

/-- The task of a direct chat does the operations of its request. -/
theorem msgChatTask_eq_writes (env : Env) (msg : MESChat) :
    ∃ ack, msgChatTask env msg =
      writes (writesOf (Request.chat env msg).ops) (done ack) := by
  simp only [writesOf]
  by_cases hids : msg.fromId = "" ∨ msg.toId = "" ∨ msg.msgId = ""
  · have hops : (Request.chat env msg).ops = [] := if_pos (by tauto)
    rw [msgChatTask, if_pos hids, hops]
    exact ⟨_, rfl⟩
  · have hvalid : (OfflineMsg.ofChat env.now msg).isValid = true := by
      push Not at hids
      exact isValid_eq_true.mpr ⟨(by decide : mesChatDeliver ≠ 0), hids.2.2⟩
    simp only [msgChatTask, if_neg hids, hvalid, Bool.true_and]
    by_cases hcontent : msg.content = ""
    · simp [Request.ops, hcontent, writes]
    · by_cases hfriend : friendErr env.friend = .nonErr
      · cases hwritten : env.written with
        | false => simp [Request.ops, hcontent, hfriend, hwritten, writes]
        | true =>
          push Not at hids
          simp [Request.ops, hids, hcontent, hfriend, hwritten, writes]
          exact ⟨_, rfl⟩
      · simp [Request.ops, hcontent, hfriend, writes]

theorem leads_msgChatTask (quiet : (Mongo → Mongo) → Prop) (env : Env) (msg : MESChat) :
    Withdraw.Leads quiet (writesOf (Request.chat env msg).ops) (fun _ => True) (msgChatTask env msg) := by
  obtain ⟨ack, hchat⟩ := msgChatTask_eq_writes env msg
  rw [hchat]
  exact .writes ack

section Direct

variable {env cancelEnv : Env} {msg : MESChat} {time : Nat}

theorem waits_direct_iff (store : Store) :
    (Talk.direct env cancelEnv msg time).Waits store ↔
      (Talk.direct env cancelEnv msg time).Waits
        (store.filter (offlineMsgKeys msg.toId mesChatDeliver msg.msgId)) := by
  constructor
  · rintro ⟨doc, hdoc, hentry, hpulled⟩
    refine ⟨doc, List.mem_filter.mpr ⟨hdoc, ?_⟩, hentry, hpulled⟩
    simp only [Talk.isEntry, Bool.and_eq_true, decide_eq_true_eq] at hentry
    simp [offlineMsgKeys, hentry]
  · rintro ⟨doc, hdoc, hentry⟩
    exact ⟨doc, (List.mem_filter.mp hdoc).1, hentry⟩

theorem rules_direct (env cancelEnv : Env) (msg : MESChat) (time : Nat) (m : Mongo) :
    Withdraw.Rules (fun m : Mongo => (Talk.direct env cancelEnv msg time).Waits m.store)
      (fun m => (Talk.direct env cancelEnv msg time).Waits (othersWithKey msg m.store))
      (fun _ => False)
      (fun w => ∃ cancel : MESChatCancel, w = Mongo.write
        (replaceOne (offlineMsgKeys msg.toId mesChatDeliver msg.msgId) (.ofCancel cancel)))
      (writesOf ((Talk.direct env cancelEnv msg time).ops m.grpStore)) := by
  refine ⟨?_, ?_, ?_⟩
  · intro f hf m
    obtain ⟨op, hop, rfl⟩ := List.mem_map.mp hf
    obtain ⟨-, rfl⟩ := mem_ops_chat hop
    exact ⟨_, new_mem_replaceOne _ _ _, by simp [Talk.isEntry, OfflineMsg.ofChat], rfl, trivial⟩
  · intro f hf m
    obtain ⟨op, hop, rfl⟩ := List.mem_map.mp hf
    obtain ⟨-, rfl⟩ := mem_ops_chat hop
    have hkey : offlineMsgKeys msg.toId mesChatDeliver msg.msgId (.ofChat env.now msg) = true := by
      simp [offlineMsgKeys, OfflineMsg.ofChat]
    have hothers : othersWithKey msg (replaceOne (offlineMsgKeys msg.toId mesChatDeliver msg.msgId)
        (.ofChat env.now msg) m.store) = othersWithKey msg m.store := by
      rw [othersWithKey, filter_replaceOne, if_pos hkey]
      rfl
    rw [or_false, ← hothers]
    rfl
  · rintro w ⟨cancel, rfl⟩ m
    have hkey : offlineMsgKeys msg.toId mesChatDeliver msg.msgId (.ofCancel cancel) = false := by
      refine Bool.eq_false_iff.mpr fun hfound => ?_
      have hkeys :
          entryKeys msg.toId mesChatDeliver msg.msgId (OfflineMsg.ofCancel cancel).entry = true :=
        hfound
      exact absurd (entryKeys_eq_true.mp hkeys).2.2
        (by decide : ¬ (mesChatDeliver = 0 ∨ mesChatcancelDeliver = mesChatDeliver))
    rw [waits_direct_iff, Mongo.write, filter_replaceOne, hkey]
    rfl

end Direct

/-- A cancel that is answered without an error looks once, and then replaces. -/
theorem msgChatCancelTask_cases (quiet : (Mongo → Mongo) → Prop) (env : Env) (msg : MESChatCancel) :
    (msgChatCancelTask env msg).Ends (· ≠ some .nonErr) ∨
      Withdraw.Withdraws quiet (fun w => ∃ cancel : MESChatCancel, w = Mongo.write
        (replaceOne (offlineMsgKeys msg.toId mesChatDeliver msg.msgId) (.ofCancel cancel))) 1
        (msgChatCancelTask env msg) := by
  unfold msgChatCancelTask
  split
  · exact .inl nofun
  · dsimp only
    split
    · next herr => exact .inl fun h => herr (Option.some.inj h)
    · cases env.written with
      | false => exact .inl fun _ h => ErrCode.noConfusion (Option.some.inj h)
      | true => exact .inr (.look fun m => .withdraw ⟨_, rfl⟩ fun _ => trivial)

section Group

variable {talk : Talk} {chat sent : MESGrpChat} {env : GrpEnv} {isLogin : String → Bool}
  {memberInfo : Option (List String)} {user : String} {time : Nat}

theorem isEntry_group {doc : OfflineMsg} :
    (Talk.group env isLogin chat memberInfo user time).isEntry doc = true ↔
      doc.cmdId = mesGrpchatDeliver ∧ doc.msgId = chat.msgId ∧ doc.fromId = chat.grpId := by
  simp only [Talk.isEntry, Bool.and_eq_true, decide_eq_true_eq, and_assoc]

/-- After an operation that writes entries, these and the ones before are pending. -/
theorem waitsFor_sends (hid : sent.msgId = chat.msgId) (hgrp : sent.grpId = chat.grpId)
    {group : List String} {op : Op} (hop : op.Sends sent group) (P : String → Prop) (store : Store) :
    (Talk.group env isLogin chat memberInfo user time).WaitsFor P (op.apply store) ↔
      (Talk.group env isLogin chat memberInfo user time).WaitsFor P store ∨ ∃ toId ∈ group, P toId := by
  have hentry : ∀ toId, (Talk.group env isLogin chat memberInfo user time).isEntry
      (.ofGrpChat sent toId) = true := by
    intro toId
    exact isEntry_group.mpr ⟨rfl, hid, hgrp⟩
  cases hop with
  | one toId =>
    constructor
    · rintro ⟨doc, hdoc, hdocEntry, hpulled, hP⟩
      obtain rfl | hold := mem_of_mem_replaceOne hdoc
      · exact .inr ⟨toId, List.mem_singleton_self toId, hP⟩
      · exact .inl ⟨doc, hold, hdocEntry, hpulled, hP⟩
    · rintro (⟨doc, hdoc, hdocEntry, hpulled, hP⟩ | ⟨receiver, hmem, hP⟩)
      · cases hfound : offlineMsgKeys toId mesGrpchatDeliver sent.msgId doc with
        | false => exact ⟨doc, mem_replaceOne hdoc hfound, hdocEntry, hpulled, hP⟩
        | true =>
          have hkeys : entryKeys toId mesGrpchatDeliver sent.msgId doc.entry = true := hfound
          have hto : doc.toId = toId := (entryKeys_eq_true.mp hkeys).1
          exact ⟨_, new_mem_replaceOne _ _ store, hentry toId, rfl, hto ▸ hP⟩
      · obtain rfl := List.mem_singleton.mp hmem
        exact ⟨_, new_mem_replaceOne _ _ store, hentry receiver, rfl, hP⟩
  | batch hne =>
    constructor
    · rintro ⟨doc, hdoc, hdocEntry, hpulled, hP⟩
      obtain hold | hnew := List.mem_append.mp hdoc
      · exact .inl ⟨doc, hold, hdocEntry, hpulled, hP⟩
      · obtain ⟨toId, hmem, rfl⟩ := List.mem_map.mp hnew
        exact .inr ⟨toId, hmem, hP⟩
    · rintro (⟨doc, hdoc, hdocWaits⟩ | ⟨toId, hmem, hP⟩)
      · exact ⟨doc, List.mem_append_left _ hdoc, hdocWaits⟩
      · exact ⟨_, List.mem_append_right _ (List.mem_map_of_mem hmem), hentry toId, rfl, hP⟩

/-- The cancel deletes the entries of the members that were fetched for it. -/
theorem waits_updateMany (members : List String) (store : Store) :
    (Talk.group env isLogin chat memberInfo user time).Waits
        (updateMany (manyUserKeys members mesGrpchatDeliver chat.msgId) store) ↔
      (Talk.group env isLogin chat memberInfo user time).WaitsFor (· ∉ members) store := by
  have hkeys : ∀ {doc : OfflineMsg}, doc.cmdId = mesGrpchatDeliver → doc.msgId = chat.msgId →
      (manyUserKeys members mesGrpchatDeliver chat.msgId doc = true ↔ doc.toId ∈ members) := by
    intro doc hcmd hid
    simp [manyUserKeys, hcmd, hid]
  constructor
  · rintro ⟨doc, hdoc, hentry, hpulled, -⟩
    obtain ⟨old, hold, rfl⟩ := List.mem_map.mp hdoc
    split at hpulled
    · simp at hpulled
    · next hnot =>
      rw [if_neg hnot] at hentry
      obtain ⟨hcmd, hid, -⟩ := isEntry_group.mp hentry
      exact ⟨old, hold, hentry, hpulled, mt (hkeys hcmd hid).mpr hnot⟩
  · rintro ⟨doc, hdoc, hentry, hpulled, hto⟩
    obtain ⟨hcmd, hid, -⟩ := isEntry_group.mp hentry
    have hnot := Bool.eq_false_iff.mpr (mt (hkeys hcmd hid).mp hto)
    exact ⟨doc, mem_updateMany hdoc hnot, hentry, hpulled, trivial⟩

theorem waitsFor_insertMany {docs : List OfflineMsg}
    (hdocs : ∀ doc ∈ docs, doc.cmdId ≠ mesGrpchatDeliver)
    (P : String → Prop) (store : Store) :
    (Talk.group env isLogin chat memberInfo user time).WaitsFor P (insertMany docs store) ↔
      (Talk.group env isLogin chat memberInfo user time).WaitsFor P store := by
  constructor
  · rintro ⟨doc, hdoc, hentry, hwaits⟩
    obtain hold | hnew := List.mem_append.mp hdoc
    · exact ⟨doc, hold, hentry, hwaits⟩
    · exact absurd (isEntry_group.mp hentry).1 (hdocs doc hnew)
  · rintro ⟨doc, hdoc, hwaits⟩
    exact ⟨doc, List.mem_append_left _ hdoc, hwaits⟩

theorem sendsTo_ops {grpStore : GrpStore} {toIds : List String}
    (htask : (onGrpMsgChat env grpStore chat).task = some (sent, toIds)) :
    sent.msgId = chat.msgId ∧ sent.grpId = chat.grpId ∧
      SendsTo sent (receivers sent toIds)
        ((Talk.group env isLogin chat memberInfo user time).ops grpStore) := by
  have hops : (Talk.group env isLogin chat memberInfo user time).ops grpStore =
      sendOps isLogin sent (receivers sent toIds) [] := by
    simp only [Talk.ops, htask]
  obtain ⟨-, hnone⟩ | ⟨hnone, -⟩ | ⟨members, -, hid, hsome⟩ := onGrpMsgChat_cases env grpStore chat
  · rw [hnone] at htask
    cases htask
  · rw [hnone] at htask
    cases htask
  · rw [hsome] at htask
    obtain ⟨rfl, rfl⟩ := Prod.mk.inj (Option.some.inj htask)
    have hid' : ({ chat with msgTime := env.now } : MESGrpChat).msgId ≠ "" := hid
    exact ⟨rfl, rfl, hops ▸ sendsTo_sendOps isLogin hid' _ []⟩

theorem ops_eq_nil {grpStore : GrpStore} (htask : (onGrpMsgChat env grpStore chat).task = none) :
    (Talk.group env isLogin chat memberInfo user time).ops grpStore = [] := by
  simp only [Talk.ops, htask]

/-- The rules of the race between a group chat and its cancel. -/
theorem rules_group (env : GrpEnv) (isLogin : String → Bool) (chat : MESGrpChat)
    (memberInfo : Option (List String)) (user : String) (time : Nat) (m : Mongo) :
    Withdraw.Rules
      (fun m : Mongo => (Talk.group env isLogin chat memberInfo user time).Waits m.store)
      (fun m => (Talk.group env isLogin chat memberInfo user time).WaitsFor
        (· ∉ memberInfo.getD []) m.store)
      (fun f => (Talk.group env isLogin chat memberInfo user time).WaitsFor
        (· ∉ memberInfo.getD []) (f ⟨[], []⟩).store)
      (fun w => w = Mongo.write
        (updateMany (manyUserKeys (memberInfo.getD []) mesGrpchatDeliver chat.msgId)))
      (writesOf ((Talk.group env isLogin chat memberInfo user time).ops m.grpStore)) := by
  have hsends : ∀ op ∈ (Talk.group env isLogin chat memberInfo user time).ops m.grpStore,
      ∃ sent group, sent.msgId = chat.msgId ∧ sent.grpId = chat.grpId ∧ op.Sends sent group := by
    cases htask : (onGrpMsgChat env m.grpStore chat).task with
    | none => simp [ops_eq_nil htask]
    | some task =>
      intro op hop
      obtain ⟨hid, hgrp, hsends⟩ := sendsTo_ops htask
      obtain ⟨group, hgroup, -⟩ := hsends.sends op hop
      exact ⟨_, group, hid, hgrp, hgroup⟩
  refine ⟨?_, ?_, ?_⟩
  · intro f hf m
    obtain ⟨op, hop, rfl⟩ := List.mem_map.mp hf
    obtain ⟨sent, group, hid, hgrp, hgroup⟩ := hsends op hop
    refine (waitsFor_sends hid hgrp hgroup _ m.store).mpr (.inr ?_)
    cases hgroup with
    | one toId => exact ⟨toId, List.mem_singleton_self toId, trivial⟩
    | batch hne =>
      obtain ⟨toId, hmem⟩ := List.exists_mem_of_ne_nil _ hne
      exact ⟨toId, hmem, trivial⟩
  · intro f hf m
    obtain ⟨op, hop, rfl⟩ := List.mem_map.mp hf
    obtain ⟨sent, group, hid, hgrp, hgroup⟩ := hsends op hop
    have hnil : ¬ (Talk.group env isLogin chat memberInfo user time).WaitsFor
        (· ∉ memberInfo.getD []) [] := by
      rintro ⟨doc, hdoc, -⟩
      cases hdoc
    have hempty : (Talk.group env isLogin chat memberInfo user time).WaitsFor
        (· ∉ memberInfo.getD []) (op.apply []) ↔ _ := waitsFor_sends hid hgrp hgroup _ []
    exact (waitsFor_sends hid hgrp hgroup _ m.store).trans
      (or_congr_right (hempty.trans (or_iff_right hnil)).symm)
  · rintro w rfl m
    exact waits_updateMany (memberInfo.getD []) m.store

theorem quiet_writeGrp {waits out : Store → Prop} (f : GrpStore → GrpStore) :
    Withdraw.Quiet (fun m : Mongo => waits m.store) (fun m => out m.store) (Mongo.writeGrp f) :=
  fun _ => ⟨Iff.rfl, Iff.rfl⟩

/-- The tasks of a group chat write entries after they have stored the chat. -/
theorem leads_grpMsgChatTask (waits out : Store → Prop) (m : Mongo) :
    Withdraw.Leads (Withdraw.Quiet (fun m : Mongo => waits m.store) (fun m => out m.store))
      (writesOf ((Talk.group env isLogin chat memberInfo user time).ops m.grpStore))
      (fun s => s.grpStore = m.grpStore) (grpMsgChatTask env isLogin chat) := by
  simp only [grpMsgChatTask, Talk.ops, onGrpMsgChat]
  cases checkGrpChat env chat with
  | some ack => exact .writes ack
  | none =>
    refine .quiet (quiet_writeGrp _) ?_
    rintro s hs
    simp only [hs, grpChatInsertedTask, onGrpChatInserted]
    cases (insertGrpOfflineMsg env.written _ m.grpStore).1 with
    | failed => exact .writes _
    | successReplaceOne => exact .writes _
    | success =>
      cases env.memberInfo with
      | none => exact .writes _
      | some members =>
        simp only [GrpOfflineMsg.ofChat]
        by_cases hmem : chat.fromId ∈ members
        · simp only [hmem, if_true]
          exact .writes _
        · simp only [hmem, if_false]
          exact .quiet (quiet_writeGrp _) fun _ _ => .writes _

/-- A cancel that is answered without an error looks at each member, and then deletes. -/
theorem withdraws_sendGroupCancel {members : List String} (P : String → Prop) (toIds : List String)
    {docs : List OfflineMsg} (hdocs : ∀ doc ∈ docs, doc.cmdId ≠ mesGrpchatDeliver) :
    Withdraw.Withdraws
      (Withdraw.Quiet
        (fun m : Mongo => (Talk.group env isLogin chat memberInfo user time).Waits m.store)
        (fun m => (Talk.group env isLogin chat memberInfo user time).WaitsFor P m.store))
      (fun w => w = Mongo.write (updateMany (manyUserKeys members mesGrpchatDeliver chat.msgId)))
      toIds.length
      (sendGroupCancelTask ⟨user, chat.grpId, chat.msgId, time⟩ members toIds docs) := by
  induction toIds generalizing docs with
  | nil =>
    refine .withdraw rfl fun _ => ⟨?_, fun _ => trivial⟩
    exact fun m => ⟨waitsFor_insertMany hdocs _ m.store, waitsFor_insertMany hdocs _ m.store⟩
  | cons toId toIds ih =>
    refine .look fun m => ih ?_
    intro doc hdoc
    obtain hold | hnew := List.mem_append.mp hdoc
    · exact hdocs doc hold
    · obtain rfl := List.mem_singleton.mp hnew
      exact (by decide : mesChatcancelDeliver ≠ mesGrpchatDeliver)

theorem grpMsgChatCancelTask_cases (memberInfo : Option (List String)) (msg : GroupChatCancel) :
    (grpMsgChatCancelTask memberInfo msg).Ends (· ≠ some .nonErr) ∨
      grpMsgChatCancelTask memberInfo msg =
        sendGroupCancelTask msg (memberInfo.getD []) (memberInfo.getD []) [] := by
  unfold grpMsgChatCancelTask
  split
  · exact .inl nofun
  · cases memberInfo with
    | none => exact .inl nofun
    | some members =>
      dsimp only
      split
      · exact .inr rfl
      · exact .inl fun h => ErrCode.noConfusion (Option.some.inj h)

theorem withdraws_grpMsgChatCancelTask (P : String → Prop)
    (h : ¬ (grpMsgChatCancelTask memberInfo ⟨user, chat.grpId, chat.msgId, time⟩).Ends
      (· ≠ some .nonErr)) :
    Withdraw.Withdraws
      (Withdraw.Quiet
        (fun m : Mongo => (Talk.group env isLogin chat memberInfo user time).Waits m.store)
        (fun m => (Talk.group env isLogin chat memberInfo user time).WaitsFor P m.store))
      (fun w => w = Mongo.write
        (updateMany (manyUserKeys (memberInfo.getD []) mesGrpchatDeliver chat.msgId)))
      (memberInfo.getD []).length
      (grpMsgChatCancelTask memberInfo ⟨user, chat.grpId, chat.msgId, time⟩) := by
  rw [(grpMsgChatCancelTask_cases memberInfo _).resolve_left h]
  exact withdraws_sendGroupCancel P _ fun doc hdoc => absurd hdoc List.not_mem_nil

theorem keeps_sendGroupCancel (grpStore : GrpStore) (msg : GroupChatCancel)
    (members toIds : List String) (docs : List OfflineMsg) :
    Withdraw.Keeps (fun s => s.grpStore = grpStore) (sendGroupCancelTask msg members toIds docs) := by
  induction toIds generalizing docs with
  | nil => exact ⟨fun _ hs => hs, fun _ => ⟨fun _ hs => hs, fun _ => trivial⟩⟩
  | cons toId toIds ih => exact ⟨fun _ hs => hs, fun m => ih _⟩

theorem keeps_grpMsgChatCancelTask (grpStore : GrpStore) {msg : GroupChatCancel}
    (h : ¬ (grpMsgChatCancelTask memberInfo msg).Ends (· ≠ some .nonErr)) :
    Withdraw.Keeps (fun s => s.grpStore = grpStore) (grpMsgChatCancelTask memberInfo msg) := by
  rw [(grpMsgChatCancelTask_cases memberInfo _).resolve_left h]
  exact keeps_sendGroupCancel grpStore msg _ _ []

/-- Some write reaches a user who is not fetched for the cancel exactly when some receiver is one. -/
theorem exists_beyond_iff (m : Mongo) (P : String → Prop) :
    (∃ f ∈ writesOf ((Talk.group env isLogin chat memberInfo user time).ops m.grpStore),
        (Talk.group env isLogin chat memberInfo user time).WaitsFor P (f ⟨[], []⟩).store) ↔
      ∃ task ∈ (onGrpMsgChat env m.grpStore chat).task, ∃ toId ∈ receivers task.1 task.2, P toId := by
  have hnil : ¬ (Talk.group env isLogin chat memberInfo user time).WaitsFor P [] := by
    rintro ⟨doc, hdoc, -⟩
    cases hdoc
  cases htask : (onGrpMsgChat env m.grpStore chat).task with
  | none => simp [ops_eq_nil htask, writesOf]
  | some task =>
    obtain ⟨hid, hgrp, hsends⟩ : _ ∧ _ ∧ SendsTo task.1 (receivers task.1 task.2)
      ((Talk.group env isLogin chat memberInfo user time).ops m.grpStore) := sendsTo_ops htask
    have hwaits : ∀ {op : Op} {group : List String}, op.Sends task.1 group →
        ((Talk.group env isLogin chat memberInfo user time).WaitsFor P (op.apply []) ↔
          ∃ toId ∈ group, P toId) := by
      intro op group hgroup
      exact (waitsFor_sends hid hgrp hgroup P []).trans (or_iff_right hnil)
    constructor
    · rintro ⟨f, hf, hbeyond⟩
      obtain ⟨op, hop, rfl⟩ := List.mem_map.mp hf
      obtain ⟨group, hgroup, hto⟩ := hsends.sends op hop
      obtain ⟨toId, hmem, hP⟩ := (hwaits hgroup).mp hbeyond
      exact ⟨task, rfl, toId, hto toId hmem, hP⟩
    · rintro ⟨task', htask', toId, hto, hP⟩
      obtain rfl : task = task' := Option.some.inj htask'
      obtain ⟨op, hop, group, hgroup, hmem⟩ := hsends.all toId hto
      exact ⟨_, List.mem_map_of_mem hop, (hwaits hgroup).mpr ⟨toId, hmem, hP⟩⟩

end Group

/-- When the tasks of a chat and of its cancel have come to their ends in some order, and the cancel
was answered without an error, the chat is not pending exactly when the cancel has reached all
that was there, and no entry of the chat was written after the cancel had replaced or deleted. -/
theorem cancel_wins_iff (talk : Talk) {m : Mongo} {sched : Turns.Schedule}
    {p : Pool Turns.Party Mongo (Option ErrCode)}
    (hrun : Run.run Pool.step ⟨m, talk.tasks⟩ sched = some p) (hfinished : p.Finished)
    (hack : p.progs .second = done (some .nonErr)) :
    ¬ talk.Waits p.state.store ↔
      ¬ talk.Left m ∧ (talk.Stores m → .first ∉ Turns.behind^[talk.looks + 1] sched) := by
  have hends : ¬ (talk.tasks .second).Ends (· ≠ some .nonErr) := by
    intro hends
    have hend : (p.progs .second).Ends (· ≠ some .nonErr) := Pool.ends_of_run hends hrun
    rw [hack] at hend
    exact hend rfl
  suffices hwaits : talk.Waits p.state.store ↔
      talk.Left m ∨ (talk.Stores m ∧ .first ∈ Turns.behind^[talk.looks + 1] sched) by
    rw [hwaits, not_or, not_and]
  cases talk with
  | direct env cancelEnv msg time =>
    have hiff :=
      Withdraw.waits_iff (rules_direct env cancelEnv msg time m) (leads_msgChatTask _ env msg) trivial
      ((msgChatCancelTask_cases _ cancelEnv _).resolve_left hends) (Withdraw.keeps_true _) hrun hfinished
    rw [hiff, Talk.Stores, ne_eq, ne_eq, writesOf, List.map_eq_nil_iff]
    simp [Talk.Left, Talk.looks]
  | group env isLogin chat memberInfo user time =>
    have hrely : (fun s : Mongo => s.grpStore = m.grpStore) m := rfl
    have hiff := Withdraw.waits_iff (rules_group env isLogin chat memberInfo user time m)
      (leads_grpMsgChatTask _ _ m) hrely (withdraws_grpMsgChatCancelTask _ hends)
      (keeps_grpMsgChatCancelTask _ hends) hrun hfinished
    rw [hiff, exists_beyond_iff, Talk.Stores, ne_eq, ne_eq, writesOf, List.map_eq_nil_iff]
    exact or_assoc.symm

instance (talk : Talk) (store : Store) : Decidable (talk.Waits store) :=
  inferInstanceAs (Decidable (∃ doc ∈ store, _))

/-- The results of the two tasks, when they have come to their ends. -/
def results (p : Pool Turns.Party Mongo (Option ErrCode)) :
    Option (Option ErrCode) × Option (Option ErrCode) :=
  ((p.progs .first).result, (p.progs .second).result)

theorem finished_of_results {p : Pool Turns.Party Mongo (Option ErrCode)} {a b : Option ErrCode}
    (h : results p = (some a, some b)) : p.Finished ∧ p.progs .second = done b := by
  obtain ⟨hfirst, hsecond⟩ := Prod.mk.inj h
  refine ⟨?_, result_eq_some.mp hsecond⟩
  intro i
  cases i with
  | first => exact ⟨a, result_eq_some.mp hfirst⟩
  | second => exact ⟨b, result_eq_some.mp hsecond⟩

/-- A group of three of which one member is online. -/
def exampleTalk : Talk :=
  .group { memberInfo := some ["ann", "bob", "carl"] } (· = "bob") exampleChat
    (some ["ann", "bob", "carl"]) "ann" 2

/-- The cancel deletes after the entries have been written. -/
theorem cancel_wins_last :
    ∃ p, Run.run Pool.step ⟨⟨[], []⟩, exampleTalk.tasks⟩
        [.first, .second, .first, .second, .first, .second, .second, .second] = some p ∧
      ¬ exampleTalk.Waits p.state.store := by
  have hrun : (Run.run Pool.step ⟨⟨[], []⟩, exampleTalk.tasks⟩
      [.first, .second, .first, .second, .first, .second, .second, .second]).map results =
        some (some (some .nonErr), some (some .nonErr)) := by
    decide +kernel
  obtain ⟨p, hrun, hresults⟩ := Option.map_eq_some_iff.mp hrun
  obtain ⟨hfinished, hack⟩ := finished_of_results hresults
  have hmembers : ∀ task ∈
      (onGrpMsgChat { memberInfo := some ["ann", "bob", "carl"] } [] exampleChat).task,
      ∀ toId ∈ receivers task.1 task.2, toId ∈ ["ann", "bob", "carl"] := by
    decide +kernel
  refine ⟨p, hrun, (cancel_wins_iff exampleTalk hrun hfinished hack).mpr ⟨?_, fun _ => by decide⟩⟩
  rintro (⟨doc, hdoc, -⟩ | ⟨task, htask, toId, hto, hnot⟩)
  · cases hdoc
  · exact hnot (hmembers task htask toId hto)

/-- The cancel deletes when the chat has been answered, and before the entries are written. -/
theorem not_cancel_wins :
    ∃ p, Run.run Pool.step ⟨⟨[], []⟩, exampleTalk.tasks⟩
        [.first, .second, .second, .second, .second, .second, .first, .first] = some p ∧
      p.Finished ∧ p.progs .second = done (some .nonErr) ∧ exampleTalk.Waits p.state.store := by
  have hrun : (Run.run Pool.step ⟨⟨[], []⟩, exampleTalk.tasks⟩
      [.first, .second, .second, .second, .second, .second, .first, .first]).map
        (fun p => (results p, decide (exampleTalk.Waits p.state.store))) =
      some ((some (some .nonErr), some (some .nonErr)), true) := by
    decide +kernel
  obtain ⟨p, hrun, heq⟩ := Option.map_eq_some_iff.mp hrun
  obtain ⟨hresults, hwaits⟩ := Prod.mk.inj heq
  obtain ⟨hfinished, hack⟩ := finished_of_results hresults
  exact ⟨p, hrun, hfinished, hack, of_decide_eq_true hwaits⟩

end Msg

end ImServer
