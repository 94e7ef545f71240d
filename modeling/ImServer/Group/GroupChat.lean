import Mathlib.Data.Set.Basic
import ImServer.Group.GroupDb
import ImServer.Msg.GroupChat

/-!
# Refused group chats

The group server takes chats to groups too (group/groupchat.cpp), and stores them in the same
collection as the message server does. Both servers store a chat before they look at its sender,
and take it back if he may not send it. The document that is stored has the key of its
message id, its sender and its group; those that are taken back are all that have the message
id and the group.
-/

namespace ImServer

namespace Group

open Msg (MESGrpChat GroupChatCancel GrpStore GrpOfflineMsg GrpEnv)

structure ChatEnv where
  now : Nat := 1
  /-- Whether mongo takes the document. -/
  written : Bool := true

/-- The answer, the group messages, and the data of the group. -/
structure ChatResult where
  ack : Option Msg.ErrCode
  grpStore : GrpStore
  data : GroupData

def onGrpChatInserted (d : GroupData) (doc : GrpOfflineMsg) (inserted : Bool) (store : GrpStore) :
    ChatResult :=
  let (grpMem, d) := getGrpMem d doc.fromId
  match grpMem with
  | none => ⟨some .errChatForbidden, Msg.delGrpOfflineMsg doc.grpId doc.msgId store, d⟩
  | some .quitMember =>
    ⟨some .errChatForbidden, Msg.delGrpOfflineMsg doc.grpId doc.msgId store, d⟩
  | some _ => ⟨some (if inserted then .nonErr else .exceptErr), store, d⟩

/-- Why a chat is not stored: it is dropped without an answer, or answered with an error. -/
def checkChat (msg : MESGrpChat) : Option (Option Msg.ErrCode) :=
  if msg.grpId = "" ∨ msg.fromId = "" ∨ !Msg.isGrpIdValid msg.grpId then some none
  else if msg.content = "" then some (some .errChatUnhealthy)
  else none

def onChat (env : ChatEnv) (d : GroupData) (store : GrpStore) (msg : MESGrpChat) : ChatResult :=
  match checkChat msg with
  | some ack => ⟨ack, store, d⟩
  | none =>
    let doc := GrpOfflineMsg.ofChat { msg with msgTime := env.now }
    let (res, store) := Msg.insertGrpOfflineMsg env.written doc store
    onGrpChatInserted d doc (res ≠ .failed) store

/-- What `OnChatCancle` checks. -/
def checkChatCancel (msg : GroupChatCancel) : Bool :=
  msg.groupId ≠ "" && msg.fromId ≠ "" && msg.msgId ≠ "" && Msg.isGrpIdValid msg.groupId

/-- `HandleMsgChatCancelTask`: the answer, and the data. -/
def onChatCancel (d : GroupData) (msg : GroupChatCancel) : Option Msg.ErrCode × GroupData :=
  if !checkChatCancel msg then (none, d)
  else
    let (grpMem, d) := getGrpMem d msg.fromId
    match grpMem with
    | none => (some .errChatForbidden, d)
    | some .quitMember => (some .errChatForbidden, d)
    | some _ => (some .nonErr, d)

theorem onChat_data_of_check {msg : Msg.MESGrpChat} (hcheck : checkChat msg = none) (env : ChatEnv)
    (d : GroupData) (store : Msg.GrpStore) :
    (onChat env d store msg).data = (getGrpMem d msg.fromId).2 := by
  simp only [onChat, hcheck, onGrpChatInserted, Msg.GrpOfflineMsg.ofChat]
  split
  · rfl
  · rfl
  · rfl

theorem onChat_data (env : ChatEnv) (d : GroupData) (store : Msg.GrpStore) (msg : Msg.MESGrpChat) :
    (onChat env d store msg).data = d ∨
      checkChat msg = none ∧ (onChat env d store msg).data = (getGrpMem d msg.fromId).2 := by
  cases hcheck : checkChat msg with
  | some ack => exact .inl (by simp only [onChat, hcheck])
  | none => exact .inr ⟨rfl, onChat_data_of_check hcheck env d store⟩

theorem onChatCancel_data_of_check {msg : Msg.GroupChatCancel} (hcheck : checkChatCancel msg = true)
    (d : GroupData) : (onChatCancel d msg).2 = (getGrpMem d msg.fromId).2 := by
  simp only [onChatCancel, hcheck, Bool.not_true, Bool.false_eq_true, if_false]
  split
  · rfl
  · rfl
  · rfl

theorem onChatCancel_data (d : GroupData) (msg : Msg.GroupChatCancel) :
    (onChatCancel d msg).2 = d ∨
      checkChatCancel msg = true ∧ (onChatCancel d msg).2 = (getGrpMem d msg.fromId).2 := by
  cases hcheck : checkChatCancel msg with
  | false => exact .inl (by simp [onChatCancel, hcheck])
  | true => exact .inr ⟨rfl, onChatCancel_data_of_check hcheck d⟩

/-- The message waits, and is not one that the sender of the chat sent to its group. -/
def isPendingOther (msg : MESGrpChat) (doc : GrpOfflineMsg) : Bool :=
  doc.bPulled = 0 && (doc.fromId ≠ msg.fromId || doc.grpId ≠ msg.grpId)

/-- The waiting messages of all other senders and groups, which a chat should leave as they are. -/
def pendingOthers (msg : MESGrpChat) (store : GrpStore) : Set GrpOfflineMsg :=
  { doc | doc ∈ store ∧ isPendingOther msg doc = true }

/-- No other sender has a waiting message with the id in the group. -/
def OwnId (msg : MESGrpChat) (store : GrpStore) : Prop :=
  ∀ doc ∈ store, doc.bPulled = 0 → doc.grpId = msg.grpId → doc.msgId = msg.msgId →
    doc.fromId = msg.fromId

/-- The message server refuses the sender after the insert: the chat passes the checks and is
written, and only then the members are looked at. -/
def RefusesSender (env : GrpEnv) (store : GrpStore) (msg : MESGrpChat) : Prop :=
  Msg.checkGrpChat env msg = none ∧ env.written = true ∧ env.now ≠ 0 ∧
    (∀ doc ∈ store, doc.key ≠ msg.key) ∧ ∃ members, env.memberInfo = some members ∧ msg.fromId ∉ members

/-- The group server refuses the sender, whom it does not find or finds to have quit. -/
def RefusesMember (d : GroupData) (msg : MESGrpChat) : Prop :=
  checkChat msg = none ∧
    ((getGrpMem d msg.fromId).1 = none ∨ (getGrpMem d msg.fromId).1 = some .quitMember)

theorem isPendingOther_eq_true {msg : MESGrpChat} {doc : GrpOfflineMsg} :
    isPendingOther msg doc = true ↔
      doc.bPulled = 0 ∧ (doc.fromId ≠ msg.fromId ∨ doc.grpId ≠ msg.grpId) := by
  simp only [isPendingOther, Bool.and_eq_true, Bool.or_eq_true, decide_eq_true_eq]

theorem isPendingOther_of_key {msg : MESGrpChat} {doc : GrpOfflineMsg} (h : doc.key = msg.key) :
    isPendingOther msg doc = false := by
  obtain ⟨-, hfrom, hgrp⟩ := Msg.GrpMsgKey.mk.inj h
  simp [isPendingOther, hfrom, hgrp]

theorem pendingOthers_insert (written : Bool) (now : Nat) (msg : MESGrpChat) (store : GrpStore) :
    pendingOthers msg
        (Msg.insertGrpOfflineMsg written (.ofChat { msg with msgTime := now }) store).2 =
      pendingOthers msg store := by
  unfold Msg.insertGrpOfflineMsg
  split
  · have hfilter : (Collection.replaceOne
        (GrpOfflineMsg.ofChat { msg with msgTime := now }).keyDoc
        (.ofChat { msg with msgTime := now }) store).filter (isPendingOther msg) =
          store.filter (isPendingOther msg) := by
      refine Collection.filter_replaceOne (isPendingOther_of_key rfl) ?_ store
      exact fun doc hfound => isPendingOther_of_key (GrpOfflineMsg.keyDoc_eq_true.mp hfound)
    ext doc
    simp only [pendingOthers, Set.mem_ofPred_eq, ← List.mem_filter, hfilter]
  · rfl

/-- The removal takes every waiting message with the id in the group. -/
theorem mem_pendingOthers_del {msg : MESGrpChat} {store : GrpStore} {doc : GrpOfflineMsg} :
    doc ∈ pendingOthers msg (Msg.delGrpOfflineMsg msg.grpId msg.msgId store) ↔
      doc ∈ pendingOthers msg store ∧ ¬ (doc.grpId = msg.grpId ∧ doc.msgId = msg.msgId) := by
  simp only [pendingOthers, Set.mem_ofPred_eq, Msg.delGrpOfflineMsg]
  by_cases hwaits : doc.bPulled = 0
  · rw [Collection.mem_updateMany]
    · simp only [Msg.grpOfflineMsgKeys, Bool.and_eq_false_iff, decide_eq_false_iff_not]
      tauto
    · rintro doc' - rfl
      exact absurd hwaits (Nat.succ_ne_zero _)
  · have hnot : isPendingOther msg doc ≠ true := fun h => hwaits (isPendingOther_eq_true.mp h).1
    simp [hnot]

/-- The removal leaves all messages of others exactly if none of them has the id. -/
theorem pendingOthers_del_eq_iff {msg : MESGrpChat} {store : GrpStore} :
    pendingOthers msg (Msg.delGrpOfflineMsg msg.grpId msg.msgId store) = pendingOthers msg store ↔
      OwnId msg store := by
  constructor
  · intro heq doc hdoc hwaits hgrp hid
    by_contra hfrom
    have hmem : doc ∈ pendingOthers msg store :=
      ⟨hdoc, isPendingOther_eq_true.mpr ⟨hwaits, .inl hfrom⟩⟩
    rw [← heq] at hmem
    exact (mem_pendingOthers_del.mp hmem).2 ⟨hgrp, hid⟩
  · intro hown
    ext doc
    rw [mem_pendingOthers_del, and_iff_left_iff_imp]
    rintro ⟨hdoc, hother⟩ ⟨hgrp, hid⟩
    obtain ⟨hwaits, hfrom | hne⟩ := isPendingOther_eq_true.mp hother
    · exact hfrom (hown doc hdoc hwaits hgrp hid)
    · exact hne hgrp

/-- Whether others have a waiting message with the id does not depend on the insert. -/
theorem ownId_iff {msg : MESGrpChat} {store : GrpStore} :
    OwnId msg store ↔ ∀ doc ∈ pendingOthers msg store, doc.grpId = msg.grpId →
      doc.msgId ≠ msg.msgId := by
  constructor
  · rintro hown doc ⟨hdoc, hother⟩ hgrp hid
    obtain ⟨hwaits, hfrom | hne⟩ := isPendingOther_eq_true.mp hother
    · exact hfrom (hown doc hdoc hwaits hgrp hid)
    · exact hne hgrp
  · intro hnone doc hdoc hwaits hgrp hid
    by_contra hfrom
    exact hnone doc ⟨hdoc, isPendingOther_eq_true.mpr ⟨hwaits, .inl hfrom⟩⟩ hgrp hid

theorem ownId_insert (written : Bool) (now : Nat) (msg : MESGrpChat) (store : GrpStore) :
    OwnId msg (Msg.insertGrpOfflineMsg written (.ofChat { msg with msgTime := now }) store).2 ↔
      OwnId msg store := by
  rw [ownId_iff, ownId_iff, pendingOthers_insert]

/-- An insert and the removal leave all messages of others exactly if none of them has the id. -/
theorem pendingOthers_insert_del_eq_iff (written : Bool) (now : Nat) (msg : MESGrpChat)
    (store : GrpStore) :
    pendingOthers msg (Msg.delGrpOfflineMsg msg.grpId msg.msgId
        (Msg.insertGrpOfflineMsg written (.ofChat { msg with msgTime := now }) store).2) =
      pendingOthers msg store ↔ OwnId msg store := by
  rw [← ownId_insert written now, ← pendingOthers_del_eq_iff, pendingOthers_insert]

theorem onGrpMsgChat_grpStore (env : GrpEnv) (store : GrpStore) (msg : MESGrpChat) :
    (RefusesSender env store msg ∧ (Msg.onGrpMsgChat env store msg).grpStore =
      Msg.delGrpOfflineMsg msg.grpId msg.msgId (Msg.insertGrpOfflineMsg env.written
        (.ofChat { msg with msgTime := env.now }) store).2) ∨
    (¬ RefusesSender env store msg ∧ pendingOthers msg (Msg.onGrpMsgChat env store msg).grpStore =
      pendingOthers msg store) := by
  have hinsert := pendingOthers_insert env.written env.now msg store
  cases hcheck : Msg.checkGrpChat env msg with
  | some ack =>
    refine .inr ⟨fun h => ?_, ?_⟩
    · cases hcheck.symm.trans h.1
    · simp only [Msg.onGrpMsgChat, hcheck]
  | none =>
    simp only [Msg.onGrpMsgChat, hcheck, Msg.inserted_eq (Msg.msgId_ne_of_checkGrpChat hcheck)]
    by_cases htaken : env.written = true ∧ env.now ≠ 0
    · by_cases hstored : ∃ doc ∈ store, doc.key = msg.key
      · rw [if_pos htaken, if_pos hstored]
        refine .inr ⟨?_, hinsert⟩
        rintro ⟨-, -, -, hnone, -⟩
        obtain ⟨doc, hdoc, hkey⟩ := hstored
        exact hnone doc hdoc hkey
      · have hnone : ∀ doc ∈ store, doc.key ≠ msg.key :=
          fun doc hdoc hkey => hstored ⟨doc, hdoc, hkey⟩
        rw [if_pos htaken, if_neg hstored]
        simp only [Msg.onGrpChatInserted]
        cases hmembers : env.memberInfo with
        | none =>
          refine .inr ⟨?_, hinsert⟩
          rintro ⟨-, -, -, -, members, hsome, -⟩
          cases hmembers.symm.trans hsome
        | some members =>
          by_cases hmem : msg.fromId ∈ members
          · simp only [if_pos (show (GrpOfflineMsg.ofChat { msg with msgTime := env.now }).fromId ∈
              members from hmem)]
            refine .inr ⟨?_, hinsert⟩
            rintro ⟨-, -, -, -, members', hsome, hnot⟩
            obtain rfl := Option.some.inj (hmembers.symm.trans hsome)
            exact hnot hmem
          · simp only [if_neg (show (GrpOfflineMsg.ofChat { msg with msgTime := env.now }).fromId ∉
              members from hmem)]
            exact .inl ⟨⟨hcheck, htaken.1, htaken.2, hnone, members, hmembers, hmem⟩, rfl⟩
    · rw [if_neg htaken]
      refine .inr ⟨fun h => htaken ⟨h.2.1, h.2.2.1⟩, hinsert⟩

theorem onChat_grpStore (env : ChatEnv) (d : GroupData) (store : GrpStore) (msg : MESGrpChat) :
    (RefusesMember d msg ∧ (onChat env d store msg).grpStore =
      Msg.delGrpOfflineMsg msg.grpId msg.msgId (Msg.insertGrpOfflineMsg env.written
        (.ofChat { msg with msgTime := env.now }) store).2) ∨
    (¬ RefusesMember d msg ∧ pendingOthers msg (onChat env d store msg).grpStore =
      pendingOthers msg store) := by
  have hinsert := pendingOthers_insert env.written env.now msg store
  cases hcheck : checkChat msg with
  | some ack =>
    refine .inr ⟨fun h => ?_, ?_⟩
    · cases hcheck.symm.trans h.1
    · simp only [onChat, hcheck]
  | none =>
    simp only [onChat, hcheck, onGrpChatInserted]
    have hfrom : (GrpOfflineMsg.ofChat { msg with msgTime := env.now }).fromId = msg.fromId := rfl
    rw [hfrom]
    cases hmem : (getGrpMem d msg.fromId).1 with
    | none => exact .inl ⟨⟨hcheck, .inl hmem⟩, rfl⟩
    | some status =>
      cases status with
      | quitMember => exact .inl ⟨⟨hcheck, .inr hmem⟩, rfl⟩
      | _ => exact .inr ⟨fun h => by simp [RefusesMember, hmem] at h, hinsert⟩

/-- A group chat that ends with an error leaves the waiting messages of all other senders and
groups exactly if its sender is not refused as a member, or no other sender has a waiting
message with its id in its group. -/
theorem refused_keeps_others_iff (grpEnv : GrpEnv) (env : ChatEnv) (d : GroupData)
    (store : GrpStore) (msg : MESGrpChat) (err : Msg.ErrCode) :
    ((Msg.onGrpMsgChat grpEnv store msg).ack = some err → err ≠ .nonErr →
      (pendingOthers msg (Msg.onGrpMsgChat grpEnv store msg).grpStore = pendingOthers msg store ↔
        (RefusesSender grpEnv store msg → OwnId msg store))) ∧
    ((onChat env d store msg).ack = some err → err ≠ .nonErr →
      (pendingOthers msg (onChat env d store msg).grpStore = pendingOthers msg store ↔
        (RefusesMember d msg → OwnId msg store))) := by
  constructor
  · intro _ _
    obtain ⟨hrefused, hstore⟩ | ⟨hnot, hstore⟩ := onGrpMsgChat_grpStore grpEnv store msg
    · rw [hstore, pendingOthers_insert_del_eq_iff]
      exact ⟨fun hown _ => hown, fun hown => hown hrefused⟩
    · exact ⟨fun _ hrefused => absurd hrefused hnot, fun _ => hstore⟩
  · intro _ _
    obtain ⟨hrefused, hstore⟩ | ⟨hnot, hstore⟩ := onChat_grpStore env d store msg
    · rw [hstore, pendingOthers_insert_del_eq_iff]
      exact ⟨fun hown _ => hown, fun hown => hown hrefused⟩
    · exact ⟨fun _ hrefused => absurd hrefused hnot, fun _ => hstore⟩

def memberChat : MESGrpChat := ⟨"ann", "group00000000000000a1", "1", "hi", 5⟩

def strangerChat (msgId : String) : MESGrpChat := ⟨"eve", "group00000000000000a1", msgId, "hi", 0⟩

def strangerEnv : GrpEnv := { memberInfo := some ["ann", "bob"] }

/-- Both servers refuse a stranger whose message id nobody else has. -/
theorem refused_keeps_others_own_id :
    pendingOthers (strangerChat "2")
        (Msg.onGrpMsgChat strangerEnv [.ofChat memberChat] (strangerChat "2")).grpStore =
      pendingOthers (strangerChat "2") [.ofChat memberChat] ∧
    pendingOthers (strangerChat "2") (onChat {} {} [.ofChat memberChat] (strangerChat "2")).grpStore =
      pendingOthers (strangerChat "2") [.ofChat memberChat] := by
  have hown : OwnId (strangerChat "2") [.ofChat memberChat] := by
    intro doc hdoc _ _ hid
    obtain rfl := List.mem_singleton.mp hdoc
    exact absurd hid (by decide)
  have hiff := refused_keeps_others_iff strangerEnv {} {} [.ofChat memberChat] (strangerChat "2")
    .errChatForbidden
  constructor
  · exact (hiff.1 (by decide +kernel) (by decide)).mpr fun _ => hown
  · exact (hiff.2 (by decide +kernel) (by decide)).mpr fun _ => hown

/-- A stranger who is refused takes back the waiting message of a member whose id he uses. -/
theorem refused_takes_member_chat :
    (Msg.onGrpMsgChat strangerEnv [.ofChat memberChat] (strangerChat "1")).ack =
        some .errChatForbidden ∧
      GrpOfflineMsg.ofChat memberChat ∈ pendingOthers (strangerChat "1") [.ofChat memberChat] ∧
      GrpOfflineMsg.ofChat memberChat ∉ pendingOthers (strangerChat "1")
        (Msg.onGrpMsgChat strangerEnv [.ofChat memberChat] (strangerChat "1")).grpStore ∧
      (onChat {} {} [.ofChat memberChat] (strangerChat "1")).ack = some .errChatForbidden ∧
      GrpOfflineMsg.ofChat memberChat ∉ pendingOthers (strangerChat "1")
        (onChat {} {} [.ofChat memberChat] (strangerChat "1")).grpStore := by
  refine ⟨by decide +kernel, ⟨by decide, by decide⟩, ?_, by decide +kernel, ?_⟩
  · intro h
    exact absurd h.1 (by decide +kernel)
  · intro h
    exact absurd h.1 (by decide +kernel)

end Group

end ImServer
