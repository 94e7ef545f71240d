import ImServer.Base.PduSetters
import ImServer.Group.FanOut
import ImServer.Msg.WrittenDocs
import Mathlib.Algebra.Order.BigOperators.Group.List
import Mathlib.Algebra.Order.Group.Nat

/-!
# The size of what is sent

`SetPBMsg` takes a message of any size, and the length of a PDU has 16 bits. The group server
passes a chat on with up to 500 receivers, whatever the size of the chat (group/groupchat.cpp).
The message server fills an answer with pending entries up to a limit, but puts the message id
of the request on top of that (msg/offLineMsgHandle.cpp).
-/

namespace ImServer

open Protobuf

/-- The calls of `sendReq`, in their order: the body comes before the command. -/
def sendReq (fields : List Field) (commandId : UInt16) : List CImPdu.Setter :=
  [.pbMsg (encode fields), .commandId commandId]

/-- The calls of `sendAck`. -/
def sendAck (fields : List Field) (commandId : UInt16) (sessionId : UidCode) : List CImPdu.Setter :=
  [.pbMsg (encode fields), .sessionId sessionId, .commandId commandId]

/-- The receiver reads the PDU with the same command and session id, and its body is the message. -/
def Arrives (ops : List CImPdu.Setter) (commandId : UInt16) (sessionId : UidCode)
    (fields : List Field) : Prop :=
  CImPdu.RoundTrip {} ops commandId sessionId (encode fields) ∧
    decode (encode fields) = some fields

theorem arrives_sendReq_iff {fields : List Field} {commandId : UInt16} :
    Arrives (sendReq fields commandId) commandId ({} : CImPdu).header.sessionId fields ↔
      byteSize fields ≤ CImPdu.maxBody := by
  constructor
  · exact fun h => h.1.length_le
  · intro hsize
    have hfits : (encode fields).length ≤ CImPdu.maxBody := hsize
    obtain ⟨p, hp, hholds, hheader⟩ := CImPdu.setPBMsg_holds CImPdu.settable_fresh.1 hfits
    obtain ⟨q, hq, hholds, hqheader⟩ := hholds.setCommandId commandId
    obtain ⟨bytes, hsent, hread⟩ := hholds.readsBack hsize
    rw [hqheader, hheader] at hread
    refine ⟨⟨q, bytes, ?_, hsent, hread⟩, decode_encode fields⟩
    simp only [CImPdu.applyAll, sendReq, List.foldlM_cons, List.foldlM_nil, CImPdu.Setter.apply, hp,
      Exec.ok_bind, hq, Exec.pure_eq]

theorem arrives_sendAck_iff {fields : List Field} {commandId : UInt16} {sessionId : UidCode} :
    Arrives (sendAck fields commandId sessionId) commandId sessionId fields ↔
      byteSize fields ≤ CImPdu.maxBody := by
  have hperm : (sendAck fields commandId sessionId).Perm
      [.commandId commandId, .sessionId sessionId, .pbMsg (encode fields)] :=
    List.reverse_perm ([.commandId commandId, .sessionId sessionId, .pbMsg (encode fields)] :
      List CImPdu.Setter)
  have hround := CImPdu.roundTrip_iff CImPdu.settable_fresh hperm
  constructor
  · exact fun h => h.1.length_le
  · exact fun hsize => ⟨hround.mpr ⟨hsize, fun _ => rfl⟩, decode_encode fields⟩

namespace Group

/-- The fields of a chat; the file of the protocol has no number for the last one. -/
def GroupChat.fields (extend : Nat) (msg : GroupChat) : List Field :=
  text 1 (utf8 msg.fromId) ++ text 2 (utf8 msg.groupId) ++ scalar 3 msg.notifyCount ++
    repeated 4 (msg.notifyUsers.map utf8) ++ text 5 (utf8 msg.msgId) ++ scalar 6 msg.msgTime ++
    scalar 7 msg.encrypt ++ text 8 (utf8 msg.content) ++ text extend (utf8 msg.extend)

def MESGrpInterChat.fields (extend : Nat) (msg : MESGrpInterChat) : List Field :=
  text 1 (utf8 msg.fromId) ++ text 2 (utf8 msg.grpId) ++ repeated 3 (msg.toId.map utf8) ++
    scalar 4 msg.notifyCount ++ text 5 (utf8 msg.msgId) ++ scalar 6 msg.msgType ++
    scalar 7 msg.msgTime ++ scalar 8 msg.encrypt ++ text 9 (utf8 msg.content) ++
    repeated 10 (msg.notifyUsers.map utf8) ++ text extend (utf8 msg.extend)

/-- What each PDU of a chat has besides its receivers. -/
def GroupChat.passedOn (extend : Nat) (msg : GroupChat) : List Field :=
  text 1 (utf8 msg.fromId) ++ text 2 (utf8 msg.groupId) ++ scalar 4 msg.notifyCount ++
    text 5 (utf8 msg.msgId) ++ scalar 7 msg.msgTime ++ scalar 8 msg.encrypt ++
    text 9 (utf8 msg.content) ++ repeated 10 (msg.notifyUsers.map utf8) ++
    text extend (utf8 msg.extend)

/-- The active members but the sender, by their ids. -/
def chatReceivers (grpmems : Members) (msg : GroupChat) : List String :=
  toIds grpmems fun userId => userId = msg.fromId

/-- The size of the ids of receivers in a PDU. -/
def idsSize (ids : List String) : Nat := (ids.map fun userId => lengthSize 3 userId.utf8ByteSize).sum

theorem byteSize_repeated_utf8 (ids : List String) :
    byteSize (repeated 3 (ids.map utf8)) = idsSize ids := by
  rw [byteSize_repeated, List.map_map]
  rfl

/-- There is room for each 500 receivers in a row. -/
def RoomForIds (extend : Nat) (grpmems : Members) (msg : GroupChat) : Prop :=
  ∀ k, 500 * k < (chatReceivers grpmems msg).length →
    byteSize (msg.passedOn extend) + idsSize (((chatReceivers grpmems msg).drop (500 * k)).take 500) ≤
      CImPdu.maxBody

theorem grpChatToMsg_arrives_iff (extend : Nat) (grpmems : Members) (msg : GroupChat)
    (commandId : UInt16) :
    (∀ pdu ∈ grpChatToMsg grpmems msg, Arrives (sendReq (pdu.fields extend) commandId) commandId
      ({} : CImPdu).header.sessionId (pdu.fields extend)) ↔ RoomForIds extend grpmems msg := by
  have hsize : ∀ batch : List String,
      byteSize (MESGrpInterChat.fields extend
        { fromId := msg.fromId, grpId := msg.groupId, toId := batch, notifyCount := msg.notifyCount
          msgId := msg.msgId, msgTime := msg.msgTime, encrypt := msg.encrypt, content := msg.content
          notifyUsers := msg.notifyUsers, extend := msg.extend }) =
        byteSize (msg.passedOn extend) + idsSize batch := by
    intro batch
    have hnone : byteSize (scalar 6 0) = 0 := rfl
    simp only [MESGrpInterChat.fields, GroupChat.passedOn, byteSize_append, byteSize_repeated_utf8,
      hnone]
    omega
  refine (forall₂_congr fun pdu _ => arrives_sendReq_iff).trans ?_
  simp only [RoomForIds, grpChatToMsg, sendToMems, List.forall_mem_map, hsize,
    Batch.mem_cut_iff (by decide : 0 < maxStoid)]
  constructor
  · exact fun h k hk => h _ ⟨k, hk, rfl⟩
  · rintro h batch ⟨k, hk, rfl⟩
    exact h k hk

end Group

namespace Msg

/-- What an answer has besides its entries, whose sizes the filling of a page has to allow for. -/
def MESOfflineMsgAck.head (ack : MESOfflineMsgAck) : List Field :=
  text 1 (utf8 ack.fromId) ++ text 2 (utf8 ack.toId) ++ scalar 4 ack.errcode ++
    text 5 (utf8 ack.msgId) ++ scalar 6 ack.msgTime ++ scalar 14 ack.msgTotal

/-- The size of an entry in an answer. -/
def OfflineMsgData.entrySize (data : OfflineMsgData) : Nat := lengthSize 13 data.byteSize

theorem MESOfflineMsgAck.byteSize_eq (ack : MESOfflineMsgAck) :
    ack.byteSize = Protobuf.byteSize ack.head + (ack.msglist.map (·.entrySize)).sum := by
  have hentries : Protobuf.byteSize (repeated 13 (ack.msglist.map fun data => encode data.fields)) =
      (ack.msglist.map (·.entrySize)).sum := by
    rw [byteSize_repeated, List.map_map]
    rfl
  simp only [byteSize, fields, head, byteSize_append, hentries]
  omega

theorem entrySize_withoutData_le (data : OfflineMsgData) :
    ({ data with msgData := [] } : OfflineMsgData).entrySize ≤ data.entrySize := by
  refine lengthSize_mono ?_
  have hnone : Protobuf.byteSize (text 2 []) = 0 := rfl
  simp only [OfflineMsgData.byteSize, OfflineMsgData.fields, byteSize_append, hnone]
  omega

/-- Entries of group chats have no data of their own. -/
def BareEntries (entries : List OfflineMsgData) : Prop :=
  ∀ data ∈ entries, isGrpEntry data = true → data.msgData = []

section Fill

variable {cursors : String → Cursor} {grpStore : GrpStore} {maxLen : Int}

/-- The entry that is written is the first one of a group chat with the message id. -/
theorem exists_setMsgData {entries : List OfflineMsgData} {msgId : String}
    (h : (entries.any fun data => isGrpEntry data && data.msgId = msgId) = true) :
    ∃ pre data post, entries = pre ++ data :: post ∧ isGrpEntry data = true ∧ data.msgId = msgId ∧
      (∀ earlier ∈ pre, (isGrpEntry earlier && earlier.msgId = msgId) = false) ∧
      ∀ content, setMsgData msgId content entries = pre ++ { data with msgData := content } :: post := by
  induction entries with
  | nil => cases h
  | cons data rest ih =>
    by_cases hdata : (isGrpEntry data && data.msgId = msgId) = true
    · obtain ⟨hgrp, hid⟩ := Bool.and_eq_true_iff.mp hdata
      refine ⟨[], data, rest, rfl, hgrp, of_decide_eq_true hid, nofun, fun content => ?_⟩
      rw [setMsgData, if_pos hdata, List.nil_append]
    · have hrest : (rest.any fun data => isGrpEntry data && data.msgId = msgId) = true := by
        rw [List.any_cons, Bool.eq_false_iff.mpr hdata, Bool.false_or] at h
        exact h
      obtain ⟨pre, found, post, rfl, hgrp, hid, hpre, hset⟩ := ih hrest
      refine ⟨data :: pre, found, post, rfl, hgrp, hid, ?_, fun content => ?_⟩
      · exact List.forall_mem_cons.mpr ⟨Bool.eq_false_iff.mpr hdata, hpre⟩
      · rw [setMsgData, if_neg hdata, hset, List.cons_append]

theorem byteSize_filled (ack : MESOfflineMsgAck) (entries : List OfflineMsgData) :
    ({ ack with msglist := entries } : MESOfflineMsgAck).byteSize =
      Protobuf.byteSize ack.head + (entries.map (·.entrySize)).sum :=
  MESOfflineMsgAck.byteSize_eq _

theorem byteSize_fillContents_le (maxLen : Int) (items : List MsgIdContents) (ack : MESOfflineMsgAck) :
    ((fillContents maxLen items ack).1.byteSize : Int) ≤ max (ack.byteSize : Int) (maxLen - 2001) := by
  induction items generalizing ack with
  | nil => exact Int.le_max_left _ _
  | cons item items ih =>
    simp only [fillContents]
    split
    · next hfound =>
      obtain ⟨pre, data, post, hlist, -, -, -, hset⟩ := exists_setMsgData hfound
      split
      · have hless := entrySize_withoutData_le data
        rw [byteSize_filled, ack.byteSize_eq, hset, hlist]
        simp only [List.map_append, List.map_cons, List.sum_append, List.sum_cons]
        omega
      · next htouched =>
        have hshort := of_decide_eq_false (Bool.eq_false_iff.mpr htouched)
        have hrest := ih { ack with msglist := setMsgData item.msgId item.content ack.msglist }
        omega
    · exact ih ack

theorem byteSize_fillGroups_le (cursors : String → Cursor) (grpStore : GrpStore) (maxLen : Int)
    (groups : List (String × List String)) (ack : MESOfflineMsgAck) :
    ((fillGroups cursors grpStore maxLen groups ack).1.byteSize : Int) ≤
      max (ack.byteSize : Int) (maxLen - 2001) := by
  induction groups generalizing ack with
  | nil => exact Int.le_max_left _ _
  | cons group groups ih =>
    have hfirst := byteSize_fillContents_le maxLen
      (getGrpOfflineMsgData (cursors group.1) grpStore group.1 group.2) ack
    simp only [fillGroups]
    split
    · exact hfirst
    · have hrest := ih (fillContents maxLen
        (getGrpOfflineMsgData (cursors group.1) grpStore group.1 group.2) ack).1
      simp only
      omega

theorem fillContents_eq_of_le {ack : MESOfflineMsgAck} (hbare : BareEntries ack.msglist)
    (hlong : maxLen - 2000 ≤ (ack.byteSize : Int)) (items : List MsgIdContents) :
    (fillContents maxLen items ack).1 = ack := by
  induction items with
  | nil => rfl
  | cons item items ih =>
    simp only [fillContents]
    split
    · next hfound =>
      obtain ⟨pre, data, post, hlist, hgrp, -, -, hset⟩ := exists_setMsgData hfound
      have hmem : data ∈ ack.msglist := hlist ▸ List.mem_append_right _ List.mem_cons_self
      have hempty : data.msgData = [] := hbare data hmem hgrp
      have hdata : ({ data with msgData := [] } : OfflineMsgData) = data := by rw [← hempty]
      have hmore : data.entrySize ≤
          ({ data with msgData := item.content } : OfflineMsgData).entrySize := by
        have hle := entrySize_withoutData_le { data with msgData := item.content }
        rw [hdata] at hle
        exact hle
      have htouched : isMaxLenLimitTouched
          { ack with msglist := setMsgData item.msgId item.content ack.msglist } maxLen = true := by
        refine decide_eq_true ?_
        rw [ack.byteSize_eq, hlist] at hlong
        rw [byteSize_filled, hset]
        simp only [List.map_append, List.map_cons, List.sum_append, List.sum_cons] at hlong ⊢
        omega
      rw [if_pos htouched, hset, hdata, ← hlist]
    · exact ih

theorem fillGroups_eq_of_le (cursors : String → Cursor) (grpStore : GrpStore) {ack : MESOfflineMsgAck}
    (hbare : BareEntries ack.msglist) (hlong : maxLen - 2000 ≤ (ack.byteSize : Int))
    (groups : List (String × List String)) :
    (fillGroups cursors grpStore maxLen groups ack).1 = ack := by
  induction groups with
  | nil => rfl
  | cons group groups ih =>
    simp only [fillGroups, fillContents_eq_of_le hbare hlong]
    split
    · rfl
    · exact ih

end Fill

section Answer

variable {env : PullEnv} {cursors : String → Cursor} {grpStore : GrpStore} {toId msgId : String}
  {store : Store}

theorem offlinePage_of_zero (hzero : ¬ 0 < getUserOfflineMsgSummaryBytoId env toId store) :
    offlinePage env toId msgId store = { toId := toId, errcode := nonErr, msgId := msgId } := by
  have hnone : store.filter (isPullable env toId) = [] := by
    refine List.eq_nil_of_length_eq_zero ?_
    rw [← List.countP_eq_length_filter]
    exact Nat.eq_zero_of_not_pos hzero
  simp only [offlinePage, getUserOfflineMsg, pullable, hnone, List.insertionSort_nil]
  rfl

/-- The answer is the page with its group messages, the time and the number of pending entries. -/
theorem pullAnswer_eq :
    (pullAnswer env cursors grpStore toId msgId store).1 =
      { (getGrpOfflineMsgContent cursors grpStore 65535 (offlinePage env toId msgId store)).1 with
        msgTime := env.now % 2 ^ 64
        msgTotal := getUserOfflineMsgSummaryBytoId env toId store % 2 ^ 32 } := by
  simp only [pullAnswer]
  split
  · rfl
  · next hzero =>
    rw [offlinePage_of_zero hzero]
    rfl

theorem pullAnswer_dirty :
    (pullAnswer env cursors grpStore toId msgId store).2 =
      (getGrpOfflineMsgContent cursors grpStore 65535 (offlinePage env toId msgId store)).2 := by
  simp only [pullAnswer]
  split
  · rfl
  · next hzero =>
    rw [offlinePage_of_zero hzero]
    rfl

theorem fillContents_eq (maxLen : Int) (items : List MsgIdContents) (ack : MESOfflineMsgAck) :
    ∃ entries, (fillContents maxLen items ack).1 = { ack with msglist := entries } := by
  induction items generalizing ack with
  | nil => exact ⟨ack.msglist, rfl⟩
  | cons item items ih =>
    simp only [fillContents]
    split
    · split
      · exact ⟨_, rfl⟩
      · exact ih _
    · exact ih ack

theorem fillGroups_eq (cursors : String → Cursor) (grpStore : GrpStore) (maxLen : Int)
    (groups : List (String × List String)) (ack : MESOfflineMsgAck) :
    ∃ entries, (fillGroups cursors grpStore maxLen groups ack).1 = { ack with msglist := entries } := by
  induction groups generalizing ack with
  | nil => exact ⟨ack.msglist, rfl⟩
  | cons group groups ih =>
    obtain ⟨entries, hfirst⟩ := fillContents_eq maxLen
      (getGrpOfflineMsgData (cursors group.1) grpStore group.1 group.2) ack
    simp only [fillGroups, hfirst]
    split
    · exact ⟨entries, rfl⟩
    · exact ih _

theorem entrySize_clear : ({} : OfflineMsgData).entrySize = 2 := by
  have hsize : ({} : OfflineMsgData).byteSize = 0 := rfl
  rw [OfflineMsgData.entrySize, hsize, lengthSize, varint_of_lt (by decide), varint_of_lt (by decide)]
  rfl

/-- The entries of a page when those of group chats are cleared. -/
def clearedSize (entries : List OfflineMsgData) : Nat :=
  (entries.map fun data => if isGrpEntry data then 2 else data.entrySize).sum

theorem byteSize_clearEmpty_le (ack : MESOfflineMsgAck) : (clearEmpty ack).byteSize ≤ ack.byteSize := by
  have hentries : ((clearEmpty ack).msglist.map (·.entrySize)).sum ≤
      (ack.msglist.map (·.entrySize)).sum := by
    rw [clearEmpty, List.map_map]
    refine List.sum_le_sum fun data _ => ?_
    simp only [Function.comp_apply]
    split
    · exact lengthSize_mono (Nat.zero_le _)
    · exact Nat.le_refl _
  have hhead : (clearEmpty ack).head = ack.head := rfl
  rw [MESOfflineMsgAck.byteSize_eq, ack.byteSize_eq, hhead]
  omega

theorem entrySize_clearEmpty {ack : MESOfflineMsgAck} (hbare : BareEntries ack.msglist) :
    ((clearEmpty ack).msglist.map (·.entrySize)).sum = clearedSize ack.msglist := by
  rw [clearEmpty, List.map_map, clearedSize]
  congr 1
  refine List.map_congr_left fun data hdata => ?_
  simp only [Function.comp_apply]
  cases hgrp : isGrpEntry data with
  | false => simp
  | true => simp [hbare data hdata hgrp, entrySize_clear]

/-- The time and the number of an answer. -/
def answerTail (env : PullEnv) (toId : String) (store : Store) : List Field :=
  scalar 6 (env.now % 2 ^ 64) ++
    scalar 14 (getUserOfflineMsgSummaryBytoId env toId store % 2 ^ 32)

theorem byteSize_answerTail_le (env : PullEnv) (toId : String) (store : Store) :
    byteSize (answerTail env toId store) ≤ 17 := by
  have htime : env.now % 2 ^ 64 < 128 ^ (9 + 1) :=
    Nat.lt_of_lt_of_le (Nat.mod_lt _ (by decide)) (by decide)
  have htotal : getUserOfflineMsgSummaryBytoId env toId store % 2 ^ 32 < 128 ^ (4 + 1) :=
    Nat.lt_of_lt_of_le (Nat.mod_lt _ (by decide)) (by decide)
  have h₁ : byteSize (scalar 6 _) ≤ _ := byteSize_scalar_le htime
  have h₂ : byteSize (scalar 14 _) ≤ _ := byteSize_scalar_le htotal
  rw [varint_of_lt (by decide), List.length_singleton] at h₁ h₂
  rw [answerTail, byteSize_append]
  omega

/-- The page and the message id of the request are short enough for messages of groups to be
filled in, or all entries that have data fit the answer. -/
def RoomForId (env : PullEnv) (toId msgId : String) (store : Store) : Prop :=
  let page := getUserOfflineMsg env toId 65535 100 store
  page.byteSize + byteSize (text 5 (utf8 msgId)) < 63535 ∨
    byteSize page.head + byteSize (text 5 (utf8 msgId)) + byteSize (answerTail env toId store) +
      clearedSize page.msglist ≤ CImPdu.maxBody

theorem addEntries_eq (env : PullEnv) (docs : List OfflineMsg) (maxLen : Int) (ack : MESOfflineMsgAck) :
    ∃ entries, addEntries env docs maxLen ack = { ack with msglist := entries } := by
  induction docs generalizing maxLen ack with
  | nil => exact ⟨ack.msglist, rfl⟩
  | cons doc docs ih =>
    simp only [addEntries]
    generalize (if doc.cmdId = mesGrpchatDeliver then maxLen - 200 else maxLen) = rest
    split
    · exact ⟨ack.msglist, rfl⟩
    · exact ih rest (ack.add (doc.data env))

theorem offlinePage_eq (env : PullEnv) (toId msgId : String) (store : Store) :
    ∃ entries, getUserOfflineMsg env toId 65535 100 store =
        { toId := toId, errcode := nonErr, msglist := entries } ∧
      offlinePage env toId msgId store =
        { toId := toId, errcode := nonErr, msgId := msgId, msglist := entries } := by
  obtain ⟨entries, hentries⟩ :=
    addEntries_eq env (pullable env toId 100 store) 65535 { toId := toId }
  have hpage : getUserOfflineMsg env toId 65535 100 store =
      { toId := toId, errcode := nonErr, msglist := entries } := by
    rw [getUserOfflineMsg, hentries]
  exact ⟨entries, hpage, by rw [offlinePage, hpage]⟩

theorem byteSize_offlinePage (env : PullEnv) (toId msgId : String) (store : Store) :
    (offlinePage env toId msgId store).byteSize =
      (getUserOfflineMsg env toId 65535 100 store).byteSize + byteSize (text 5 (utf8 msgId)) := by
  obtain ⟨entries, hpage, hoffline⟩ :=
    offlinePage_eq env toId msgId store
  have hnone : byteSize (text 5 (utf8 "")) = 0 := rfl
  rw [hpage, hoffline, MESOfflineMsgAck.byteSize_eq, MESOfflineMsgAck.byteSize_eq]
  simp only [MESOfflineMsgAck.head, byteSize_append, hnone]
  omega

/-- The size of the answer is that of the filled page and of the numbers that are set last. -/
theorem byteSize_answer :
    (pullAnswer env cursors grpStore toId msgId store).1.byteSize =
      (getGrpOfflineMsgContent cursors grpStore 65535 (offlinePage env toId msgId store)).1.byteSize +
        byteSize (answerTail env toId store) := by
  obtain ⟨_, -, hoffline⟩ :=
    offlinePage_eq env toId msgId store
  obtain ⟨entries, hentries⟩ := fillGroups_eq cursors grpStore 65535
    (grpMsgIds (offlinePage env toId msgId store)) (offlinePage env toId msgId store)
  have hcontent : (getGrpOfflineMsgContent cursors grpStore 65535 (offlinePage env toId msgId store)).1 =
      clearEmpty { toId := toId, errcode := nonErr, msgId := msgId, msglist := entries } := by
    rw [hoffline] at hentries ⊢
    exact congrArg clearEmpty hentries
  have hzero : ∀ number, byteSize (scalar number 0) = 0 := fun _ => rfl
  rw [pullAnswer_eq, hcontent, MESOfflineMsgAck.byteSize_eq, MESOfflineMsgAck.byteSize_eq]
  simp only [clearEmpty, MESOfflineMsgAck.head, answerTail, byteSize_append, hzero]
  omega

theorem bareEntries_offlinePage (env : PullEnv) (toId msgId : String)
    (hstore : ∀ doc ∈ store, Written doc) :
    BareEntries (offlinePage env toId msgId store).msglist := by
  intro data hdata hgrp
  obtain ⟨doc, hdoc, -, -, rfl⟩ := mem_getUserOfflineMsg hdata
  exact (hstore doc hdoc).bare (of_decide_eq_true hgrp)

/-- A page that is too long already is answered as it is, but for its cleared entries. -/
theorem byteSize_answer_of_long (hstore : ∀ doc ∈ store, Written doc)
    (hlong : (65535 : Int) - 2000 ≤ ((offlinePage env toId msgId store).byteSize : Int)) :
    (getGrpOfflineMsgContent cursors grpStore 65535 (offlinePage env toId msgId store)).1.byteSize =
      byteSize (getUserOfflineMsg env toId 65535 100 store).head + byteSize (text 5 (utf8 msgId)) +
        clearedSize (getUserOfflineMsg env toId 65535 100 store).msglist := by
  have hbare := bareEntries_offlinePage env toId msgId hstore
  have hfill := fillGroups_eq_of_le cursors grpStore hbare hlong
    (grpMsgIds (offlinePage env toId msgId store))
  have hcleared := entrySize_clearEmpty hbare
  obtain ⟨entries, hpage, hoffline⟩ :=
    offlinePage_eq env toId msgId store
  have hnone : byteSize (text 5 (utf8 "")) = 0 := rfl
  simp only [getGrpOfflineMsgContent, hfill]
  rw [MESOfflineMsgAck.byteSize_eq, hcleared, hpage, hoffline]
  simp only [clearEmpty, MESOfflineMsgAck.head, byteSize_append, hnone]
  omega

/-- The answer arrives exactly when there is room for the message id of the request. -/
theorem answer_arrives_iff (hstore : ∀ doc ∈ store, Written doc) (commandId : UInt16)
    (sessionId : UidCode) :
    let answer := (pullAnswer env cursors grpStore toId msgId store).1
    Arrives (sendAck answer.fields commandId sessionId) commandId sessionId answer.fields ↔
      RoomForId env toId msgId store := by
  intro answer
  have hsize : byteSize answer.fields = (getGrpOfflineMsgContent cursors grpStore 65535
      (offlinePage env toId msgId store)).1.byteSize + byteSize (answerTail env toId store) :=
    byteSize_answer
  have hpage := byteSize_offlinePage env toId msgId store
  have htail := byteSize_answerTail_le env toId store
  rw [arrives_sendAck_iff, hsize, RoomForId]
  obtain hshort | hlong := Nat.lt_or_ge (offlinePage env toId msgId store).byteSize 63535
  · have hfilled := byteSize_fillGroups_le cursors grpStore 65535
      (grpMsgIds (offlinePage env toId msgId store)) (offlinePage env toId msgId store)
    have hcleared := byteSize_clearEmpty_le (fillGroups cursors grpStore 65535
      (grpMsgIds (offlinePage env toId msgId store)) (offlinePage env toId msgId store)).1
    have hfits : (getGrpOfflineMsgContent cursors grpStore 65535
        (offlinePage env toId msgId store)).1.byteSize ≤ 63534 := by
      refine Nat.le_trans hcleared ?_
      omega
    have hmax : CImPdu.maxBody = 65515 := rfl
    exact iff_of_true (by omega) (.inl (by omega))
  · rw [byteSize_answer_of_long hstore (by omega)]
    constructor
    · exact fun h => .inr (by omega)
    · exact fun h => by omega

end Answer

end Msg

def mesGrpinterchat : UInt16 := 0xb071

def mesOfflinemsgAck : UInt16 := 0xb016

/-- What is sent arrives exactly when there is room for the receivers of a chat, and for the
message id that the client has put into its request. -/
theorem sent_arrives_iff (extend : Nat) (grpmems : Group.Members) (chat : Group.GroupChat)
    (env : Msg.PullEnv) (cursors : String → Msg.Cursor) (grpStore : Msg.GrpStore) (toId msgId : String)
    (store : Msg.Store) (sessionId : UidCode) (hstore : ∀ doc ∈ store, Msg.Written doc) :
    let answer := (Msg.pullAnswer env cursors grpStore toId msgId store).1
    ((∀ pdu ∈ Group.grpChatToMsg grpmems chat,
        Arrives (sendReq (pdu.fields extend) mesGrpinterchat) mesGrpinterchat
          ({} : CImPdu).header.sessionId (pdu.fields extend)) ↔
      Group.RoomForIds extend grpmems chat) ∧
    (Arrives (sendAck answer.fields mesOfflinemsgAck sessionId) mesOfflinemsgAck sessionId
        answer.fields ↔
      Msg.RoomForId env toId msgId store) :=
  ⟨Group.grpChatToMsg_arrives_iff extend grpmems chat mesGrpinterchat,
    Msg.answer_arrives_iff hstore mesOfflinemsgAck sessionId⟩

def annAndBob : Group.Members :=
  ((∅ : Group.Members).insert "ann" .applyMember).insert "bob" .applyMember

/-- A chat to one other member, and the page with his entry. -/
theorem sent_arrives_example :
    let msg : Msg.MESGrpChat := ⟨"ann", "group00000000000000a1", "1", "hi", 1⟩
    let chat : Group.GroupChat :=
      { fromId := "ann", groupId := msg.grpId, msgId := "1", content := "hi" }
    let answer := (Msg.pullAnswer {} (fun _ => .success) [.ofChat msg] "bob" "r"
      [.ofGrpChat msg "bob"]).1
    (∀ pdu ∈ Group.grpChatToMsg annAndBob chat,
      Arrives (sendReq (pdu.fields 11) mesGrpinterchat) mesGrpinterchat
        ({} : CImPdu).header.sessionId (pdu.fields 11)) ∧
    Arrives (sendAck answer.fields mesOfflinemsgAck (Vector.replicate 12 7)) mesOfflinemsgAck
      (Vector.replicate 12 7) answer.fields := by
  intro msg chat answer
  have hwritten : ∀ doc ∈ [Msg.OfflineMsg.ofGrpChat msg "bob"], Msg.Written doc :=
    List.forall_mem_singleton.mpr (.ofGrpChat (by decide) "bob")
  have harrives := sent_arrives_iff 11 annAndBob chat {} (fun _ => .success) [.ofChat msg] "bob" "r"
    [.ofGrpChat msg "bob"] (Vector.replicate 12 7) hwritten
  refine ⟨harrives.1.mpr ?_, harrives.2.mpr (.inl (by decide +kernel))⟩
  intro k hk
  have hone : (Group.chatReceivers annAndBob chat).length = 1 := by decide +kernel
  obtain rfl : k = 0 := by omega
  decide +kernel

theorem length_utf8_replicate (n : Nat) :
    (utf8 (String.ofList (List.replicate n 'a'))).length = n := by
  show (String.ofList (List.replicate n 'a')).utf8ByteSize = n
  induction n with
  | zero => rfl
  | succ n ih =>
    have hone : (String.singleton 'a').utf8ByteSize = 1 := rfl
    rw [List.replicate_succ, String.ofList_cons, String.utf8ByteSize_append, ih, hone, Nat.add_comm]

/-- A chat that fills its PDU. -/
def fullChat : Group.GroupChat where
  fromId := "ann"
  groupId := "group00000000000000a1"
  msgId := "1"
  content := String.ofList (List.replicate 65480 'a')

theorem byteSize_fullChat {number : Nat} (hnumber : 8 * number + 2 < 128) :
    byteSize (text number (utf8 fullChat.content)) = 65484 := by
  have hcontent : fullChat.content = String.ofList (List.replicate 65480 'a') := rfl
  rw [hcontent, byteSize_text, length_utf8_replicate,
    if_neg (by decide), lengthSize, varint_of_lt hnumber,
    varint_of_le (by decide), varint_of_le (by decide), varint_of_lt (by decide)]
  simp only [List.length_cons, List.length_nil]

/-- It does not fit the PDU in which it is passed on. -/
theorem not_sent_arrives :
    ∃ (extend : Nat) (grpmems : Group.Members) (chat : Group.GroupChat),
      byteSize (chat.fields extend) ≤ CImPdu.maxBody ∧
      ¬ ∀ pdu ∈ Group.grpChatToMsg grpmems chat,
        Arrives (sendReq (pdu.fields extend) mesGrpinterchat) mesGrpinterchat
          ({} : CImPdu).header.sessionId (pdu.fields extend) := by
  have hreceivers : Group.chatReceivers annAndBob fullChat = ["bob"] := by decide +kernel
  have hids : Group.idsSize ["bob"] = 5 := by decide +kernel
  have hfrom : byteSize (text 1 (utf8 fullChat.fromId)) = 5 := by decide +kernel
  have hgroup : byteSize (text 2 (utf8 fullChat.groupId)) = 23 := by decide +kernel
  have hid : byteSize (text 5 (utf8 fullChat.msgId)) = 3 := by decide +kernel
  have hextend : byteSize (text 11 (utf8 fullChat.extend)) = 0 := rfl
  have husers : ∀ number, byteSize (repeated number (fullChat.notifyUsers.map utf8)) = 0 := fun _ => rfl
  have hzero : ∀ number, byteSize (scalar number 0) = 0 := fun _ => rfl
  have hcount : fullChat.notifyCount = 0 := rfl
  have htime : fullChat.msgTime = 0 := rfl
  have hencrypt : fullChat.encrypt = 0 := rfl
  have hmax : CImPdu.maxBody = 65515 := rfl
  refine ⟨11, annAndBob, fullChat, ?_, fun harrives => ?_⟩
  · simp only [Group.GroupChat.fields, byteSize_append, hfrom, hgroup, hid, hextend, husers, hcount,
      htime, hencrypt, hzero, byteSize_fullChat (by decide : 8 * 8 + 2 < 128)]
    decide
  · have hroom := (Group.grpChatToMsg_arrives_iff 11 annAndBob fullChat mesGrpinterchat).mp harrives 0
    rw [hreceivers] at hroom
    have hfits := hroom (by decide)
    simp only [Group.GroupChat.passedOn, byteSize_append, hfrom, hgroup, hid, hextend, husers, hcount,
      htime, hencrypt, hzero, byteSize_fullChat (by decide : 8 * 9 + 2 < 128), Nat.mul_zero,
      List.drop_zero, List.take_of_length_le (by decide : ["bob"].length ≤ 500), hids] at hfits
    omega

end ImServer
