import ImServer.Lib.Protobuf
import ImServer.Msg.Acknowledgement
import Mathlib.Data.List.Sort

/-!
# Pulling offline messages

A user pulls his pending entries page by page (msg/offLineMsgHandle.cpp,
msg/mod_mongodb/offlineMsgMgr.cpp). A page is cut by the size of the answer so far and of the
next entry. Entries of group chats have no data yet; their messages are then fetched group by
group and filled in as long as the answer does not get too long, and entries without a message
are deleted. What is still empty in the end is cleared.

Strings stand for their UTF-8 bytes. The state of a call, which its document does not keep
here, is a parameter.
-/

namespace ImServer

namespace Msg

open Protobuf

def MESChat.fields (msg : MESChat) : List Field :=
  text 1 (utf8 msg.fromId) ++ text 2 (utf8 msg.toId) ++ text 3 (utf8 msg.msgId) ++
    text 7 (utf8 msg.content)

def MESChatCancel.fields (msg : MESChatCancel) : List Field :=
  text 1 (utf8 msg.fromId) ++ text 2 (utf8 msg.toId) ++ text 5 (utf8 msg.msgId) ++
    scalar 6 msg.msgTime ++ scalar 8 msg.sendState

def MESChatDeliveredAck.fields (msg : MESChatDeliveredAck) : List Field :=
  text 1 (utf8 msg.fromId) ++ text 2 (utf8 msg.toId) ++ text 3 (utf8 msg.msgId)

def MESGrpChat.fields (msg : MESGrpChat) : List Field :=
  text 1 (utf8 msg.fromId) ++ text 2 (utf8 msg.grpId) ++ text 5 (utf8 msg.msgId) ++
    scalar 6 msg.msgTime ++ text 8 (utf8 msg.content)

def MsgData.serialize : MsgData → List UInt8
  | .chat msg => encode msg.fields
  | .cancel msg => encode msg.fields
  | .deliveredAck msg => encode msg.fields
  | .other text => utf8 text

/-- An entry of an answer; one that was cleared has no fields. -/
structure OfflineMsgData where
  cmdId : UInt32 := 0
  msgData : List UInt8 := []
  msgId : String := ""
  fromId : String := ""
  status : Nat := 0
  createTime : Nat := 0
  deriving DecidableEq, Repr

def OfflineMsgData.fields (data : OfflineMsgData) : List Field :=
  scalar 1 data.cmdId.toNat ++ text 2 data.msgData ++ text 3 (utf8 data.msgId) ++
    text 4 (utf8 data.fromId) ++ scalar 5 data.status ++ scalar 6 data.createTime

def OfflineMsgData.byteSize (data : OfflineMsgData) : Nat := Protobuf.byteSize data.fields

def nonErr : Nat := 0x8000

structure MESOfflineMsgAck where
  fromId : String := ""
  toId : String := ""
  errcode : Nat := 0
  msgId : String := ""
  msgTime : Nat := 0
  msglist : List OfflineMsgData := []
  msgTotal : Nat := 0
  deriving DecidableEq, Repr

namespace MESOfflineMsgAck

def fields (ack : MESOfflineMsgAck) : List Field :=
  text 1 (utf8 ack.fromId) ++ text 2 (utf8 ack.toId) ++ scalar 4 ack.errcode ++
    text 5 (utf8 ack.msgId) ++ scalar 6 ack.msgTime ++
    repeated 13 (ack.msglist.map fun data => encode data.fields) ++ scalar 14 ack.msgTotal

def byteSize (ack : MESOfflineMsgAck) : Nat := Protobuf.byteSize ack.fields

def add (ack : MESOfflineMsgAck) (data : OfflineMsgData) : MESOfflineMsgAck :=
  { ack with msglist := ack.msglist ++ [data] }

end MESOfflineMsgAck

def sigSponsorp2pcallDeliver : UInt32 := 0xb094

structure PullEnv where
  now : Nat := 0
  /-- The configured day before which messages are not pulled, if there is one. -/
  createTime : Nat := 0
  /-- The state of the call that a document is about. -/
  msgStatus : OfflineMsg → Nat := fun _ => 0

def OfflineMsg.data (env : PullEnv) (doc : OfflineMsg) : OfflineMsgData where
  cmdId := doc.cmdId
  msgData := doc.msgData.serialize
  msgId := doc.msgId
  fromId := doc.fromId
  createTime := doc.createTime
  status := if doc.cmdId = sigSponsorp2pcallDeliver then env.msgStatus doc else 0

/-- The documents that the queries of a user find. If there is a cut-off, those that are not newer
are left out. -/
def isPullable (env : PullEnv) (toId : String) (doc : OfflineMsg) : Bool :=
  doc.toId = toId && (env.createTime = 0 || env.createTime < doc.createTime) && doc.bPulled = 0

/-- By sender, the last one first, and by time. -/
def PullOrder (a b : OfflineMsg) : Prop :=
  b.fromId < a.fromId ∨ (a.fromId = b.fromId ∧ a.createTime ≤ b.createTime)

instance PullOrder.decidable : DecidableRel PullOrder := fun _ _ => inferInstanceAs (Decidable (_ ∨ _))

instance PullOrder.total : Std.Total PullOrder := by
  refine ⟨fun a b => ?_⟩
  by_cases hless : b.fromId < a.fromId
  · exact .inl (.inl hless)
  by_cases hgreater : a.fromId < b.fromId
  · exact .inr (.inl hgreater)
  have hsame := String.le_antisymm (String.not_lt.mp hless) (String.not_lt.mp hgreater)
  obtain htime | htime := Nat.le_total a.createTime b.createTime
  · exact .inl (.inr ⟨hsame, htime⟩)
  · exact .inr (.inr ⟨hsame.symm, htime⟩)

instance PullOrder.trans : IsTrans OfflineMsg PullOrder := by
  refine ⟨fun a b c hab hbc => ?_⟩
  obtain hab | ⟨hab, hearlier⟩ := hab
  · obtain hbc | ⟨hbc, -⟩ := hbc
    · exact .inl (String.lt_trans hbc hab)
    · exact .inl (hbc ▸ hab)
  · obtain hbc | ⟨hbc, hlater⟩ := hbc
    · exact .inl (hab ▸ hbc)
    · exact .inr ⟨hab.trans hbc, Nat.le_trans hearlier hlater⟩

/-- What the cursor of `GetUserOfflineMsg` goes through. -/
def pullable (env : PullEnv) (toId : String) (limitNum : Nat) (store : Store) : List OfflineMsg :=
  let docs := (store.filter (isPullable env toId)).insertionSort PullOrder
  if 0 < limitNum then docs.take limitNum else docs

/-- The loop of `GetUserOfflineMsg`. -/
def addEntries (env : PullEnv) : List OfflineMsg → Int → MESOfflineMsgAck → MESOfflineMsgAck
  | [], _, ack => ack
  | doc :: docs, maxLen, ack =>
    let maxLen := if doc.cmdId = mesGrpchatDeliver then maxLen - 200 else maxLen
    if maxLen - 2000 ≤ (ack.byteSize + (doc.data env).byteSize : Nat) then ack
    else addEntries env docs maxLen (ack.add (doc.data env))

def getUserOfflineMsg (env : PullEnv) (toId : String) (maxLen : Int) (limitNum : Nat) (store : Store) :
    MESOfflineMsgAck :=
  { addEntries env (pullable env toId limitNum store) maxLen { toId := toId } with errcode := nonErr }

def getUserOfflineMsgSummaryBytoId (env : PullEnv) (toId : String) (store : Store) : Nat :=
  store.countP (isPullable env toId)

/-- How far a query gets: there may be no connection, and its cursor may throw after some
documents. -/
inductive Cursor where
  | noConn
  | exception (docs : Nat)
  | success
  deriving DecidableEq, Repr

def Cursor.docs {α : Type} : Cursor → List α → List α
  | noConn, _ => []
  | exception n, docs => docs.take n
  | success, docs => docs

structure MsgIdContents where
  msgId : String
  content : List UInt8
  deriving DecidableEq, Repr

/-- The message of a document, as the query returns it. -/
def GrpOfflineMsg.contents (doc : GrpOfflineMsg) : MsgIdContents :=
  ⟨doc.msgId, encode doc.msgData.fields⟩

def getGrpOfflineMsgData (cursor : Cursor) (grpStore : GrpStore) (grpId : String)
    (msgIds : List String) :
    List MsgIdContents :=
  let docs := cursor.docs (grpStore.filter fun doc => doc.grpId = grpId && msgIds.contains doc.msgId)
  (docs.filter fun doc => doc.msgId ≠ "").map GrpOfflineMsg.contents

def isMaxLenLimitTouched (ack : MESOfflineMsgAck) (maxLen : Int) : Bool := maxLen - 2000 ≤ ack.byteSize

def isGrpEntry (data : OfflineMsgData) : Bool := data.cmdId = mesGrpchatDeliver

/-- Write to the first entry of group chats that has the message id. -/
def setMsgData (msgId : String) (content : List UInt8) : List OfflineMsgData → List OfflineMsgData
  | [] => []
  | data :: rest =>
    if isGrpEntry data && data.msgId = msgId then { data with msgData := content } :: rest
    else data :: setMsgData msgId content rest

/-- The messages of a group are filled in until the answer is too long; the last one is then taken
out again. -/
def fillContents (maxLen : Int) : List MsgIdContents → MESOfflineMsgAck → MESOfflineMsgAck × Bool
  | [], ack => (ack, false)
  | item :: items, ack =>
    if ack.msglist.any fun data => isGrpEntry data && data.msgId = item.msgId then
      let filled := { ack with msglist := setMsgData item.msgId item.content ack.msglist }
      if isMaxLenLimitTouched filled maxLen then
        ({ ack with msglist := setMsgData item.msgId [] ack.msglist }, true)
      else fillContents maxLen items filled
    else fillContents maxLen items ack

/-- The message ids that a query has not returned. -/
def missing (msgIds : List String) (items : List MsgIdContents) : List String :=
  msgIds.dedup.filter fun msgId => !items.any (·.msgId = msgId)

/-- The loop over the groups, with the message ids whose entries are deleted. -/
def fillGroups (cursors : String → Cursor) (grpStore : GrpStore) (maxLen : Int) :
    List (String × List String) → MESOfflineMsgAck → MESOfflineMsgAck × List String
  | [], ack => (ack, [])
  | (grpId, msgIds) :: groups, ack =>
    let items := getGrpOfflineMsgData (cursors grpId) grpStore grpId msgIds
    let (ack, isLimitTouched) := fillContents maxLen items ack
    if isLimitTouched then (ack, missing msgIds items)
    else
      let (ack, rest) := fillGroups cursors grpStore maxLen groups ack
      (ack, missing msgIds items ++ rest)

/-- The message ids of the group chats in an answer, by group. -/
def grpMsgIds (ack : MESOfflineMsgAck) : List (String × List String) :=
  Multimap.groups (fun a b : String => decide (a < b))
    ((ack.msglist.filter isGrpEntry).map fun data => (data.fromId, data.msgId))

/-- Entries of group chats that have no message are cleared. -/
def clearEmpty (ack : MESOfflineMsgAck) : MESOfflineMsgAck :=
  { ack with msglist := ack.msglist.map fun data =>
      if isGrpEntry data && data.msgData = [] then {} else data }

/-- `GetGrpOfflineMsgContent`: the answer, and the message ids whose entries are deleted. -/
def getGrpOfflineMsgContent (cursors : String → Cursor) (grpStore : GrpStore) (maxLen : Int)
    (ack : MESOfflineMsgAck) : MESOfflineMsgAck × List String :=
  let (filled, dirty) := fillGroups cursors grpStore maxLen (grpMsgIds ack) ack
  (clearEmpty filled, dirty)

/-- The page for a request with the message id. -/
def offlinePage (env : PullEnv) (toId msgId : String) (store : Store) : MESOfflineMsgAck :=
  { getUserOfflineMsg env toId 65535 100 store with msgId := msgId }

/-- The answer of `HandleGetOfflineMsg` when the acknowledgements of the request have been handled,
and the message ids whose entries are deleted. -/
def pullAnswer (env : PullEnv) (cursors : String → Cursor) (grpStore : GrpStore) (toId msgId : String)
    (store : Store) : MESOfflineMsgAck × List String :=
  let totals := getUserOfflineMsgSummaryBytoId env toId store
  let (ack, dirty) :=
    if 0 < totals then
      getGrpOfflineMsgContent cursors grpStore 65535 (offlinePage env toId msgId store)
    else ({ msgId := msgId, toId := toId, errcode := nonErr }, [])
  ({ ack with msgTime := env.now % 2 ^ 64, msgTotal := totals % 2 ^ 32 }, dirty)

/-- What a user has not read, for the number that is pushed to his device. -/
def pushCmdIds : List UInt32 := [0xb034, 0xb038, 0xb054, mesGrpchatDeliver, 0xb068, mesChatDeliver]

def getUserUnreadPushMsgCount (toId : String) (store : Store) : Nat :=
  store.countP fun doc => doc.toId = toId && pushCmdIds.contains doc.cmdId && doc.bPulled = 0

section Pages

variable {env : PullEnv} {toId : String} {limitNum : Nat} {store : Store}

/-- An entry of a page is that of a document the cursor goes through. -/
theorem mem_addEntries {docs : List OfflineMsg} {maxLen : Int} {ack : MESOfflineMsgAck}
    {data : OfflineMsgData} (h : data ∈ (addEntries env docs maxLen ack).msglist) :
    data ∈ ack.msglist ∨ ∃ doc ∈ docs, doc.data env = data := by
  induction docs generalizing maxLen ack with
  | nil => exact .inl h
  | cons doc docs ih =>
    simp only [addEntries] at h
    generalize (if doc.cmdId = mesGrpchatDeliver then maxLen - 200 else maxLen) = rest at h
    split at h
    · exact .inl h
    · obtain hdata | ⟨later, hlater, hdata⟩ := ih h
      · obtain hdata | hdata := List.mem_append.mp hdata
        · exact .inl hdata
        · exact .inr ⟨doc, List.mem_cons_self, (List.mem_singleton.mp hdata).symm⟩
      · exact .inr ⟨later, List.mem_cons_of_mem _ hlater, hdata⟩

theorem mem_pullable {doc : OfflineMsg} (h : doc ∈ pullable env toId limitNum store) :
    doc ∈ store ∧ doc.toId = toId ∧ doc.bPulled = 0 := by
  have hdoc : doc ∈ (store.filter (isPullable env toId)).insertionSort PullOrder := by
    simp only [pullable] at h
    split at h
    · exact List.mem_of_mem_take h
    · exact h
  obtain ⟨hstore, hfound⟩ := List.mem_filter.mp ((List.mem_insertionSort _).mp hdoc)
  simp only [isPullable, Bool.and_eq_true, decide_eq_true_eq] at hfound
  exact ⟨hstore, hfound.1.1, hfound.2⟩

/-- An entry of a page is that of a pending document of the user. -/
theorem mem_getUserOfflineMsg {maxLen : Int} {data : OfflineMsgData}
    (h : data ∈ (getUserOfflineMsg env toId maxLen limitNum store).msglist) :
    ∃ doc ∈ store, doc.toId = toId ∧ doc.bPulled = 0 ∧ doc.data env = data := by
  obtain hnone | ⟨doc, hdoc, hdata⟩ := mem_addEntries h
  · cases hnone
  · obtain ⟨hstore, hto, hpulled⟩ := mem_pullable hdoc
    exact ⟨doc, hstore, hto, hpulled, hdata⟩

end Pages

end Msg

end ImServer
