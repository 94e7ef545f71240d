import ImServer.Msg.SigHandler
import Mathlib.Algebra.Order.Ring.Nat

/-!
# Documents of stored messages

A message is written to mongo field by field and read back field by field
(msg/mod_mongodb/offlineMsg.cpp, group/mod_mongodb/grpOfflineMsg.cpp). A document is a list of keys
with typed values, a key is looked up from the front, and a value that has another type than the one
that is read throws.

The state of a call is written only with the id of the call, and the time of a group message is read
into an `int`.
-/

namespace ImServer

namespace Bson

inductive Value where
  | utf8 (text : List UInt8)
  | int32 (n : Int32)
  | int64 (n : Int64)

def Value.getUtf8 : Value → Option (List UInt8)
  | .utf8 text => some text
  | _ => none

/-- `get_int32`, into a `uint32_t`. -/
def Value.getUInt32 : Value → Option UInt32
  | .int32 n => some n.toUInt32
  | _ => none

/-- `get_int64`, into a `uint64_t`. -/
def Value.getUInt64 : Value → Option UInt64
  | .int64 n => some n.toUInt64
  | _ => none

/-- `get_int64`, into an `int`. -/
def Value.getInt : Value → Option Int32
  | .int64 n => some n.toInt32
  | _ => none

abbrev Document := List (String × Value)

/-- `if (doc[key]) x = doc[key].get()`; none if that throws. -/
def Document.read {α : Type} (get : Value → Option α) (start : α) (key : String) (doc : Document) :
    Option α :=
  match doc.lookup key with
  | none => some start
  | some value => get value

section Read

variable {α : Type} {get : Value → Option α} {start : α} {key key' : String} {value : Value}
  {doc doc' : Document}

theorem Document.read_cons_self : Document.read get start key ((key, value) :: doc) = get value := by
  rw [read, List.lookup_cons_self]

theorem Document.read_cons_of_ne (h : key ≠ key') :
    Document.read get start key ((key', value) :: doc) = doc.read get start key := by
  rw [read, List.lookup_cons, beq_eq_false_iff_ne.mpr h]
  rfl

theorem Document.read_nil : Document.read get start key [] = some start := rfl

end Read

end Bson

structure COfflineMsg where
  createTime : UInt64
  cmdId : UInt32 := 0
  isChatDeliver : UInt32 := 0
  msgId : List UInt8 := []
  fromId : List UInt8 := []
  fromGrpUserId : List UInt8 := []
  toId : List UInt8 := []
  msgData : List UInt8 := []
  callId : List UInt8 := []
  status : UInt32 := 0

namespace COfflineMsg

/-- A call with an id. -/
def HasCallId (msg : COfflineMsg) : Prop := msg.callId ≠ [] ∧ msg.cmdId = Msg.sigSponsorCallDeliver

instance HasCallId.decidable (msg : COfflineMsg) : Decidable msg.HasCallId :=
  inferInstanceAs (Decidable (_ ∧ _))

def toDoc (msg : COfflineMsg) : Bson.Document :=
  let doc : Bson.Document :=
    [ ("msgId", .utf8 msg.msgId),
      ("fromId", .utf8 msg.fromId),
      ("toId", .utf8 msg.toId),
      ("cmdId", .int32 msg.cmdId.toInt32),
      ("msgData", .utf8 msg.msgData),
      ("createTime", .int64 msg.createTime.toInt64),
      ("isChatDeliver", .int32 msg.isChatDeliver.toInt32) ]
  if msg.HasCallId then
    doc ++ [("callId", .utf8 msg.callId), ("status", .int32 msg.status.toInt32)]
  else doc

end COfflineMsg

/-- The command id has no start value, and is `uninit` in a document without one. -/
def viewToOfflineMsg (uninit : UInt32) (doc : Bson.Document) : Option COfflineMsg := do
  let fromId ← doc.read Bson.Value.getUtf8 [] "fromId"
  let toId ← doc.read Bson.Value.getUtf8 [] "toId"
  let msgId ← doc.read Bson.Value.getUtf8 [] "msgId"
  let cmdId ← doc.read Bson.Value.getUInt32 uninit "cmdId"
  let createTime ← doc.read Bson.Value.getUInt64 0 "createTime"
  let msgData ← doc.read Bson.Value.getUtf8 [] "msgData"
  if cmdId = Msg.sigSponsorCallDeliver then
    let status ← doc.read Bson.Value.getUInt32 0 "status"
    some { fromId, toId, msgId, cmdId, msgData, createTime, status }
  else some { fromId, toId, msgId, cmdId, msgData, createTime }

namespace COfflineMsg

/-- What a stored message is read back with. The state matters for calls only. -/
structure SameStored (msg msg' : COfflineMsg) : Prop where
  fromId : msg'.fromId = msg.fromId
  toId : msg'.toId = msg.toId
  msgId : msg'.msgId = msg.msgId
  cmdId : msg'.cmdId = msg.cmdId
  msgData : msg'.msgData = msg.msgData
  createTime : msg'.createTime = msg.createTime
  status : msg.cmdId = Msg.sigSponsorCallDeliver → msg'.status = msg.status

/-- A call without an id is in its first state. -/
def StatusStored (msg : COfflineMsg) : Prop :=
  msg.cmdId = Msg.sigSponsorCallDeliver → msg.callId ≠ [] ∨ msg.status = 0

variable {msg : COfflineMsg} {uninit : UInt32}

theorem exists_toDoc (msg : COfflineMsg) :
    ∃ extra, msg.toDoc =
      [ ("msgId", Bson.Value.utf8 msg.msgId), ("fromId", Bson.Value.utf8 msg.fromId), ("toId", Bson.Value.utf8 msg.toId),
        ("cmdId", Bson.Value.int32 msg.cmdId.toInt32), ("msgData", Bson.Value.utf8 msg.msgData),
        ("createTime", Bson.Value.int64 msg.createTime.toInt64),
        ("isChatDeliver", Bson.Value.int32 msg.isChatDeliver.toInt32) ] ++ extra ∧
      (msg.HasCallId →
        extra = [("callId", Bson.Value.utf8 msg.callId), ("status", Bson.Value.int32 msg.status.toInt32)]) ∧
      (¬ msg.HasCallId → extra = []) := by
  by_cases hcall : msg.HasCallId
  · exact ⟨_, if_pos hcall, fun _ => rfl, fun h => absurd hcall h⟩
  · exact ⟨[], (if_neg hcall).trans (List.append_nil _).symm, fun h => absurd h hcall, fun _ => rfl⟩

/-- The state that is read back. -/
def readStatus (msg : COfflineMsg) : UInt32 := if msg.HasCallId then msg.status else 0

theorem viewToOfflineMsg_toDoc (uninit : UInt32) (msg : COfflineMsg) :
    viewToOfflineMsg uninit msg.toDoc = some
      { fromId := msg.fromId, toId := msg.toId, msgId := msg.msgId, cmdId := msg.cmdId,
        msgData := msg.msgData, createTime := msg.createTime, status := msg.readStatus } := by
  obtain ⟨extra, hdoc, hcall, hnone⟩ := msg.exists_toDoc
  have hstatus : Bson.Document.read Bson.Value.getUInt32 0 "status" extra = some msg.readStatus := by
    unfold readStatus
    split
    · next h =>
      rw [hcall h, Bson.Document.read_cons_of_ne (by decide), Bson.Document.read_cons_self,
        Bson.Value.getUInt32, UInt32.toUInt32_toInt32]
    · next h => rw [hnone h, Bson.Document.read_nil]
  have hplain : msg.cmdId ≠ Msg.sigSponsorCallDeliver → msg.readStatus = 0 :=
    fun hcmd => if_neg fun h => hcmd h.2
  rw [hdoc]
  simp only [viewToOfflineMsg, List.cons_append, List.nil_append, Bson.Document.read_cons_self,
    Bson.Document.read_cons_of_ne, ne_eq, String.reduceEq, not_false_eq_true, Bson.Value.getUtf8,
    Bson.Value.getUInt32, Bson.Value.getUInt64, Option.bind_eq_bind, Option.bind_some,
    UInt32.toUInt32_toInt32, UInt64.toUInt64_toInt64]
  rw [hstatus]
  split
  · rfl
  · next hcmd => rw [hplain hcmd]

/-- Everything is read back but the state of a call without an id. -/
theorem sameStored_iff (uninit : UInt32) (msg : COfflineMsg) :
    (∃ msg', viewToOfflineMsg uninit msg.toDoc = some msg' ∧ msg.SameStored msg') ↔
      msg.StatusStored := by
  rw [viewToOfflineMsg_toDoc]
  constructor
  · rintro ⟨msg', hview, hsame⟩ hcmd
    have hstatus : msg'.status = msg.status := hsame.status hcmd
    cases hview
    by_cases hid : msg.callId = []
    · exact .inr (hstatus.symm.trans (if_neg fun h => h.1 hid))
    · exact .inl hid
  · intro hstored
    refine ⟨_, rfl, rfl, rfl, rfl, rfl, rfl, rfl, fun hcmd => ?_⟩
    obtain hid | hzero := hstored hcmd
    · exact if_pos ⟨hid, hcmd⟩
    · exact (ite_eq_right_iff.mpr fun _ => hzero).trans hzero.symm

end COfflineMsg

structure CGrpOfflineMsg where
  createTime : UInt64 := 0
  msgId : List UInt8 := []
  fromId : List UInt8 := []
  grpId : List UInt8 := []
  msgData : List UInt8 := []

def CGrpOfflineMsg.toDoc (msg : CGrpOfflineMsg) : Bson.Document :=
  [ ("msgId", .utf8 msg.msgId),
    ("fromId", .utf8 msg.fromId),
    ("grpId", .utf8 msg.grpId),
    ("msgData", .utf8 msg.msgData),
    ("createTime", .int64 msg.createTime.toInt64) ]

/-- `ViewToGrpOfflineMsg`. The time goes through an `int`, and a field of another type than expected
fails. -/
def viewToGrpOfflineMsg (doc : Bson.Document) : Option CGrpOfflineMsg := do
  let fromId ← doc.read Bson.Value.getUtf8 [] "fromId"
  let grpId ← doc.read Bson.Value.getUtf8 [] "grpId"
  let msgId ← doc.read Bson.Value.getUtf8 [] "msgId"
  let createTime ← doc.read Bson.Value.getInt 0 "createTime"
  let msgData ← doc.read Bson.Value.getUtf8 [] "msgData"
  some { grpId, msgId, msgData, createTime := createTime.toInt64.toUInt64, fromId }

namespace CGrpOfflineMsg

structure SameStored (msg msg' : CGrpOfflineMsg) : Prop where
  grpId : msg'.grpId = msg.grpId
  fromId : msg'.fromId = msg.fromId
  msgId : msg'.msgId = msg.msgId
  msgData : msg'.msgData = msg.msgData
  createTime : msg'.createTime = msg.createTime

theorem viewToGrpOfflineMsg_toDoc (msg : CGrpOfflineMsg) :
    viewToGrpOfflineMsg msg.toDoc = some
      { msg with createTime := msg.createTime.toInt64.toInt32.toInt64.toUInt64 } := by
  simp only [viewToGrpOfflineMsg, toDoc, Bson.Document.read_cons_self, Bson.Document.read_cons_of_ne,
    ne_eq, String.reduceEq, not_false_eq_true, Bson.Value.getUtf8, Bson.Value.getInt,
    Option.bind_eq_bind, Option.bind_some]

/-- A time of an `int64` that goes through an `int` is kept if it fits one. -/
theorem toInt32_eq_self_iff {time : UInt64} (h : time.toNat < 2 ^ 63) :
    time.toInt64.toInt32.toInt64.toUInt64 = time ↔ time.toNat < 2 ^ 31 := by
  have hint : time.toInt64.toInt = time.toNat := by
    rw [← Int64.toInt_toBitVec, UInt64.toBitVec_toInt64, BitVec.toInt_eq_toNat_bmod,
      UInt64.toNat_toBitVec]
    exact Int.bmod_eq_of_le (by omega) (by omega)
  have hself : time.toInt64.toInt32.toInt64.toUInt64 = time ↔
      (time.toNat : Int).bmod (2 ^ 32) = time.toNat := by
    rw [← hint, ← Int64.toInt_toInt32, ← Int32.toInt_toInt64, Int64.toInt_inj]
    constructor
    · exact fun heq => congrArg UInt64.toInt64 heq
    · intro heq
      rw [heq, UInt64.toUInt64_toInt64]
  rw [hself]
  constructor
  · intro hmod
    have hlt : (time.toNat : Int).bmod (2 ^ 32) < ((2 ^ 32 : Nat) + 1) / 2 := Int.bmod_lt (by decide)
    rw [hmod] at hlt
    omega
  · exact fun hlt => Int.bmod_eq_of_le (by omega) (by omega)

theorem sameStored_iff {msg : CGrpOfflineMsg} (h : msg.createTime.toNat < 2 ^ 63) :
    (∃ msg', viewToGrpOfflineMsg msg.toDoc = some msg' ∧ msg.SameStored msg') ↔
      msg.createTime.toNat < 2 ^ 31 := by
  rw [viewToGrpOfflineMsg_toDoc, ← toInt32_eq_self_iff h]
  constructor
  · rintro ⟨msg', hview, hsame⟩
    have htime := hsame.createTime
    cases hview
    exact htime
  · exact fun htime => ⟨_, rfl, rfl, rfl, rfl, rfl, htime⟩

end CGrpOfflineMsg

/-- A message is read back as it was written if no state of a call is lost, and one of a group if its
time fits an `int`. -/
theorem stored_decode {uninit : UInt32} {msg : COfflineMsg} {grpMsg : CGrpOfflineMsg}
    (htime : grpMsg.createTime.toNat < 2 ^ 63) :
    ((∃ msg', viewToOfflineMsg uninit msg.toDoc = some msg' ∧ msg.SameStored msg') ↔
      msg.StatusStored) ∧
    ((∃ grpMsg', viewToGrpOfflineMsg grpMsg.toDoc = some grpMsg' ∧ grpMsg.SameStored grpMsg') ↔
      grpMsg.createTime.toNat < 2 ^ 31) :=
  ⟨msg.sameStored_iff uninit, CGrpOfflineMsg.sameStored_iff htime⟩

/-- A call of the year 2020 that was hung up. -/
def hungUpCall : COfflineMsg where
  createTime := 1600000000000
  cmdId := Msg.sigSponsorCallDeliver
  msgId := [109, 49]
  fromId := [97]
  toId := [98]
  msgData := [10, 2, 104, 105]
  callId := [99, 49]
  status := 1

/-- A group message of the second day of the clock. -/
def firstGrpMsg : CGrpOfflineMsg where
  createTime := 86400000
  msgId := [109, 50]
  fromId := [97]
  grpId := [103, 49]
  msgData := [10, 2, 104, 105]

theorem stored_decode_hungUpCall :
    (∃ msg', viewToOfflineMsg 0 hungUpCall.toDoc = some msg' ∧ hungUpCall.SameStored msg') ∧
      ∃ grpMsg', viewToGrpOfflineMsg firstGrpMsg.toDoc = some grpMsg' ∧
        firstGrpMsg.SameStored grpMsg' := by
  have hdecode := @stored_decode 0 hungUpCall firstGrpMsg (by decide)
  exact ⟨hdecode.1.mpr fun _ => .inl (by decide), hdecode.2.mpr (by decide)⟩

/-- A group message of the year 2020, whose time in milliseconds does not fit. -/
theorem not_stored_decode :
    ¬ ∃ grpMsg', viewToGrpOfflineMsg ({ createTime := 1600000000000 } : CGrpOfflineMsg).toDoc =
        some grpMsg' ∧ ({ createTime := 1600000000000 } : CGrpOfflineMsg).SameStored grpMsg' := by
  rw [CGrpOfflineMsg.sameStored_iff (by decide)]
  decide

end ImServer
