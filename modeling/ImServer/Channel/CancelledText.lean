import ImServer.Base.JsonWriter
import ImServer.Channel.MsgQueue
import ImServer.Lib.Retry
import ImServer.Msg.StoredDoc

/-!
# The text of a cancelled message

A channel message is stored as a document and queued as a JSON text (`pushMsgToMsgQueue` in
channel/redisMgr.cpp). A cancellation builds the text again from the document
(`GetChannelOfflineMsg` in channel/mod_mongodb/channelMongoOperator.cpp) and removes it from the queue
with `LREM`, which takes one element away, from the end.

A push or a removal whose answer is lost is repeated, whether redis has carried it out or not.
-/

namespace ImServer

namespace ChannelQueue

/-- The fields of `im::RadioChat` that are stored and queued, the texts byte by byte. -/
structure RadioChat where
  fromId : List UInt8
  radioId : List UInt8
  msgId : List UInt8
  msgTime : UInt64
  encrypt : UInt32
  content : List UInt8
  extend : List UInt8
  deriving DecidableEq, Repr

/-- A document of a channel's collection. Its id is given as a text. -/
structure StoredChat where
  id : List UInt8
  doc : Bson.Document

namespace RadioChat

variable (msg : RadioChat) (mongoId : List UInt8)

/-- `msgValue` of `pushMsgToMsgQueue`. -/
def msgValue : Json.Tree :=
  ((((((((Json.Tree.null.set "id" (.string mongoId)).set "fromId" (.string msg.fromId)).set
    "radioId" (.string msg.radioId)).set "msgId" (.string msg.msgId)).set
    "msgTime" (.int msg.msgTime.toInt64.toInt)).set
    "encrypt" (.int msg.encrypt.toInt32.toInt)).set "content" (.string msg.content)).set
    "extend" (.string msg.extend))

/-- The text that is queued, with the id that the store gave to the document. -/
def queued : List UInt8 := Json.toStyledString (msg.msgValue mongoId)

/-- `CChannelOfflineMsg::ToDoc`. Both numbers are `int64_t` there. -/
def toDoc : Bson.Document :=
  [("fromId", .utf8 msg.fromId), ("radioId", .utf8 msg.radioId), ("msgId", .utf8 msg.msgId),
    ("msgTime", .int64 msg.msgTime.toInt64), ("encrypt", .int64 msg.encrypt.toUInt64.toInt64),
    ("content", .utf8 msg.content), ("extend", .utf8 msg.extend)]

/-- What `InsertChannelOfflineMsg` leaves in the collection: the document under the id that the
store gives to it. -/
def stored : StoredChat := ⟨mongoId, msg.toDoc⟩

end RadioChat

namespace StoredChat

/-- `get_utf8`, as a JSON value. -/
def getUtf8 : Bson.Value → Option Json.Tree
  | .utf8 text => some (.string text)
  | _ => none

/-- `get_int64`, as `long long`. -/
def getLongLong : Bson.Value → Option Json.Tree
  | .int64 n => some (.int n.toInt)
  | _ => none

/-- `get_int64`, as `int`. -/
def getInt : Bson.Value → Option Json.Tree
  | .int64 n => some (.int n.toInt32.toInt)
  | _ => none

/-- `if (value[key]) msgValue[key] = …`; none if a value of another type throws. -/
def read (get : Bson.Value → Option Json.Tree) (doc : Bson.Document) (key : String)
    (msgValue : Json.Tree) : Option Json.Tree :=
  match doc.lookup key with
  | none => some msgValue
  | some value => (get value).map (msgValue.set key)

/-- `msgValue` of `GetChannelOfflineMsg`. -/
def msgValue (found : StoredChat) : Option Json.Tree := do
  let msgValue := Json.Tree.null.set "id" (.string found.id)
  let msgValue ← read getUtf8 found.doc "fromId" msgValue
  let msgValue ← read getUtf8 found.doc "radioId" msgValue
  let msgValue ← read getUtf8 found.doc "msgId" msgValue
  let msgValue ← read getLongLong found.doc "msgTime" msgValue
  let msgValue ← read getInt found.doc "encrypt" msgValue
  let msgValue ← read getUtf8 found.doc "content" msgValue
  read getUtf8 found.doc "extend" msgValue

/-- `GetChannelOfflineMsg`, with the document that was found. Without one the text is empty. -/
def getChannelOfflineMsg : Option StoredChat → List UInt8
  | none => []
  | some found => found.msgValue.elim [] Json.toStyledString

theorem toInt32_toInt64 (encrypt : UInt32) :
    encrypt.toUInt64.toInt64.toInt32 = encrypt.toInt32 := by
  refine Int32.toBitVec_inj.mp ?_
  show BitVec.signExtend 32 (BitVec.setWidth 64 encrypt.toBitVec) = encrypt.toBitVec
  simp [BitVec.signExtend_eq_setWidth_of_le]

theorem msgValue_stored (msg : RadioChat) (mongoId : List UInt8) :
    (msg.stored mongoId).msgValue = some (msg.msgValue mongoId) := by
  simp [msgValue, RadioChat.stored, RadioChat.toDoc, read, List.lookup_cons, getUtf8, getLongLong,
    getInt, toInt32_toInt64, RadioChat.msgValue]

theorem getChannelOfflineMsg_stored (msg : RadioChat) (mongoId : List UInt8) :
    getChannelOfflineMsg (some (msg.stored mongoId)) = msg.queued mongoId := by
  rw [getChannelOfflineMsg, msgValue_stored, RadioChat.queued]
  rfl

end StoredChat

/-- The texts under the key of a channel. -/
abbrev Queue := List (List UInt8)

/-- `LREM` with the count -1. -/
def lrem (queue : Queue) (text : List UInt8) : Queue := (queue.reverse.erase text).reverse

def disconnected : Answer → Bool
  | .disconn _ => true
  | _ => false

/-- How often a command is carried out in the attempts of a helper that repeats it while the
connection breaks, at most three times. -/
def executions (answers : ℕ → Answer) : ℕ :=
  (List.range (Retry.last disconnected answers 3 0 + 1)).countP fun n => (answers n).executed

/-- The pushes of `pushMsgToMsgQueue`. -/
def push (answers : ℕ → Answer) (text : List UInt8) (queue : Queue) : Queue :=
  queue ++ List.replicate (executions answers) text

def removeMsgFromMsgQueue (answers : ℕ → Answer) (text : List UInt8) (queue : Queue) : Queue :=
  (fun queue => lrem queue text)^[executions answers] queue

/-- `cancelChatMsgToDataBase`, as far as it is about the queue. The text to be removed is made anew
from the document. -/
def cancel (answers : ℕ → Answer) (found : Option StoredChat) (queue : Queue) : Queue :=
  let restMsg := StoredChat.getChannelOfflineMsg found
  if restMsg = [] then queue else removeMsgFromMsgQueue answers restMsg queue

/-- What happens to the queue besides: other texts are pushed and removed, and it is popped. -/
inductive Other where
  | push (text : List UInt8)
  | remove (text : List UInt8)
  | pop
  deriving DecidableEq, Repr

namespace Other

def step (queue : Queue) : Other → Queue
  | push text => queue ++ [text]
  | remove text => lrem queue text
  | pop => queue.tail

/-- It is not about this text. -/
def About (text : List UInt8) : Other → Prop
  | push text' => text' ≠ text
  | remove text' => text' ≠ text
  | pop => True

end Other

/-- The message is pushed into a queue in which it is not, and cancelled later: then the queue is
what it was just before, without this message. -/
def Cancelled (msg : RadioChat) (mongoId : List UInt8) (pushed cancelled : ℕ → Answer) : Prop :=
  ∀ (queue : Queue) (others : List Other), msg.queued mongoId ∉ queue →
    (∀ other ∈ others, other.About (msg.queued mongoId)) →
      cancel cancelled (some (msg.stored mongoId))
          (others.foldl Other.step (push pushed (msg.queued mongoId) queue)) =
        (others.foldl Other.step (push pushed (msg.queued mongoId) queue)).filter
          (· ≠ msg.queued mongoId)

section Removal

variable {queue : Queue} {text : List UInt8} {pushed cancelled : ℕ → Answer}

theorem count_lrem : (lrem queue text).count text = queue.count text - 1 := by
  rw [lrem, List.count_reverse, List.count_erase_self, List.count_reverse]

theorem count_lrem_of_ne {text' : List UInt8} (hne : text' ≠ text) :
    (lrem queue text').count text = queue.count text := by
  rw [lrem, List.count_reverse, List.count_erase_of_ne hne.symm, List.count_reverse]

theorem filter_lrem : (lrem queue text).filter (· ≠ text) = queue.filter (· ≠ text) := by
  have hnot : text ∉ queue.reverse.filter (· ≠ text) := by simp
  rw [lrem, List.filter_reverse, ← List.erase_filter, List.erase_of_not_mem hnot,
    List.filter_reverse, List.reverse_reverse]

theorem count_removeMsgFromMsgQueue (answers : ℕ → Answer) :
    (removeMsgFromMsgQueue answers text queue).count text =
      queue.count text - executions answers := by
  rw [removeMsgFromMsgQueue]
  induction executions answers generalizing queue with
  | zero => rfl
  | succ n ih =>
    rw [Function.iterate_succ_apply, ih, count_lrem, Nat.sub_sub, Nat.add_comm]

theorem filter_removeMsgFromMsgQueue (answers : ℕ → Answer) :
    (removeMsgFromMsgQueue answers text queue).filter (· ≠ text) = queue.filter (· ≠ text) := by
  rw [removeMsgFromMsgQueue]
  induction executions answers generalizing queue with
  | zero => rfl
  | succ n ih => rw [Function.iterate_succ_apply, ih, filter_lrem]

/-- The text is gone if it stands in the queue no more often than it is removed. -/
theorem removeMsgFromMsgQueue_iff (answers : ℕ → Answer) :
    removeMsgFromMsgQueue answers text queue = queue.filter (· ≠ text) ↔
      queue.count text ≤ executions answers := by
  have hcount := @count_removeMsgFromMsgQueue queue text answers
  constructor
  · intro h
    have hnot : text ∉ queue.filter (· ≠ text) := by simp
    rw [h, List.count_eq_zero_of_not_mem hnot] at hcount
    omega
  · intro h
    rw [Nat.sub_eq_zero_of_le h, List.count_eq_zero] at hcount
    rw [← filter_removeMsgFromMsgQueue answers]
    refine (List.filter_eq_self.mpr fun other hother => decide_eq_true ?_).symm
    rintro rfl
    exact hcount hother

theorem count_push (h : text ∉ queue) : (push pushed text queue).count text = executions pushed := by
  rw [push, List.count_append, List.count_eq_zero_of_not_mem h, List.count_replicate_self,
    Nat.zero_add]

theorem count_step_le {other : Other} (h : other.About text) :
    (Other.step queue other).count text ≤ queue.count text := by
  cases other with
  | push text' =>
    have hne : text' ≠ text := h
    simp [Other.step, List.count_append, hne]
  | remove text' => exact (count_lrem_of_ne h).le
  | pop => exact (List.tail_sublist queue).count_le text

theorem count_foldl_step_le {others : List Other} (h : ∀ other ∈ others, other.About text) :
    (others.foldl Other.step queue).count text ≤ queue.count text := by
  induction others generalizing queue with
  | nil => exact Nat.le_refl _
  | cons other others ih =>
    obtain ⟨hother, hothers⟩ := List.forall_mem_cons.mp h
    exact (ih hothers).trans (count_step_le hother)

theorem cancel_stored (msg : RadioChat) (mongoId : List UInt8) (answers : ℕ → Answer) :
    cancel answers (some (msg.stored mongoId)) queue =
      removeMsgFromMsgQueue answers (msg.queued mongoId) queue := by
  rw [cancel, StoredChat.getChannelOfflineMsg_stored]
  exact if_neg (Json.toStyledString_ne_nil _)

end Removal

/-- The text is built again as it was queued, and the cancelled message is gone if it was pushed no
more often than it is removed. -/
theorem cancelled_iff (msg : RadioChat) (mongoId : List UInt8) (pushed cancelled : ℕ → Answer) :
    StoredChat.getChannelOfflineMsg (some (msg.stored mongoId)) = msg.queued mongoId ∧
      (Cancelled msg mongoId pushed cancelled ↔ executions pushed ≤ executions cancelled) := by
  refine ⟨StoredChat.getChannelOfflineMsg_stored msg mongoId, fun h => ?_, fun h => ?_⟩
  · have hempty := h [] [] List.not_mem_nil fun other hother => absurd hother List.not_mem_nil
    rw [cancel_stored, List.foldl_nil, removeMsgFromMsgQueue_iff,
      count_push List.not_mem_nil] at hempty
    exact hempty
  · intro queue others hqueue hothers
    rw [cancel_stored, removeMsgFromMsgQueue_iff]
    exact ((count_foldl_step_le hothers).trans_eq (count_push hqueue)).trans h

/-- The connection breaks before the answer to the first push has come. -/
def lostAnswer : ℕ → Answer
  | 0 => .disconn true
  | _ => .answered

/-- A push that is repeated leaves a message in the queue. -/
theorem not_cancelled : ¬∀ (msg : RadioChat) (mongoId : List UInt8) (pushed cancelled : ℕ → Answer),
    StoredChat.getChannelOfflineMsg (some (msg.stored mongoId)) = msg.queued mongoId ∧
      Cancelled msg mongoId pushed cancelled := by
  intro h
  let msg : RadioChat := ⟨[], [], [], 0, 0, [], []⟩
  have hqueue := (h msg [] lostAnswer fun _ => .answered).2 [] [] List.not_mem_nil
    fun other hother => absurd hother List.not_mem_nil
  rw [cancel_stored, List.foldl_nil, removeMsgFromMsgQueue_iff, count_push List.not_mem_nil]
    at hqueue
  exact absurd hqueue (by decide)

end ChannelQueue

end ImServer
