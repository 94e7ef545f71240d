import ImServer.Msg.OfflinePull

/-!
# Acknowledged messages stay away

An acknowledgement counts up a field of the entry's document, and a message that is sent once
more replaces the document as a whole, without the field (msg/mod_mongodb/offlineMsg.cpp,
database/mongoDbColl.cpp). A run is any sequence of steps of the message server: single
operations of the requests about direct chats, group chats, turns of the tasks that write
their entries, and acknowledgements.
-/

namespace ImServer

namespace Msg

/-- The entries that are pending after a step are some that were before, and those of the
documents that it writes. -/
structure Writes (store : Store) (docs : List OfflineMsg) (store' : Store) : Prop where
  new : ∀ key, Pending docs key → Pending store' key
  old : ∀ key, Pending store' key → Pending store key ∨ Pending docs key

namespace Writes

variable {store store' : Store} {docs : List OfflineMsg}

theorem refl (store : Store) : Writes store [] store :=
  ⟨fun _ ⟨_, hdoc, _⟩ => absurd hdoc List.not_mem_nil, fun _ => .inl⟩

theorem replaceOne (filter : OfflineMsg → Bool) (doc : OfflineMsg) (store : Store) :
    Writes store [doc] (Msg.replaceOne filter doc store) := by
  constructor
  · rintro key ⟨new, hnew, hkey⟩
    obtain rfl := List.mem_singleton.mp hnew
    exact ⟨new, new_mem_replaceOne filter new store, hkey⟩
  · rintro key ⟨old, hold, hkey⟩
    obtain rfl | hold := mem_of_mem_replaceOne hold
    · exact .inr ⟨old, List.mem_singleton_self old, hkey⟩
    · exact .inl ⟨old, hold, hkey⟩

theorem insertMany (docs : List OfflineMsg) (store : Store) :
    Writes store docs (Msg.insertMany docs store) := by
  constructor
  · rintro key ⟨doc, hdoc, hkey⟩
    exact ⟨doc, List.mem_append_right store hdoc, hkey⟩
  · rintro key ⟨doc, hdoc, hkey⟩
    exact (List.mem_append.mp hdoc).imp (fun h => ⟨doc, h, hkey⟩) fun h => ⟨doc, h, hkey⟩

theorem updateMany (filter : OfflineMsg → Bool) (store : Store) :
    Writes store [] (Msg.updateMany filter store) := by
  constructor
  · exact fun _ ⟨_, hdoc, _⟩ => absurd hdoc List.not_mem_nil
  · rintro key ⟨doc, hdoc, hkey, hpulled⟩
    exact .inl ⟨doc, ((mem_updateMany_iff hpulled).mp hdoc).1, hkey, hpulled⟩

theorem of_updateMany {filter : OfflineMsg → Bool}
    (h : Writes (Msg.updateMany filter store) docs store') : Writes store docs store' := by
  refine ⟨h.new, fun key hpending => ?_⟩
  refine (h.old key hpending).imp_left fun hold => ?_
  exact ((updateMany filter store).old key hold).resolve_right
    fun ⟨_, hdoc, _⟩ => absurd hdoc List.not_mem_nil

end Writes

namespace Op

/-- The documents that an operation writes. A deletion writes none, it only marks those that are
there. -/
def docs : Op → List OfflineMsg
  | replaceOne _ _ _ doc => [doc]
  | insertMany docs => docs
  | delOfflineMsg .. | delOfflineMsgs .. => []

/-- The entries that an operation deletes. -/
def deletes : Op → EntryKey → Bool
  | replaceOne .. | insertMany _ => fun _ => false
  | delOfflineMsg toId cmdId msgId => entryKeys toId cmdId msgId
  | delOfflineMsgs toId cmdId msgIds => fun key =>
    key.toId = toId && (cmdId = 0 || key.cmdId = cmdId) && msgIds.contains key.msgId

theorem writes (op : Op) (store : Store) : Writes store op.docs (op.apply store) := by
  cases op with
  | replaceOne toId cmdId msgId doc => exact .replaceOne _ doc store
  | insertMany docs => exact .insertMany docs store
  | delOfflineMsg toId cmdId msgId => exact .updateMany _ store
  | delOfflineMsgs toId cmdId msgIds => exact .updateMany _ store

theorem not_pending_of_deletes {op : Op} {key : EntryKey} (h : op.deletes key = true) (store : Store) :
    ¬ Pending (op.apply store) key := by
  intro hpending
  have hkept : op.deletes key = false := by
    cases op with
    | replaceOne toId cmdId msgId doc => rfl
    | insertMany docs => rfl
    | delOfflineMsg toId cmdId msgId => exact (pending_delOfflineMsg.mp hpending).2
    | delOfflineMsgs toId cmdId msgIds =>
      have hfilter : ∀ doc, manyMsgKeys toId cmdId msgIds doc =
          (Op.delOfflineMsgs toId cmdId msgIds).deletes doc.entry := fun _ => rfl
      exact ((pending_updateMany hfilter).mp hpending).2
  rw [h] at hkept
  cases hkept

end Op

namespace GrpChatState

/-- The documents that a step writes. -/
def writes (s : GrpChatState) : GrpChatEvent → List OfflineMsg
  | .chat .. | .deliverAck _ | .cancelDeliverAck .. => []
  | .send i isLogin =>
    match s.tasks[i]? with
    | none => []
    | some ⟨_, [], offlineMsgs⟩ => offlineMsgs
    | some ⟨msg, toId :: _, offlineMsgs⟩ =>
      let doc := OfflineMsg.ofGrpChat msg toId
      if isLogin then
        if nBatch ≤ (offlineMsgs ++ [doc]).length then offlineMsgs ++ [doc] else []
      else if doc.isValid then [doc] else []
  | .cancel memberInfo msg =>
    if (onGrpMsgChatCancel memberInfo s.store msg).1 = some .nonErr then
      (memberInfo.getD []).map fun toId => .ofCancel (memberCancel s.store msg toId)
    else []
  | .other e => if e.op ∈ e.req.ops then e.op.docs else []

/-- The server after a step. One that is not possible changes nothing. -/
def next (s : GrpChatState) (e : GrpChatEvent) : GrpChatState := (s.step e).getD s

theorem store_chat (s : GrpChatState) (env : GrpEnv) (msg : MESGrpChat) :
    (s.chat env msg).store = s.store := by
  simp only [chat]
  cases (onGrpMsgChat env s.grpStore msg).task with
  | none => rfl
  | some task => rfl

theorem writes_send (s : GrpChatState) (i : Nat) (isLogin : Bool) :
    Writes s.store (s.writes (.send i isLogin)) (s.next (.send i isLogin)).store := by
  simp only [next, step, writes]
  cases s.tasks[i]? with
  | none => exact .refl s.store
  | some task =>
    obtain ⟨msg, toIds, offlineMsgs⟩ := task
    cases toIds with
    | nil =>
      simp only [Option.map_some, Option.getD_some, send, sendRest]
      split
      · exact .insertMany offlineMsgs s.store
      · next hnone =>
        obtain rfl := List.eq_nil_of_length_eq_zero (Nat.eq_zero_of_not_pos hnone)
        exact .refl s.store
    | cons toId toIds =>
      simp only [Option.map_some, Option.getD_some, send, sendGroupMember, insertOfflineMsg,
        Bool.and_true]
      split
      · split
        · exact .insertMany _ s.store
        · exact .refl s.store
      · split
        · exact .replaceOne _ _ s.store
        · exact .refl s.store

theorem writes_cancel (s : GrpChatState) (memberInfo : Option (List String)) (msg : GroupChatCancel) :
    Writes s.store (s.writes (.cancel memberInfo msg)) (s.next (.cancel memberInfo msg)).store := by
  simp only [next, step, writes, Option.getD_some, onGrpMsgChatCancel]
  split
  · exact .refl s.store
  · cases memberInfo with
    | none => exact .refl s.store
    | some members =>
      dsimp only
      split
      · exact .of_updateMany (.insertMany _ _)
      · exact .refl s.store

theorem writes_next (s : GrpChatState) (e : GrpChatEvent) :
    Writes s.store (s.writes e) (s.next e).store := by
  cases e with
  | chat env msg =>
    simp only [next, step, Option.getD_some, store_chat]
    exact .refl s.store
  | send i isLogin => exact s.writes_send i isLogin
  | deliverAck msg => exact .updateMany _ s.store
  | cancel memberInfo msg => exact s.writes_cancel memberInfo msg
  | cancelDeliverAck userId msgId => exact .updateMany _ s.store
  | other e =>
    simp only [next, step, writes]
    split
    · exact e.op.writes s.store
    · exact .refl s.store

end GrpChatState

/-- The entries that the user of a request acknowledges with it. -/
def Request.ackKeys : Request → List EntryKey
  | chat .. | cancel .. => []
  | deliverAck _ msg => [⟨msg.fromId, mesChatDeliver, msg.msgId⟩]
  | delivered _ msg => msg.lsMsgs.map fun item => ⟨msg.fromId, item.cmdId, item.msgId⟩
  | pull _ msg _ => msg.lsMsgs.map fun item => ⟨msg.toId, item.cmdId, item.msgId⟩
  | notifyAck msg => msg.lsMsgs.map fun item => ⟨msg.fromId, item.cmdId, item.msgId⟩

/-- The entries that a step retires for the user who has acknowledged them. -/
def GrpChatEvent.ackKeys : GrpChatEvent → List EntryKey
  | .chat .. | .send .. | .cancel .. => []
  | .deliverAck msg => [⟨msg.fromId, mesGrpchatDeliver, msg.msgId⟩]
  | .cancelDeliverAck userId msgId => [⟨userId, mesChatcancelDeliver, msgId⟩]
  | .other e => if e.op ∈ e.req.ops then e.req.ackKeys.filter e.op.deletes else []

/-- The server, and the entries whose acknowledgement has been handled, which should not be handed
out again. -/
structure AckState where
  server : GrpChatState
  acked : List EntryKey := []

namespace AckState

def next (s : AckState) (e : GrpChatEvent) : AckState :=
  ⟨s.server.next e, e.ackKeys ++ s.acked⟩

/-- A step writes no document of an entry that was acknowledged, as a chat that is sent once more
would. -/
def good (s : AckState) (e : GrpChatEvent) : Prop :=
  ∀ key ∈ s.acked, ¬ Pending (s.server.writes e) key

/-- No entry that was acknowledged is pending. -/
def Retired (s : AckState) : Prop := ∀ key ∈ s.acked, ¬ Pending s.server.store key

theorem not_pending_of_ackKeys (s : GrpChatState) {e : GrpChatEvent} {key : EntryKey}
    (h : key ∈ e.ackKeys) : ¬ Pending (s.next e).store key := by
  have hnames : ∀ {toId msgId : String} {cmdId : UInt32}, key ∈ [⟨toId, cmdId, msgId⟩] →
      ¬ Pending (delOfflineMsg toId cmdId msgId s.store) key := by
    intro toId msgId cmdId hkey hpending
    obtain rfl := List.mem_singleton.mp hkey
    have hkept := (pending_delOfflineMsg.mp hpending).2
    have hnamed : entryKeys toId cmdId msgId ⟨toId, cmdId, msgId⟩ = true :=
      entryKeys_eq_true.mpr ⟨rfl, .inr rfl, .inr rfl⟩
    rw [hnamed] at hkept
    cases hkept
  cases e with
  | chat env msg => cases h
  | send i isLogin => cases h
  | deliverAck msg => exact hnames h
  | cancel memberInfo msg => cases h
  | cancelDeliverAck userId msgId => exact hnames h
  | other e =>
    obtain ⟨hop, hkey⟩ := List.mem_ite_nil_right.mp h
    have hdeletes : e.op.deletes key = true := (List.mem_filter.mp hkey).2
    simp only [GrpChatState.next, GrpChatState.step, if_pos hop, Option.getD_some]
    exact Op.not_pending_of_deletes hdeletes s.store

/-- One step keeps the acknowledged entries away exactly when it is good. -/
theorem retired_next_iff (s : AckState) (e : GrpChatEvent) (hretired : s.Retired) :
    (s.next e).Retired ↔ s.good e := by
  have hwrites := s.server.writes_next e
  constructor
  · intro hafter key hkey hpending
    exact hafter key (List.mem_append_right _ hkey) (hwrites.new key hpending)
  · intro hgood key hkey hpending
    obtain hnow | hkey := List.mem_append.mp hkey
    · exact not_pending_of_ackKeys s.server hnow hpending
    · exact (hwrites.old key hpending).elim (hretired key hkey) (hgood key hkey)

end AckState

/-- The message is in no page of its receiver and does not count as unread. -/
structure NeverShown (store : Store) (key : EntryKey) : Prop where
  not_returned : ∀ env maxLen limitNum,
    ∀ data ∈ (getUserOfflineMsg env key.toId maxLen limitNum store).msglist,
      ¬ (data.cmdId = key.cmdId ∧ data.msgId = key.msgId)
  not_counted : getUserUnreadPushMsgCount key.toId store =
    getUserUnreadPushMsgCount key.toId (store.filter fun doc => doc.entry ≠ key)

/-- A page that may be long enough has all documents that the cursor goes through. -/
theorem exists_addEntries_eq (env : PullEnv) (docs : List OfflineMsg) (ack : MESOfflineMsgAck) :
    ∃ bound : Int, ∀ maxLen, bound ≤ maxLen →
      (addEntries env docs maxLen ack).msglist = ack.msglist ++ docs.map (·.data env) := by
  induction docs generalizing ack with
  | nil => exact ⟨0, fun _ _ => (List.append_nil _).symm⟩
  | cons doc docs ih =>
    obtain ⟨bound, hbound⟩ := ih (ack.add (doc.data env))
    refine ⟨max (bound + 200) ((ack.byteSize + (doc.data env).byteSize : Nat) + 2201), ?_⟩
    intro maxLen hmax
    have hrest : maxLen - 200 ≤ (if doc.cmdId = mesGrpchatDeliver then maxLen - 200 else maxLen) := by
      split <;> omega
    simp only [addEntries]
    generalize (if doc.cmdId = mesGrpchatDeliver then maxLen - 200 else maxLen) = rest at hrest ⊢
    rw [if_neg (by omega), hbound rest (by omega)]
    simp only [MESOfflineMsgAck.add, List.append_assoc, List.singleton_append, List.map_cons]

/-- A pending document is in some page that its receiver may get. -/
theorem exists_returned {store : Store} {doc : OfflineMsg} (hdoc : doc ∈ store)
    (hpulled : doc.bPulled = 0) :
    ∃ maxLen, doc.data {} ∈ (getUserOfflineMsg {} doc.toId maxLen 0 store).msglist := by
  obtain ⟨bound, hbound⟩ := exists_addEntries_eq {} (pullable {} doc.toId 0 store) { toId := doc.toId }
  refine ⟨bound, ?_⟩
  have hmem : doc ∈ pullable {} doc.toId 0 store := by
    refine (List.mem_insertionSort _).mpr (List.mem_filter.mpr ⟨hdoc, ?_⟩)
    simp [isPullable, hpulled]
  simp only [getUserOfflineMsg, hbound bound (Int.le_refl bound)]
  exact List.mem_append_right _ (List.mem_map_of_mem hmem)

theorem neverShown_iff {store : Store} {key : EntryKey} : NeverShown store key ↔
    ¬ Pending store key := by
  constructor
  · rintro hshown ⟨doc, hdoc, rfl, hpulled⟩
    obtain ⟨maxLen, hreturned⟩ := exists_returned hdoc hpulled
    exact hshown.not_returned {} maxLen 0 _ hreturned ⟨rfl, rfl⟩
  · intro hnot
    constructor
    · rintro env maxLen limitNum data hdata ⟨hcmd, hid⟩
      obtain ⟨doc, hdoc, hto, hpulled, rfl⟩ := mem_getUserOfflineMsg hdata
      exact hnot ⟨doc, hdoc, EntryKey.ext hto hcmd hid, hpulled⟩
    · simp only [getUserUnreadPushMsgCount, List.countP_filter]
      refine List.countP_congr fun doc hdoc => ?_
      have hother : doc.bPulled = 0 → doc.entry ≠ key :=
        fun hpulled heq => hnot ⟨doc, hdoc, heq, hpulled⟩
      simp only [Bool.and_eq_true, decide_eq_true_eq]
      exact ⟨fun h => ⟨h, hother h.2⟩, And.left⟩

/-- In every run, an acknowledged message is never shown again exactly when no step writes a
document of an entry that was acknowledged before. -/
theorem acks_final_iff (server : GrpChatState) (events : List GrpChatEvent) :
    (∀ pre, pre <+: events → ∀ key ∈ (pre.foldl AckState.next ⟨server, []⟩).acked,
      NeverShown (pre.foldl AckState.next ⟨server, []⟩).server.store key) ↔
    ∀ pre e, pre ++ [e] <+: events → (pre.foldl AckState.next ⟨server, []⟩).good e := by
  simp only [neverShown_iff]
  refine Run.foldl_inv_iff AckState.Retired ?_ AckState.retired_next_iff events
  exact fun key hkey => absurd hkey List.not_mem_nil

/-- A chat that the receiver acknowledges and the sender sends once more. -/
def resentRun : List GrpChatEvent :=
  ((chatRequest "ann" "bob" "1").events ++ (Request.deliverAck {} ⟨"bob", "ann", "1"⟩).events ++
    (chatRequest "ann" "bob" "1").events).map .other

theorem not_acks_final :
    ¬ ∀ pre, pre <+: resentRun →
      ∀ key ∈ (pre.foldl AckState.next ⟨{ store := [] }, []⟩).acked,
        NeverShown (pre.foldl AckState.next ⟨{ store := [] }, []⟩).server.store key := by
  intro hfinal
  have hkey := hfinal resentRun List.prefix_rfl ⟨"bob", mesChatDeliver, "1"⟩ (by decide +kernel)
  exact neverShown_iff.mp hkey (by decide +kernel)

end Msg

end ImServer
