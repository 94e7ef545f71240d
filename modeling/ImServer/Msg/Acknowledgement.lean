import ImServer.Msg.GroupChat

/-!
# What an acknowledgement retires

Three handlers of the message server delete entries that a receiver acknowledges
(msg/msghandle.cpp, msg/groupChatHandle.cpp). An entry is named by its receiver, its kind and
its message id, and it is pending while one of its documents has not been deleted. The filter
of a delete leaves out an empty message id, and only the handler of direct chats rejects one.
-/

namespace ImServer

namespace Msg

@[ext]
structure EntryKey where
  toId : String
  cmdId : UInt32
  msgId : String
  deriving DecidableEq, Repr

def OfflineMsg.entry (doc : OfflineMsg) : EntryKey := ⟨doc.toId, doc.cmdId, doc.msgId⟩

def Pending (store : Store) (key : EntryKey) : Prop :=
  ∃ doc ∈ store, doc.entry = key ∧ doc.bPulled = 0

instance Pending.decidable (store : Store) (key : EntryKey) : Decidable (Pending store key) :=
  inferInstanceAs (Decidable (∃ doc ∈ store, _))

/-- The entries that `COfflineMsgKeys` finds. -/
def entryKeys (toId : String) (cmdId : UInt32) (msgId : String) (key : EntryKey) : Bool :=
  key.toId = toId && (msgId = "" || key.msgId = msgId) && (cmdId = 0 || key.cmdId = cmdId)

theorem entryKeys_eq_true {toId msgId : String} {cmdId : UInt32} {key : EntryKey} :
    entryKeys toId cmdId msgId key = true ↔
      key.toId = toId ∧ (msgId = "" ∨ key.msgId = msgId) ∧ (cmdId = 0 ∨ key.cmdId = cmdId) := by
  simp only [entryKeys, Bool.and_eq_true, Bool.or_eq_true, decide_eq_true_eq, and_assoc]

theorem mem_of_mem_replaceOne {filter : OfflineMsg → Bool} {doc new : OfflineMsg} {store : Store}
    (h : doc ∈ replaceOne filter new store) : doc = new ∨ doc ∈ store :=
  Collection.mem_of_mem_replaceOne (replaceOne_eq filter new store ▸ h)

section Operations

variable {store : Store} {key : EntryKey} {filter : OfflineMsg → Bool} {names : EntryKey → Bool}

/-- A pending document stays pending exactly when the filter does not find it. -/
theorem mem_updateMany_iff {doc : OfflineMsg} (h : doc.bPulled = 0) :
    doc ∈ updateMany filter store ↔ doc ∈ store ∧ filter doc = false := by
  constructor
  · intro hdoc
    obtain ⟨old, hold, rfl⟩ := List.mem_map.mp hdoc
    cases hfound : filter old with
    | true => simp [hfound] at h
    | false =>
      simp only [hfound, Bool.false_eq_true, if_false]
      exact ⟨hold, trivial⟩
  · rintro ⟨hdoc, hfound⟩
    exact mem_updateMany hdoc hfound

/-- Deleting retires the entries that the filter names, and no others. -/
theorem pending_updateMany (hfilter : ∀ doc, filter doc = names doc.entry) :
    Pending (updateMany filter store) key ↔ Pending store key ∧ names key = false := by
  constructor
  · rintro ⟨doc, hdoc, rfl, hpulled⟩
    obtain ⟨hdoc, hfound⟩ := (mem_updateMany_iff hpulled).mp hdoc
    exact ⟨⟨doc, hdoc, rfl, hpulled⟩, (hfilter doc).symm.trans hfound⟩
  · rintro ⟨⟨doc, hdoc, rfl, hpulled⟩, hnames⟩
    exact ⟨doc, (mem_updateMany_iff hpulled).mpr ⟨hdoc, (hfilter doc).trans hnames⟩, rfl, hpulled⟩

theorem pending_delOfflineMsg {toId msgId : String} {cmdId : UInt32} :
    Pending (delOfflineMsg toId cmdId msgId store) key ↔
      Pending store key ∧ entryKeys toId cmdId msgId key = false :=
  pending_updateMany fun _ => rfl

/-- Replacing an entry that the filter does not name keeps it pending. -/
theorem Pending.replaceOne (h : Pending store key) (hfilter : ∀ doc, filter doc = names doc.entry)
    (hnames : names key = false) (new : OfflineMsg) : Pending (replaceOne filter new store) key := by
  obtain ⟨doc, hdoc, rfl, hpulled⟩ := h
  exact ⟨doc, mem_replaceOne hdoc ((hfilter doc).trans hnames), rfl, hpulled⟩

theorem pending_of_mem_replaceOne (filter : OfflineMsg → Bool) {new : OfflineMsg}
    (hnew : new.bPulled = 0) (store : Store) : Pending (Msg.replaceOne filter new store) new.entry :=
  ⟨new, new_mem_replaceOne filter new store, rfl, hnew⟩

theorem Pending.insertOfflineMsg (h : Pending store key) {env : Env} {doc : OfflineMsg}
    (hdoc : doc.bPulled = 0) {store' : Store} (hinsert : insertOfflineMsg env doc store = some store') :
    Pending store' key := by
  obtain ⟨hvalid, hstore⟩ := Option.ite_none_right_eq_some.mp hinsert
  obtain rfl := Option.some.inj hstore
  obtain ⟨hcmd, hid⟩ := isValid_eq_true.mp (Bool.and_eq_true_iff.mp hvalid).1
  cases hnames : entryKeys doc.toId doc.cmdId doc.msgId key with
  | false =>
    exact h.replaceOne (fun stored => (rfl : doc.keyDoc stored = entryKeys _ _ _ stored.entry))
      hnames doc
  | true =>
    obtain ⟨hto, hmsgId, hcmdId⟩ := entryKeys_eq_true.mp hnames
    obtain rfl : doc.entry = key :=
      EntryKey.ext hto.symm (hcmdId.resolve_left hcmd).symm (hmsgId.resolve_left hid).symm
    exact pending_of_mem_replaceOne _ hdoc store

end Operations

structure MESChatCancelAck where
  userId : String
  msgId : String
  deriving DecidableEq, Repr

def onGrpMsgChatCancelDeliverAck (store : Store) (msg : MESChatCancelAck) : Store :=
  delOfflineMsg msg.userId mesChatcancelDeliver msg.msgId store

/-- What a client may send to acknowledge what was delivered to it. -/
inductive Ack where
  | chat (env : Env) (msg : MESChatDeliveredAck)
  | grpChat (msg : MESGrpChatDeliveredAck)
  | chatCancel (msg : MESChatCancelAck)

namespace Ack

def handle (store : Store) : Ack → Store
  | chat env msg => onMsgChatDeliverAck env store msg
  | grpChat msg => onGrpMsgChatDeliverAck store msg
  | chatCancel msg => onGrpMsgChatCancelDeliverAck store msg

/-- The entry that is acknowledged, by the receiver, the kind of the message and its id. -/
def entry : Ack → EntryKey
  | chat _ msg => ⟨msg.fromId, mesChatDeliver, msg.msgId⟩
  | grpChat msg => ⟨msg.fromId, mesGrpchatDeliver, msg.msgId⟩
  | chatCancel msg => ⟨msg.userId, mesChatcancelDeliver, msg.msgId⟩

/-- Whether the handler rejects an acknowledgement without a message id, which would otherwise
delete by the receiver and the kind alone. -/
def checked : Ack → Bool
  | chat .. => true
  | grpChat _ | chatCancel _ => false

def Retires (ack : Ack) (store : Store) (key : EntryKey) : Prop :=
  Pending store key ∧ ¬ Pending (ack.handle store) key

theorem handle_of_not_checked {ack : Ack} (h : ack.checked = false) (store : Store) :
    ack.handle store = delOfflineMsg ack.entry.toId ack.entry.cmdId ack.entry.msgId store := by
  cases ack with
  | chat env msg => cases h
  | grpChat msg => rfl
  | chatCancel msg => rfl

theorem cmdId_ne (ack : Ack) : ack.entry.cmdId ≠ 0 := by
  cases ack with
  | chat env msg => exact (by decide : mesChatDeliver ≠ 0)
  | grpChat msg => exact (by decide : mesGrpchatDeliver ≠ 0)
  | chatCancel msg => exact (by decide : mesChatcancelDeliver ≠ 0)

theorem retires_iff {ack : Ack} (h : ack.checked = false) {store : Store} {key : EntryKey} :
    ack.Retires store key ↔ Pending store key ∧ key.toId = ack.entry.toId ∧
      (ack.entry.msgId = "" ∨ key.msgId = ack.entry.msgId) ∧ key.cmdId = ack.entry.cmdId := by
  have hcmd : ∀ {cmdId : UInt32}, ack.entry.cmdId = 0 ∨ cmdId = ack.entry.cmdId ↔
      cmdId = ack.entry.cmdId := or_iff_right ack.cmdId_ne
  rw [Retires, handle_of_not_checked h, pending_delOfflineMsg, ← hcmd, ← entryKeys_eq_true]
  constructor
  · rintro ⟨hpending, hretired⟩
    exact ⟨hpending, Bool.not_eq_false _ ▸ fun hnames => hretired ⟨hpending, hnames⟩⟩
  · rintro ⟨hpending, hnames⟩
    refine ⟨hpending, ?_⟩
    rintro ⟨-, hnot⟩
    rw [hnames] at hnot
    cases hnot

/-- The handler of direct chats retires nothing but the acknowledged entry. -/
theorem retires_chat {env : Env} {msg : MESChatDeliveredAck} {store : Store} {key : EntryKey}
    (h : (chat env msg).Retires store key) : key = (chat env msg).entry := by
  obtain ⟨hpending, hretired⟩ := h
  simp only [handle, onMsgChatDeliverAck] at hretired
  split at hretired
  · exact absurd hpending hretired
  · next hids =>
    push Not at hids
    simp only [handleMsgChatDeliverAckTask] at hretired
    split at hretired
    · next hinsert =>
      have hkept := hpending.insertOfflineMsg rfl hinsert
      have hnames : entryKeys msg.fromId mesChatDeliver msg.msgId key = true := by
        by_contra hnot
        exact hretired (pending_delOfflineMsg.mpr ⟨hkept, Bool.eq_false_iff.mpr hnot⟩)
      obtain ⟨hto, hid, hcmd⟩ := entryKeys_eq_true.mp hnames
      exact EntryKey.ext hto (hcmd.resolve_left (by decide)) (hid.resolve_left hids.2.2)
    · exact absurd hpending hretired

end Ack

/-- An acknowledgement retires no other entry than its own exactly when it has a message id, or
is rejected without one, or its receiver has no other entry of its kind. -/
theorem ack_exact_iff (store : Store) (ack : Ack) :
    (∀ key, ack.Retires store key → key = ack.entry) ↔
      ack.checked = true ∨ ack.entry.msgId ≠ "" ∨
        ∀ key, Pending store key → key.toId = ack.entry.toId → key.cmdId = ack.entry.cmdId →
          key.msgId = "" := by
  cases hchecked : ack.checked with
  | true =>
    refine iff_of_true ?_ (.inl rfl)
    intro key hretires
    cases ack with
    | chat env msg => exact Ack.retires_chat hretires
    | grpChat msg => cases hchecked
    | chatCancel msg => cases hchecked
  | false =>
    simp only [Ack.retires_iff hchecked, Bool.false_eq_true, false_or]
    constructor
    · intro hexact
      by_contra hnot
      push Not at hnot
      obtain ⟨hid, key, hpending, hto, hcmd, hother⟩ := hnot
      have hkey := hexact key ⟨hpending, hto, .inl hid, hcmd⟩
      exact hother ((congrArg EntryKey.msgId hkey).trans hid)
    · rintro hcond key ⟨hpending, hto, hid, hcmd⟩
      refine EntryKey.ext hto hcmd ?_
      by_cases hempty : ack.entry.msgId = ""
      · exact (hcond.resolve_left (not_not_intro hempty) key hpending hto hcmd).trans hempty.symm
      · exact hid.resolve_left hempty

/-- The acknowledgement of a group chat that has no message id. -/
theorem not_ack_exact :
    ∃ (store : Store) (ack : Ack), ¬ ∀ key, ack.Retires store key → key = ack.entry := by
  refine ⟨[.ofGrpChat ⟨"ann", "group00000000000000a1", "1", "hi", 0⟩ "bob"],
    .grpChat ⟨"bob", "group00000000000000a1", ""⟩, ?_⟩
  intro hexact
  have hkey := hexact ⟨"bob", mesGrpchatDeliver, "1"⟩ ⟨by decide, by decide⟩
  exact absurd (congrArg EntryKey.msgId hkey) (by decide)

end Msg

end ImServer
