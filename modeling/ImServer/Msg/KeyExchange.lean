import ImServer.Msg.Acknowledgement
import ImServer.Msg.ChatDurability

/-!
# Exchanging keys

The initiator of an exchange sends one message with a key for each receiver, a receiver acknowledges
it with a key of his own, and the initiator is notified of that and acknowledges the notification
(msg/exchangeKeyHandle.cpp). What a user has not acknowledged yet is an entry of the store, which is
found by its receiver, kind and message id. All receivers of an exchange have one message id.

As for chats, a run is any sequence of operations that requests have, and every operation of mongo
succeeds. Beside the store are remembered the deliveries that their receivers have not acknowledged,
and the notifications that the initiator has not.
-/

namespace ImServer

namespace Msg

def mesExchangeKeyDeliver : UInt32 := 0xb062

def mesExchangeKeyDeliverdNotify : UInt32 := 0xb064

structure UserKey where
  userId : String
  key : String

structure MESExchangeKey where
  fromId : String
  grpId : String
  msgId : String
  encrypt : UInt32 := 0
  exchangeMode : UInt32 := 0
  oprUserId : String := ""
  lsUserKeys : List UserKey

structure MESExchangeKeyDeliver where
  fromId : String
  toId : String
  grpId : String
  msgId : String
  exchangeMode : UInt32
  key : String
  encrypt : UInt32
  oprUserId : String
  msgTime : Nat

structure MESExchangeKeyDeliverAck where
  fromId : String
  toId : String
  grpId : String := ""
  msgId : String
  key : String := ""
  encrypt : UInt32 := 0
  errcode : ErrCode := .nonErr
  msgTime : Nat := 0

structure MESExchangeKeyDeliverNotifyAck where
  userId : String
  msgId : String

/-- How the messages are serialised. The sender of an acknowledgement is found in it again. -/
structure KeyCodec where
  deliver : MESExchangeKeyDeliver → String
  deliverAck : MESExchangeKeyDeliverAck → String
  sFromId : String → String
  sFromId_deliverAck : ∀ msg, sFromId (deliverAck msg) = msg.fromId

namespace OfflineMsg

def ofExchangeKeyDeliver (codec : KeyCodec) (now : Nat) (msg : MESExchangeKeyDeliver) : OfflineMsg where
  msgId := msg.msgId
  fromId := if msg.exchangeMode &&& 0x10 = 0 then msg.grpId else msg.fromId
  toId := msg.toId
  cmdId := mesExchangeKeyDeliver
  msgData := .other (codec.deliver msg)
  createTime := now

def ofExchangeKeyDeliverAck (codec : KeyCodec) (now : Nat) (msg : MESExchangeKeyDeliverAck) :
    OfflineMsg where
  msgId := msg.msgId
  fromId := msg.grpId
  toId := msg.toId
  cmdId := mesExchangeKeyDeliverdNotify
  msgData := .other (codec.deliverAck msg)
  createTime := now

end OfflineMsg

section Handlers

variable (codec : KeyCodec) (now : Nat)

/-- The message for one receiver. -/
def exchangeKeyDeliver (msg : MESExchangeKey) (userKey : UserKey) : MESExchangeKeyDeliver where
  fromId := msg.fromId
  toId := userKey.userId
  grpId := msg.grpId
  msgId := msg.msgId
  exchangeMode := msg.exchangeMode
  key := userKey.key
  encrypt := msg.encrypt
  oprUserId := msg.oprUserId
  msgTime := now

/-- `OnExchangeKey`. Without keys, an error is answered. -/
def onExchangeKey (store : Store) (msg : MESExchangeKey) : Store :=
  if msg.lsUserKeys.length = 0 then store
  else
    insertMany (msg.lsUserKeys.map fun userKey =>
      .ofExchangeKeyDeliver codec now (exchangeKeyDeliver now msg userKey)) store

def onExchangeKeyDeliverNotifyInserted (store : Store) (fromGrpUserId msgId : String) : Store :=
  delOfflineMsg fromGrpUserId mesExchangeKeyDeliver msgId store

def onExchangeKeyDeliverAck (store : Store) (msg : MESExchangeKeyDeliverAck) : Store :=
  let msg := { msg with msgTime := now }
  if msg.grpId = "" ∧ msg.key = "" then delOfflineMsg msg.fromId mesExchangeKeyDeliver msg.msgId store
  else
    match insertOfflineMsg {} (.ofExchangeKeyDeliverAck codec now msg) store with
    | some store => onExchangeKeyDeliverNotifyInserted store msg.fromId msg.msgId
    | none => store

def onExchangeKeyDeliverNotifyAck (store : Store) (msg : MESExchangeKeyDeliverNotifyAck) : Store :=
  delOfflineMsg msg.userId mesExchangeKeyDeliverdNotify msg.msgId store

end Handlers

/-- A receiver of an exchange. -/
structure KeyDelivery where
  userId : String
  msgId : String
  deriving DecidableEq

/-- What the initiator is notified of. -/
structure KeyNotify where
  initiator : String
  msgId : String
  receiver : String
  deriving DecidableEq

def KeyDelivery.entry (delivery : KeyDelivery) : EntryKey :=
  ⟨delivery.userId, mesExchangeKeyDeliver, delivery.msgId⟩

def KeyNotify.entry (notify : KeyNotify) : EntryKey :=
  ⟨notify.initiator, mesExchangeKeyDeliverdNotify, notify.msgId⟩

inductive KeyRequest where
  | exchange (now : Nat) (msg : MESExchangeKey)
  | deliverAck (now : Nat) (msg : MESExchangeKeyDeliverAck)
  | notifyAck (msg : MESExchangeKeyDeliverNotifyAck)
  /-- A request about other messages, such as one that pulls. -/
  | other (req : Request)

/-- The entries that an operation may change, by the keys with which it looks for them. -/
def Op.names : Op → EntryKey → Bool
  | replaceOne toId cmdId msgId _ => entryKeys toId cmdId msgId
  | insertMany _ => fun _ => false
  | delOfflineMsg toId cmdId msgId => entryKeys toId cmdId msgId
  | delOfflineMsgs toId cmdId msgIds => fun key =>
    key.toId = toId && (cmdId = 0 || key.cmdId = cmdId) && msgIds.contains key.msgId

theorem Op.finds_eq_names (op : Op) (doc : OfflineMsg) : op.finds doc = op.names doc.entry := by
  cases op <;> rfl

/-- A user acknowledges an entry of his among those that he was given. -/
def acksEntry (user : String) (items : List OfflineDeliveredMsg) (key : EntryKey) : Bool :=
  key.toId = user &&
    items.any fun item => item.msgId = key.msgId && (item.cmdId = 0 || item.cmdId = key.cmdId)

/-- The entries that a request about other messages acknowledges. -/
def Request.acksEntry : Request → EntryKey → Bool
  | delivered _ msg => Msg.acksEntry msg.fromId msg.lsMsgs
  | pull _ msg _ => Msg.acksEntry msg.toId msg.lsMsgs
  | notifyAck msg => Msg.acksEntry msg.fromId msg.lsMsgs
  | _ => fun _ => false

namespace KeyRequest

variable (codec : KeyCodec)

/-- The operations that write, in their order. A request that is refused has none. -/
def ops : KeyRequest → List Op
  | exchange now msg =>
    if msg.lsUserKeys.length = 0 then []
    else [.insertMany (msg.lsUserKeys.map fun userKey =>
      .ofExchangeKeyDeliver codec now (exchangeKeyDeliver now msg userKey))]
  | deliverAck now msg =>
    let doc := OfflineMsg.ofExchangeKeyDeliverAck codec now { msg with msgTime := now }
    if msg.grpId = "" ∧ msg.key = "" then [.delOfflineMsg msg.fromId mesExchangeKeyDeliver msg.msgId]
    else if doc.isValid then
      [.replaceOne msg.toId mesExchangeKeyDeliverdNotify msg.msgId doc,
        .delOfflineMsg msg.fromId mesExchangeKeyDeliver msg.msgId]
    else []
  | notifyAck msg => [.delOfflineMsg msg.userId mesExchangeKeyDeliverdNotify msg.msgId]
  | other req => req.ops

/-- The store after the handler of a request that no other request interrupts. -/
def handle (store : Store) : KeyRequest → Store
  | exchange now msg => onExchangeKey codec now store msg
  | deliverAck now msg => onExchangeKeyDeliverAck codec now store msg
  | notifyAck msg => onExchangeKeyDeliverNotifyAck store msg
  | other req => req.ops.foldl Op.apply store

/-- The receiver acknowledges the message id of a delivery. -/
def acksDelivery : KeyRequest → KeyDelivery → Bool
  | deliverAck _ msg => fun delivery => delivery.userId = msg.fromId && delivery.msgId = msg.msgId
  | other req => fun delivery => req.acksEntry delivery.entry
  | _ => fun _ => false

/-- The initiator acknowledges a notification with this message id. -/
def acksNotify : KeyRequest → KeyNotify → Bool
  | notifyAck msg => fun notify => notify.initiator = msg.userId && notify.msgId = msg.msgId
  | other req => fun notify => req.acksEntry notify.entry
  | _ => fun _ => false

/-- The deliveries that are begun. -/
def deliveries : KeyRequest → List KeyDelivery
  | exchange _ msg => msg.lsUserKeys.map fun userKey => ⟨userKey.userId, msg.msgId⟩
  | _ => []

/-- What the initiator is notified of, by the first operation. -/
def notifies : KeyRequest → Op → List KeyNotify
  | deliverAck _ msg, .replaceOne .. => [⟨msg.toId, msg.msgId, msg.fromId⟩]
  | _, _ => []

end KeyRequest

/-- An operation of a request. A request that acknowledges notifications does so for those that its
sender has got. -/
structure KeyEvent where
  req : KeyRequest
  op : Op
  got : List KeyNotify := []

structure KeyState where
  store : Store
  deliveries : List KeyDelivery := []
  notifies : List KeyNotify := []

namespace KeyState

variable (codec : KeyCodec)

def step (s : KeyState) (e : KeyEvent) : Option KeyState :=
  if e.op ∈ e.req.ops codec ∧ ∀ notify ∈ e.got, e.req.acksNotify notify then
    some
      { store := e.op.apply s.store
        deliveries := e.req.deliveries ++ s.deliveries.filter (!e.req.acksDelivery ·)
        notifies := e.req.notifies e.op ++ s.notifies.filter (!e.got.contains ·) }
  else none

/-- The receiver that the entry of a notification names. -/
def receiver (doc : OfflineMsg) : Option String :=
  match doc.msgData with
  | .other data => some (codec.sFromId data)
  | _ => none

/-- The entry waits for the initiator and names the receiver, of whom the initiator learns in this
way only. -/
def Waiting (notify : KeyNotify) (doc : OfflineMsg) : Prop :=
  doc.entry = notify.entry ∧ doc.bPulled = 0 ∧ receiver codec doc = some notify.receiver

instance Waiting.decidable (notify : KeyNotify) (doc : OfflineMsg) :
    Decidable (Waiting codec notify doc) := inferInstanceAs (Decidable (_ ∧ _ ∧ _))

/-- What is not acknowledged is pending: the keys for their receivers, and the notices of delivery
for the initiators. -/
structure Kept (s : KeyState) : Prop where
  deliveries : ∀ delivery ∈ s.deliveries, Pending s.store delivery.entry
  notifies : ∀ notify ∈ s.notifies, ∃ doc ∈ s.store, Waiting codec notify doc

/-- An operation finds only entries that its request acknowledges, or the entry of the receiver who
acknowledges once more. -/
structure Good (s : KeyState) (e : KeyEvent) : Prop where
  deliveries : ∀ delivery ∈ s.deliveries, e.op.names delivery.entry → e.req.acksDelivery delivery
  notifies : ∀ notify ∈ s.notifies, e.op.names notify.entry →
    notify ∈ e.got ∨ notify ∈ e.req.notifies e.op

end KeyState

theorem KeyRequest.handle_eq_ops (codec : KeyCodec) (req : KeyRequest) (store : Store) :
    req.handle codec store = (req.ops codec).foldl Op.apply store := by
  cases req with
  | exchange now msg =>
    simp only [handle, ops, onExchangeKey]
    split <;> rfl
  | deliverAck now msg =>
    simp only [handle, ops, onExchangeKeyDeliverAck, insertOfflineMsg, Bool.and_true]
    split
    · rfl
    · cases hvalid : (OfflineMsg.ofExchangeKeyDeliverAck codec now { msg with msgTime := now }).isValid
      · rfl
      · rfl
  | notifyAck msg => rfl
  | other req => rfl

section Kept

variable {codec : KeyCodec} {s s' : KeyState} {e : KeyEvent}

theorem KeyRequest.mem_ops_deliverAck {now : Nat} {msg : MESExchangeKeyDeliverAck} {op : Op}
    (h : op ∈ (deliverAck now msg).ops codec) :
    op = .replaceOne msg.toId mesExchangeKeyDeliverdNotify msg.msgId
        (.ofExchangeKeyDeliverAck codec now { msg with msgTime := now }) ∨
      op = .delOfflineMsg msg.fromId mesExchangeKeyDeliver msg.msgId := by
  simp only [ops] at h
  split at h
  · exact .inr (List.mem_singleton.mp h)
  · split at h
    · exact (List.mem_cons.mp h).imp_right List.mem_singleton.mp
    · cases h

/-- An acknowledgement retires the delivery, and one with a group or a key writes an entry for the
initiator. -/
structure KeyRequest.Acknowledges (codec : KeyCodec) (msg : MESExchangeKeyDeliverAck) : Prop where
  retires : ∀ now, ∃ op ∈ (deliverAck now msg).ops codec, ∀ store,
    ¬ Pending (op.apply store) ⟨msg.fromId, mesExchangeKeyDeliver, msg.msgId⟩
  notifies : ¬ (msg.grpId = "" ∧ msg.key = "") → ∀ now, ∃ op ∈ (deliverAck now msg).ops codec,
    (deliverAck now msg).notifies op = [⟨msg.toId, msg.msgId, msg.fromId⟩]

/-- Without a message id, the entry is not valid and nothing is done. -/
theorem KeyRequest.acknowledges_iff {msg : MESExchangeKeyDeliverAck} :
    Acknowledges codec msg ↔ msg.msgId ≠ "" ∨ msg.grpId = "" ∧ msg.key = "" := by
  have hvalid : ∀ now,
    (OfflineMsg.ofExchangeKeyDeliverAck codec now { msg with msgTime := now }).isValid =
      decide (msg.msgId ≠ "") := fun _ => Bool.true_and _
  have hdeletes : ∀ store, ¬ Pending (Op.apply store (.delOfflineMsg msg.fromId mesExchangeKeyDeliver
      msg.msgId)) ⟨msg.fromId, mesExchangeKeyDeliver, msg.msgId⟩ := by
    intro store
    rw [Op.apply, pending_delOfflineMsg]
    exact fun h => Bool.false_ne_true
      (h.2.symm.trans (entryKeys_eq_true.mpr ⟨rfl, .inr rfl, .inr rfl⟩))
  by_cases hplain : msg.grpId = "" ∧ msg.key = ""
  · refine iff_of_true ⟨fun now => ⟨_, ?_, hdeletes⟩, fun h => absurd hplain h⟩ (.inr hplain)
    rw [ops, if_pos hplain]
    exact List.mem_singleton_self _
  · by_cases hid : msg.msgId = ""
    · refine iff_of_false (fun h => ?_) (not_or.mpr ⟨not_not.mpr hid, hplain⟩)
      obtain ⟨op, hop, -⟩ := h.retires 0
      have hinvalid : decide (msg.msgId ≠ "") = false := decide_eq_false (not_not.mpr hid)
      simp only [ops, hplain, if_false, hvalid, hinvalid, Bool.false_eq_true] at hop
      exact absurd hop List.not_mem_nil
    · have hops : ∀ now, (deliverAck now msg).ops codec =
          [.replaceOne msg.toId mesExchangeKeyDeliverdNotify msg.msgId
              (.ofExchangeKeyDeliverAck codec now { msg with msgTime := now }),
            .delOfflineMsg msg.fromId mesExchangeKeyDeliver msg.msgId] := by
        intro now
        simp only [ops, hplain, if_false, hvalid, ne_eq, hid, not_false_eq_true, decide_true, if_true]
      refine iff_of_true ⟨fun now => ⟨_, ?_, hdeletes⟩, fun _ now => ?_⟩ (.inl hid)
      · rw [hops]
        exact List.mem_cons_of_mem _ (List.mem_singleton_self _)
      · rw [hops]
        exact ⟨_, List.mem_cons_self, rfl⟩

end Kept

namespace KeyState

variable {codec : KeyCodec} {s s' : KeyState} {e : KeyEvent}

/-- A document that an operation does not find stays as it is. -/
theorem mem_apply_of_names {op : Op} {doc : OfflineMsg} {store : Store} (hmem : doc ∈ store)
    (hnames : op.names doc.entry = false) : doc ∈ op.apply store :=
  Op.mem_apply hmem ((op.finds_eq_names doc).trans hnames)

theorem pending_deliveries (hop : e.op ∈ e.req.ops codec) {delivery : KeyDelivery}
    (hmem : delivery ∈ e.req.deliveries) : Pending (e.op.apply s.store) delivery.entry := by
  obtain ⟨req, op, got⟩ := e
  cases req with
  | exchange now msg =>
    obtain ⟨userKey, huser, rfl⟩ := List.mem_map.mp hmem
    obtain ⟨-, hop⟩ := List.mem_ite_nil_left.mp hop
    obtain rfl := List.mem_singleton.mp hop
    exact ⟨_, List.mem_append_right _ (List.mem_map_of_mem huser), rfl, rfl⟩
  | deliverAck | notifyAck | other => cases hmem

/-- The entry that is written for a notification waits for the initiator. -/
theorem waiting_notifies (hop : e.op ∈ e.req.ops codec) {notify : KeyNotify}
    (hmem : notify ∈ e.req.notifies e.op) : ∃ doc ∈ e.op.apply s.store, Waiting codec notify doc := by
  obtain ⟨req, op, got⟩ := e
  cases req with
  | deliverAck now msg =>
    cases op with
    | replaceOne toId cmdId msgId doc =>
      obtain rfl := List.mem_singleton.mp hmem
      obtain hop | hop := KeyRequest.mem_ops_deliverAck hop <;> cases hop
      exact ⟨_, new_mem_replaceOne _ _ _, rfl, rfl,
        congrArg some (codec.sFromId_deliverAck { msg with msgTime := now })⟩
    | insertMany | delOfflineMsg | delOfflineMsgs => cases hmem
  | exchange | notifyAck | other => cases hmem

theorem Kept.step (h : s.Kept codec) (hgood : s.Good e) (hstep : s.step codec e = some s') :
    s'.Kept codec := by
  obtain ⟨⟨hop, hgot⟩, hstate⟩ := Option.ite_none_right_eq_some.mp hstep
  obtain rfl := Option.some.inj hstate
  refine ⟨fun delivery hmem => ?_, fun notify hmem => ?_⟩
  · obtain hnew | hold := List.mem_append.mp hmem
    · exact pending_deliveries hop hnew
    · obtain ⟨hold, hnot⟩ := List.mem_filter.mp hold
      obtain ⟨doc, hdoc, hentry, hpulled⟩ := h.deliveries delivery hold
      have hnames : e.op.names doc.entry = false := by
        rw [hentry, ← Bool.not_eq_true]
        intro hnames
        rw [hgood.deliveries delivery hold hnames] at hnot
        cases hnot
      exact ⟨doc, mem_apply_of_names hdoc hnames, hentry, hpulled⟩
  · obtain hnew | hold := List.mem_append.mp hmem
    · exact waiting_notifies hop hnew
    · obtain ⟨hold, hnot⟩ := List.mem_filter.mp hold
      obtain ⟨doc, hdoc, hwaiting⟩ := h.notifies notify hold
      by_cases hnames : e.op.names notify.entry = true
      · obtain hgot | hnew := hgood.notifies notify hold hnames
        · rw [List.contains_iff_mem.mpr hgot] at hnot
          cases hnot
        · exact waiting_notifies hop hnew
      · have hnames : e.op.names doc.entry = false := by
          rw [hwaiting.1]
          exact Bool.eq_false_iff.mpr hnames
        exact ⟨doc, mem_apply_of_names hdoc hnames, hwaiting⟩

/-- In every run of good operations, a delivery is pending until its receiver acknowledges it, and a
notification until the initiator does. An acknowledgement does what it should exactly if it has a
message id, or neither a group nor a key. -/
theorem exchange_kept {store : Store} (h : Run.Reaches (step codec) Good { store := store } s) :
    s.Kept codec ∧
      ∀ msg, KeyRequest.Acknowledges codec msg ↔ msg.msgId ≠ "" ∨ msg.grpId = "" ∧ msg.key = "" := by
  refine ⟨h.invariant (Kept codec) ?_ fun _ _ _ hkept hgood hstep => hkept.step hgood hstep,
    fun _ => KeyRequest.acknowledges_iff⟩
  exact ⟨fun _ hmem => absurd hmem List.not_mem_nil, fun _ hmem => absurd hmem List.not_mem_nil⟩

/-- A message is serialised to the user who sent it. -/
def senderCodec : KeyCodec where
  deliver := fun msg => msg.fromId
  deliverAck := fun msg => msg.fromId
  sFromId := id
  sFromId_deliverAck := fun _ => rfl

def twoKeys : MESExchangeKey where
  fromId := "i"
  grpId := "g"
  msgId := "m"
  lsUserKeys := [⟨"a", "k1"⟩, ⟨"b", "k2"⟩]

/-- An acknowledgement with a key. -/
def keyAck (fromId : String) : MESExchangeKeyDeliverAck where
  fromId := fromId
  toId := "i"
  msgId := "m"
  key := "k"

/-- The operations of a request that no other request interrupts, as events of the server. -/
def events (req : KeyRequest) : List KeyEvent := (req.ops senderCodec).map fun op => { req, op }

instance decidableGood (s : KeyState) (e : KeyEvent) : Decidable (s.Good e) :=
  decidable_of_iff
    ((∀ delivery ∈ s.deliveries, e.op.names delivery.entry → e.req.acksDelivery delivery) ∧
      ∀ notify ∈ s.notifies, e.op.names notify.entry →
        notify ∈ e.got ∨ notify ∈ e.req.notifies e.op)
    ⟨fun h => ⟨h.1, h.2⟩, fun h => ⟨h.deliveries, h.notifies⟩⟩

/-- One receiver acknowledges, then the initiator does, and then the other receiver. -/
def inTurn : List KeyEvent :=
  events (.exchange 0 twoKeys) ++ events (.deliverAck 1 (keyAck "a")) ++
    ((KeyRequest.notifyAck ⟨"i", "m"⟩).ops senderCodec).map
      (fun op => { req := .notifyAck ⟨"i", "m"⟩, op, got := [⟨"i", "m", "a"⟩] }) ++
    events (.deliverAck 2 (keyAck "b"))

theorem exchange_kept_inTurn :
    ((Run.runGood (step senderCodec) Good { store := [] } inTurn).map
        fun s => (s.deliveries, s.notifies)) = some ([], [⟨"i", "m", "b"⟩]) ∧
      ∀ s ∈ Run.runGood (step senderCodec) Good { store := [] } inTurn,
        s.Kept senderCodec ∧ ∀ msg, KeyRequest.Acknowledges senderCodec msg ↔
          msg.msgId ≠ "" ∨ msg.grpId = "" ∧ msg.key = "" :=
  ⟨by decide +kernel, fun _ hrun => exchange_kept (Run.reaches_of_runGood hrun)⟩

/-- The second acknowledgement takes the entry of the first away. -/
theorem not_exchange_kept :
    ∃ s, Run.run (step senderCodec) { store := [] } (events (.exchange 0 twoKeys) ++
        events (.deliverAck 1 (keyAck "a")) ++ events (.deliverAck 2 (keyAck "b"))) = some s ∧
      ⟨"i", "m", "a"⟩ ∈ s.notifies ∧ ¬ s.Kept senderCodec := by
  have hrun : (Run.run (step senderCodec) { store := [] } (events (.exchange 0 twoKeys) ++
      events (.deliverAck 1 (keyAck "a")) ++ events (.deliverAck 2 (keyAck "b")))).map
        (fun s => (decide (⟨"i", "m", "a"⟩ ∈ s.notifies),
          decide (∃ doc ∈ s.store, Waiting senderCodec ⟨"i", "m", "a"⟩ doc))) = some (true, false) := by
    decide +kernel
  obtain ⟨s, hsome, heq⟩ := Option.map_eq_some_iff.mp hrun
  obtain ⟨hmem, hnone⟩ := Prod.mk.inj heq
  have hmem := of_decide_eq_true hmem
  exact ⟨s, hsome, hmem, fun hkept => of_decide_eq_false hnone (hkept.notifies _ hmem)⟩

end KeyState

end Msg

end ImServer
