import ImServer.Lib.Collection
import ImServer.Lib.Run
import ImServer.Msg.OfflineMsg

/-!
# Chats stay until they are acknowledged

The tasks of the message server run in several threads, so that only the single operations of
mongo are atomic. A run here is any sequence of operations that requests have, whatever
requests they belong to; the runs of the server are among them. What is remembered beside the
store are the chats that were answered without an error and that neither the receiver has
acknowledged nor the sender has cancelled.
-/

namespace ImServer

namespace Msg

inductive Op where
  | replaceOne (toId : String) (cmdId : UInt32) (msgId : String) (doc : OfflineMsg)
  | insertMany (docs : List OfflineMsg)
  | delOfflineMsg (toId : String) (cmdId : UInt32) (msgId : String)
  | delOfflineMsgs (toId : String) (cmdId : UInt32) (msgIds : List String)
  deriving DecidableEq, Repr

namespace Op

def apply (store : Store) : Op → Store
  | replaceOne toId cmdId msgId doc => Msg.replaceOne (offlineMsgKeys toId cmdId msgId) doc store
  | insertMany docs => Msg.insertMany docs store
  | delOfflineMsg toId cmdId msgId => Msg.delOfflineMsg toId cmdId msgId store
  | delOfflineMsgs toId cmdId msgIds => Msg.delOfflineMsgs toId cmdId msgIds store

/-- The documents that an operation may change. -/
def finds : Op → OfflineMsg → Bool
  | replaceOne toId cmdId msgId _ => offlineMsgKeys toId cmdId msgId
  | insertMany _ => fun _ => false
  | delOfflineMsg toId cmdId msgId => offlineMsgKeys toId cmdId msgId
  | delOfflineMsgs toId cmdId msgIds => manyMsgKeys toId cmdId msgIds

end Op

inductive Request where
  | chat (env : Env) (msg : MESChat)
  /-- `pulled` is what the task has found before it writes. -/
  | cancel (env : Env) (msg : MESChatCancel) (pulled : Bool)
  | deliverAck (env : Env) (msg : MESChatDeliveredAck)
  | delivered (env : Env) (msg : MESOfflineMsgDelivered)
  | pull (env : Env) (msg : MESOfflineMsg) (dirty : List String)
  | notifyAck (msg : MESOfflineMsgDeliveredNotifyAck)

/-- The operations of `deleteOthers`. -/
def othersOps (items : List OfflineDeliveredMsg) : List Op :=
  let map := Multimap.groups DeleteKey.lt
    ((items.filter (!isChat ·)).map fun item => ((⟨item.toId, item.cmdId⟩ : DeleteKey), item.msgId))
  map.map fun group => .delOfflineMsgs group.1.toId group.1.cmdId group.2

/-- The operations of `deliverChats`. -/
def chatOps (env : Env) (user : String) (group : String × List OfflineDeliveredMsg) : List Op :=
  if 0 < group.2.length then
    [.insertMany (group.2.map fun item => .ofDeliveredAck env.now (notifyOf item)),
      .delOfflineMsgs user mesChatDeliver (group.2.map (·.msgId))]
  else []

/-- The operations of `deliverItems`. -/
def deliverOps (env : Env) (user : String) (items : List OfflineDeliveredMsg) : List Op :=
  let map := Multimap.groups (fun a b : String => decide (a < b))
    ((items.filter isChat).map fun item => (item.fromId, item))
  othersOps items ++ map.flatMap (chatOps env user)

namespace Request

/-- The operations that write, in their order. A request that is refused has none. -/
def ops : Request → List Op
  | chat env msg =>
    if msg.fromId = "" ∨ msg.toId = "" ∨ msg.msgId = "" ∨ msg.content = "" ∨
        friendErr env.friend ≠ .nonErr ∨ !env.written then []
    else [.replaceOne msg.toId mesChatDeliver msg.msgId (.ofChat env.now msg)]
  | cancel env msg pulled =>
    if msg.fromId = "" ∨ msg.toId = "" ∨ msg.msgId = "" ∨ friendErr env.friend ≠ .nonErr ∨
        !env.written then []
    else [.replaceOne msg.toId mesChatDeliver msg.msgId
      (.ofCancel { msg with sendState := if pulled then 1 else 0 })]
  | deliverAck env msg =>
    if msg.fromId = "" ∨ msg.toId = "" ∨ msg.msgId = "" ∨ !env.written then []
    else [.replaceOne msg.toId mesChatDeliveredNotification msg.msgId (.ofDeliveredAck env.now msg),
      .delOfflineMsg msg.fromId mesChatDeliver msg.msgId]
  | delivered env msg => if msg.fromId = "" then [] else deliverOps env msg.fromId msg.lsMsgs
  | pull env msg dirty =>
    if msg.toId = "" ∨ msg.msgId = "" then []
    else deliverOps env msg.toId msg.lsMsgs ++ dirty.map (.delOfflineMsg msg.toId mesGrpchatDeliver ·)
  | notifyAck msg =>
    let map := Multimap.groups (fun a b : UInt32 => decide (a.toInt32 < b.toInt32))
      (msg.lsMsgs.map fun item => (item.cmdId, item.msgId))
    map.map fun group => .delOfflineMsgs msg.fromId group.1 group.2

/-- The store after the task of a request that no other task interrupts. -/
def handle (store : Store) : Request → Store
  | chat env msg => (onMsgChat env store msg).2
  | cancel env msg _ => (onMsgChatCancel env store msg).2
  | deliverAck env msg => onMsgChatDeliverAck env store msg
  | delivered env msg => onOfflineMsgDelivered env store msg
  | pull env msg dirty => onGetOfflineMsg env store msg dirty
  | notifyAck msg => handleOfflineMsgDeliveredNotifyAckTask store msg

/-- The request with what its task finds. -/
def find (store : Store) : Request → Request
  | cancel env msg _ => cancel env msg (getOfflineMsgPullStatus msg.toId mesChatDeliver msg.msgId store)
  | req => req

end Request

theorem deleteOthers_eq_ops (store : Store) (items : List OfflineDeliveredMsg) :
    deleteOthers store items = (othersOps items).foldl Op.apply store := by
  simp only [deleteOthers, othersOps, List.foldl_map]
  rfl

theorem deliverChats_eq_ops (env : Env) (user msgId : String)
    (res : Store × List MESOfflineMsgDelivered) (group : String × List OfflineDeliveredMsg) :
    (deliverChats env user msgId res group).1 = (chatOps env user group).foldl Op.apply res.1 := by
  simp only [deliverChats, chatOps, List.length_map]
  split <;> rfl

theorem foldl_deliverChats_eq_ops (env : Env) (user msgId : String)
    (groups : List (String × List OfflineDeliveredMsg)) (res : Store × List MESOfflineMsgDelivered) :
    (groups.foldl (deliverChats env user msgId) res).1 =
      (groups.flatMap (chatOps env user)).foldl Op.apply res.1 := by
  induction groups generalizing res with
  | nil => rfl
  | cons group groups ih =>
    rw [List.foldl_cons, List.flatMap_cons, List.foldl_append, ih, deliverChats_eq_ops]

theorem deliverItems_eq_ops (env : Env) (store : Store) (user msgId : String)
    (items : List OfflineDeliveredMsg) :
    (deliverItems env store user msgId items).1 = (deliverOps env user items).foldl Op.apply store := by
  simp only [deliverItems, deliverOps, List.foldl_append]
  rw [foldl_deliverChats_eq_ops, deleteOthers_eq_ops]

theorem onMsgChat_spec (env : Env) (store : Store) (msg : MESChat) :
    ((onMsgChat env store msg).1 = some .nonErr ↔ (Request.chat env msg).ops ≠ []) ∧
      (onMsgChat env store msg).2 = (Request.chat env msg).ops.foldl Op.apply store := by
  by_cases hids : msg.fromId = "" ∨ msg.toId = "" ∨ msg.msgId = ""
  · have hops : (Request.chat env msg).ops = [] := if_pos (by tauto)
    simp [onMsgChat, hids, hops]
  · have hvalid : (OfflineMsg.ofChat env.now msg).isValid = true := by
      push Not at hids
      simp [OfflineMsg.isValid, OfflineMsg.ofChat, hids, mesChatDeliver]
    simp only [onMsgChat, if_neg hids, handleMsgChatTask, insertOfflineMsg, hvalid, Bool.true_and]
    by_cases hcontent : msg.content = ""
    · simp [Request.ops, hcontent]
    · by_cases hfriend : friendErr env.friend = .nonErr
      · cases hwritten : env.written with
        | false => simp [Request.ops, hcontent, hfriend, hwritten]
        | true =>
          push Not at hids
          simp [Request.ops, hids, hcontent, hfriend, hwritten]
          rfl
      · simp [Request.ops, hcontent, hfriend]

theorem onMsgChatDeliverAck_spec (env : Env) (store : Store) (msg : MESChatDeliveredAck) :
    onMsgChatDeliverAck env store msg = (Request.deliverAck env msg).ops.foldl Op.apply store := by
  by_cases hids : msg.fromId = "" ∨ msg.toId = "" ∨ msg.msgId = ""
  · have hops : (Request.deliverAck env msg).ops = [] := if_pos (by tauto)
    simp [onMsgChatDeliverAck, hids, hops]
  · have hvalid : (OfflineMsg.ofDeliveredAck env.now msg).isValid = true := by
      push Not at hids
      simp [OfflineMsg.isValid, OfflineMsg.ofDeliveredAck, hids, mesChatDeliveredNotification]
    simp only [onMsgChatDeliverAck, if_neg hids, handleMsgChatDeliverAckTask, insertOfflineMsg,
      hvalid, Bool.true_and]
    push Not at hids
    cases hwritten : env.written with
    | false => simp [Request.ops, hwritten]
    | true =>
      simp [Request.ops, hids, hwritten]
      rfl

/-- The task of a request does the operations of the request. -/
theorem Request.handle_eq_ops (req : Request) (store : Store) :
    req.handle store = (req.find store).ops.foldl Op.apply store := by
  cases req with
  | chat env msg => exact (onMsgChat_spec env store msg).2
  | cancel env msg pulled =>
    simp only [handle, find, ops, onMsgChatCancel, handleMsgChatCancelTask]
    split_ifs <;> simp_all [Op.apply]
  | deliverAck env msg => exact onMsgChatDeliverAck_spec env store msg
  | delivered env msg =>
    simp only [handle, find, ops, onOfflineMsgDelivered]
    split
    · rfl
    · exact deliverItems_eq_ops env store msg.fromId msg.msgId msg.lsMsgs
  | pull env msg dirty =>
    simp only [handle, find, ops, onGetOfflineMsg]
    split
    · rfl
    · simp only [handleGetOfflineMsg, List.foldl_append, List.foldl_map]
      rw [← deliverItems_eq_ops env store msg.toId msg.msgId msg.lsMsgs]
      cases hitems : msg.lsMsgs with
      | nil => rfl
      | cons item rest => simp [handlePulledDelivered, hitems, Op.apply]
  | notifyAck msg =>
    simp only [handle, find, ops, handleOfflineMsgDeliveredNotifyAckTask, List.foldl_map]
    rfl

/-- The items that acknowledge a chat of the user. -/
def acksItems (user : String) (items : List OfflineDeliveredMsg) (chat : MESChat) : Bool :=
  chat.toId = user &&
    items.any fun item => item.msgId = chat.msgId && (item.cmdId = 0 || isChat item)

namespace Request

/-- The receiver of the chat acknowledges its message id, by whichever of the requests that can do
so. -/
def acks : Request → MESChat → Bool
  | deliverAck _ msg => fun chat => chat.toId = msg.fromId && chat.msgId = msg.msgId
  | delivered _ msg => acksItems msg.fromId msg.lsMsgs
  | pull _ msg _ => acksItems msg.toId msg.lsMsgs
  | notifyAck msg => acksItems msg.fromId msg.lsMsgs
  | _ => fun _ => false

/-- The sender of the chat cancels it. -/
def cancels : Request → MESChat → Bool
  | cancel _ msg _ => fun chat =>
    chat.fromId = msg.fromId && chat.toId = msg.toId && chat.msgId = msg.msgId
  | _ => fun _ => false

/-- The chats that are answered without an error. -/
def accepts (store : Store) : Request → List MESChat
  | chat env msg => if (onMsgChat env store msg).1 = some .nonErr then [msg] else []
  | _ => []

end Request

structure Event where
  req : Request
  op : Op

structure ChatState where
  store : Store
  unacked : List MESChat := []
  deriving DecidableEq

def ChatState.step (s : ChatState) (e : Event) : Option ChatState :=
  if e.op ∈ e.req.ops then
    some
      { store := e.op.apply s.store
        unacked := e.req.accepts s.store ++
          s.unacked.filter fun chat => !(e.req.acks chat || e.req.cancels chat) }
  else none

/-- The document waits to be pulled by the receiver of the chat. -/
def Waits (chat : MESChat) (doc : OfflineMsg) : Prop :=
  doc.msgId = chat.msgId ∧ doc.fromId = chat.fromId ∧ doc.toId = chat.toId ∧
    doc.cmdId = mesChatDeliver ∧ doc.msgData = .chat chat ∧ doc.bPulled = 0

instance (chat : MESChat) (doc : OfflineMsg) : Decidable (Waits chat doc) :=
  inferInstanceAs (Decidable (_ ∧ _))

/-- Every chat that is not acknowledged is in the store, in a document that its receiver can
pull. -/
def ChatState.Durable (s : ChatState) : Prop :=
  ∀ chat ∈ s.unacked, ∃ doc ∈ s.store, Waits chat doc

instance (s : ChatState) : Decidable s.Durable :=
  inferInstanceAs (Decidable (∀ chat ∈ s.unacked, ∃ doc ∈ s.store, Waits chat doc))

/-- A user deletes no chats of another user: with the command 0, an item names the receiver. -/
def OwnOnly (s : ChatState) (user : String) : Op → Prop
  | .delOfflineMsgs toId cmdId msgIds =>
    toId = user ∨ cmdId ≠ 0 ∨ ∀ chat ∈ s.unacked, chat.toId = toId → chat.msgId ∉ msgIds
  | _ => True

/-- A chat and a cancel find no waiting chat of another sender, and no other chat of theirs, under
their message id, and a user deletes no chats of another user. -/
def ChatState.good (s : ChatState) (e : Event) : Prop :=
  match e.req with
  | .chat _ msg =>
    ∀ chat ∈ s.unacked, chat.toId = msg.toId → chat.msgId = msg.msgId → chat = msg
  | .cancel _ msg _ =>
    ∀ chat ∈ s.unacked, chat.toId = msg.toId → chat.msgId = msg.msgId → chat.fromId = msg.fromId
  | .delivered _ msg => OwnOnly s msg.fromId e.op
  | .pull _ msg _ => OwnOnly s msg.toId e.op
  | _ => True

instance (s : ChatState) (user : String) : (op : Op) → Decidable (OwnOnly s user op)
  | .delOfflineMsgs .. => inferInstanceAs (Decidable (_ ∨ _ ∨ ∀ chat ∈ s.unacked, _ → _))
  | .replaceOne .. | .insertMany _ | .delOfflineMsg .. => .isTrue trivial

instance (s : ChatState) : (e : Event) → Decidable (s.good e)
  | ⟨.chat .., _⟩ | ⟨.cancel .., _⟩ => inferInstanceAs (Decidable (∀ chat ∈ s.unacked, _ → _ → _))
  | ⟨.delivered .., _⟩ | ⟨.pull .., _⟩ => inferInstanceAs (Decidable (OwnOnly ..))
  | ⟨.deliverAck .., _⟩ | ⟨.notifyAck _, _⟩ => .isTrue trivial

/-- The operations of a request that no other request interrupts, as events of the server. -/
def Request.events (req : Request) : List Event := req.ops.map (⟨req, ·⟩)

theorem ChatState.run_ops (req : Request) {ops : List Op} (hops : ∀ op ∈ ops, op ∈ req.ops)
    (s : ChatState) :
    ∃ s', Run.run step s (ops.map (⟨req, ·⟩)) = some s' ∧ s'.store = ops.foldl Op.apply s.store := by
  induction ops generalizing s with
  | nil => exact ⟨s, rfl, rfl⟩
  | cons op ops ih =>
    have hstep : step s ⟨req, op⟩ = some _ := if_pos (hops op List.mem_cons_self)
    obtain ⟨s', hrun, hstore⟩ := ih (fun op hop => hops op (List.mem_cons_of_mem _ hop)) _
    exact ⟨s', Run.run_cons.mpr ⟨_, hstep, hrun⟩, hstore⟩

/-- The task of a request is a run of its operations. -/
theorem ChatState.run_events (req : Request) (s : ChatState) :
    ∃ s', Run.run step s (req.find s.store).events = some s' ∧ s'.store = req.handle s.store := by
  rw [Request.handle_eq_ops]
  exact run_ops (req.find s.store) (fun _ hop => hop) s

theorem replaceOne_eq (filter : OfflineMsg → Bool) (doc : OfflineMsg) (store : Store) :
    replaceOne filter doc store = Collection.replaceOne filter doc store := by
  induction store with
  | nil => rfl
  | cons first rest ih => rw [replaceOne, Collection.replaceOne, ih]

theorem mem_replaceOne {filter : OfflineMsg → Bool} {doc new : OfflineMsg} {store : Store}
    (hmem : doc ∈ store) (hfilter : filter doc = false) : doc ∈ replaceOne filter new store :=
  replaceOne_eq filter new store ▸ Collection.mem_replaceOne hmem hfilter

theorem new_mem_replaceOne (filter : OfflineMsg → Bool) (new : OfflineMsg) (store : Store) :
    new ∈ replaceOne filter new store :=
  replaceOne_eq filter new store ▸ Collection.new_mem_replaceOne filter new store

theorem mem_updateMany {filter : OfflineMsg → Bool} {doc : OfflineMsg} {store : Store}
    (hmem : doc ∈ store) (hfilter : filter doc = false) : doc ∈ updateMany filter store :=
  List.mem_map.mpr ⟨doc, hmem, by simp [hfilter]⟩

theorem Op.mem_apply {op : Op} {doc : OfflineMsg} {store : Store} (hmem : doc ∈ store)
    (hfinds : op.finds doc = false) : doc ∈ op.apply store := by
  cases op with
  | replaceOne toId cmdId msgId new => exact mem_replaceOne hmem hfinds
  | insertMany docs => exact List.mem_append_left _ hmem
  | delOfflineMsg toId cmdId msgId => exact mem_updateMany hmem hfinds
  | delOfflineMsgs toId cmdId msgIds => exact mem_updateMany hmem hfinds

section Finds

variable {s : ChatState} {chat : MESChat} {doc : OfflineMsg}

theorem Waits.of_offlineMsgKeys {toId msgId : String} {cmdId : UInt32} (hwaits : Waits chat doc)
    (h : offlineMsgKeys toId cmdId msgId doc = true) :
    chat.toId = toId ∧ (msgId = "" ∨ chat.msgId = msgId) ∧ (cmdId = 0 ∨ cmdId = mesChatDeliver) := by
  obtain ⟨hid, -, hto, hcmd, -, -⟩ := hwaits
  simp only [offlineMsgKeys, hid, hto, hcmd, Bool.and_eq_true, Bool.or_eq_true,
    decide_eq_true_eq] at h
  exact ⟨h.1.1, h.1.2, h.2.imp_right Eq.symm⟩

theorem Waits.of_manyMsgKeys {toId : String} {cmdId : UInt32} {msgIds : List String}
    (hwaits : Waits chat doc) (h : manyMsgKeys toId cmdId msgIds doc = true) :
    chat.toId = toId ∧ chat.msgId ∈ msgIds ∧ (cmdId = 0 ∨ cmdId = mesChatDeliver) := by
  obtain ⟨hid, -, hto, hcmd, -, -⟩ := hwaits
  simp only [manyMsgKeys, hid, hto, hcmd, Bool.and_eq_true, Bool.or_eq_true, decide_eq_true_eq,
    List.contains_iff_mem] at h
  exact ⟨h.1.1, h.2, h.1.2.imp_right Eq.symm⟩

theorem acksItems_of_mem {items : List OfflineDeliveredMsg} {item : OfflineDeliveredMsg}
    (hitem : item ∈ items) (hid : item.msgId = chat.msgId) (hcmd : item.cmdId = 0 ∨ isChat item) :
    acksItems chat.toId items chat = true := by
  simp only [acksItems, decide_true, Bool.true_and, List.any_eq_true]
  exact ⟨item, hitem, by simpa [hid] using hcmd⟩

/-- The messages that are no chats find a waiting chat of the user only if they acknowledge it. -/
theorem acksItems_of_othersOps {user : String} {items : List OfflineDeliveredMsg} {op : Op}
    (hop : op ∈ othersOps items) (hown : OwnOnly s user op) (hchat : chat ∈ s.unacked)
    (hwaits : Waits chat doc) (hfinds : op.finds doc = true) : acksItems user items chat = true := by
  obtain ⟨group, hgroup, rfl⟩ := List.mem_map.mp hop
  obtain ⟨hto, hid, hcmd⟩ := hwaits.of_manyMsgKeys hfinds
  obtain ⟨item, hitem, hpair⟩ := List.mem_map.mp (Multimap.mem_of_mem_groups hgroup hid)
  obtain ⟨hitem, hother⟩ := List.mem_filter.mp hitem
  obtain ⟨hkey, hitemId⟩ := Prod.mk.injEq _ _ _ _ ▸ hpair
  have hitemCmd : item.cmdId = group.1.cmdId := congrArg DeleteKey.cmdId hkey
  have hzero : group.1.cmdId = 0 := by
    refine hcmd.resolve_right ?_
    intro hdeliver
    simp [isChat, hitemCmd, hdeliver] at hother
  obtain huser | hne | hnone := hown
  · rw [← huser, ← hto]
    exact acksItems_of_mem hitem hitemId (.inl (hitemCmd.trans hzero))
  · exact absurd hzero hne
  · exact absurd hid (hnone chat hchat hto)

theorem acksItems_of_chatOps {env : Env} {user : String} {items : List OfflineDeliveredMsg}
    {group : String × List OfflineDeliveredMsg} {op : Op} (hop : op ∈ chatOps env user group)
    (hgroup : ∀ item ∈ group.2, item ∈ items ∧ isChat item) (hwaits : Waits chat doc)
    (hfinds : op.finds doc = true) : acksItems user items chat = true := by
  unfold chatOps at hop
  split at hop
  · simp only [List.mem_cons, List.not_mem_nil, or_false] at hop
    obtain rfl | rfl := hop
    · cases hfinds
    · obtain ⟨hto, hid, -⟩ := hwaits.of_manyMsgKeys hfinds
      obtain ⟨item, hitem, hitemId⟩ := List.mem_map.mp hid
      rw [← hto]
      exact acksItems_of_mem (hgroup item hitem).1 hitemId (.inr (hgroup item hitem).2)
  · cases hop

theorem acksItems_of_deliverOps {env : Env} {user : String} {items : List OfflineDeliveredMsg}
    {op : Op} (hop : op ∈ deliverOps env user items) (hown : OwnOnly s user op)
    (hchat : chat ∈ s.unacked) (hwaits : Waits chat doc) (hfinds : op.finds doc = true) :
    acksItems user items chat = true := by
  obtain hop | hop := List.mem_append.mp hop
  · exact acksItems_of_othersOps hop hown hchat hwaits hfinds
  · obtain ⟨group, hgroup, hop⟩ := List.mem_flatMap.mp hop
    refine acksItems_of_chatOps hop ?_ hwaits hfinds
    intro item hitem
    obtain ⟨item', hitem', hpair⟩ := List.mem_map.mp (Multimap.mem_of_mem_groups hgroup hitem)
    obtain ⟨-, rfl⟩ := Prod.mk.injEq _ _ _ _ ▸ hpair
    exact List.mem_filter.mp hitem'

theorem acksItems_of_notifyAck {msg : MESOfflineMsgDeliveredNotifyAck} {op : Op}
    (hop : op ∈ (Request.notifyAck msg).ops) (hwaits : Waits chat doc)
    (hfinds : op.finds doc = true) : acksItems msg.fromId msg.lsMsgs chat = true := by
  obtain ⟨group, hgroup, rfl⟩ := List.mem_map.mp hop
  obtain ⟨hto, hid, hcmd⟩ := hwaits.of_manyMsgKeys hfinds
  obtain ⟨item, hitem, hpair⟩ := List.mem_map.mp (Multimap.mem_of_mem_groups hgroup hid)
  obtain ⟨hitemCmd, hitemId⟩ := Prod.mk.injEq _ _ _ _ ▸ hpair
  rw [← hto]
  refine acksItems_of_mem hitem hitemId ?_
  rw [← hitemCmd] at hcmd
  simpa [isChat] using hcmd

/-- The operations of the requests that write one document, which have a message id. -/
theorem mem_ops_chat {env : Env} {msg : MESChat} {op : Op} (hop : op ∈ (Request.chat env msg).ops) :
    msg.msgId ≠ "" ∧ op = .replaceOne msg.toId mesChatDeliver msg.msgId (.ofChat env.now msg) := by
  simp only [Request.ops] at hop
  split at hop
  · cases hop
  · next htaken => exact ⟨fun hid => htaken (by simp [hid]), List.mem_singleton.mp hop⟩

theorem mem_ops_cancel {env : Env} {msg : MESChatCancel} {pulled : Bool} {op : Op}
    (hop : op ∈ (Request.cancel env msg pulled).ops) :
    msg.msgId ≠ "" ∧ ∃ doc, op = .replaceOne msg.toId mesChatDeliver msg.msgId doc := by
  simp only [Request.ops] at hop
  split at hop
  · cases hop
  · next htaken => exact ⟨fun hid => htaken (by simp [hid]), _, List.mem_singleton.mp hop⟩

theorem mem_ops_deliverAck {env : Env} {msg : MESChatDeliveredAck} {op : Op}
    (hop : op ∈ (Request.deliverAck env msg).ops) :
    msg.msgId ≠ "" ∧
      ((∃ doc, op = .replaceOne msg.toId mesChatDeliveredNotification msg.msgId doc) ∨
        op = .delOfflineMsg msg.fromId mesChatDeliver msg.msgId) := by
  simp only [Request.ops] at hop
  split at hop
  · cases hop
  · next htaken =>
    refine ⟨fun hid => htaken (by simp [hid]), ?_⟩
    obtain rfl | hop := List.mem_cons.mp hop
    · exact .inl ⟨_, rfl⟩
    · exact .inr (List.mem_singleton.mp hop)

theorem mem_ops_pull {env : Env} {msg : MESOfflineMsg} {dirty : List String} {op : Op}
    (hop : op ∈ (Request.pull env msg dirty).ops) :
    op ∈ deliverOps env msg.toId msg.lsMsgs ∨
      ∃ msgId, op = .delOfflineMsg msg.toId mesGrpchatDeliver msgId := by
  simp only [Request.ops] at hop
  split at hop
  · cases hop
  · refine (List.mem_append.mp hop).imp_right ?_
    intro hop
    obtain ⟨msgId, -, rfl⟩ := List.mem_map.mp hop
    exact ⟨msgId, rfl⟩

/-- A good operation that finds a waiting chat acknowledges or cancels it, or is the same chat
once more. -/
theorem finds_waiting {e : Event} (hop : e.op ∈ e.req.ops) (hgood : s.good e)
    (hchat : chat ∈ s.unacked) (hwaits : Waits chat doc) (hfinds : e.op.finds doc = true) :
    e.req.acks chat = true ∨ e.req.cancels chat = true ∨ ∃ env, e.req = .chat env chat := by
  obtain ⟨req, op⟩ := e
  cases req with
  | chat env msg =>
    obtain ⟨hne, rfl⟩ := mem_ops_chat hop
    obtain ⟨hto, hid, -⟩ := hwaits.of_offlineMsgKeys hfinds
    obtain rfl : chat = msg := hgood chat hchat hto (hid.resolve_left hne)
    exact .inr (.inr ⟨env, rfl⟩)
  | cancel env msg pulled =>
    obtain ⟨hne, new, rfl⟩ := mem_ops_cancel hop
    obtain ⟨hto, hid, -⟩ := hwaits.of_offlineMsgKeys hfinds
    have hid := hid.resolve_left hne
    have hfrom : chat.fromId = msg.fromId := hgood chat hchat hto hid
    exact .inr (.inl (by simp [Request.cancels, hfrom, hto, hid]))
  | deliverAck env msg =>
    obtain ⟨hne, ⟨new, rfl⟩ | rfl⟩ := mem_ops_deliverAck hop
    · obtain ⟨-, -, hcmd⟩ := hwaits.of_offlineMsgKeys hfinds
      exact absurd hcmd (by decide)
    · obtain ⟨hto, hid, -⟩ := hwaits.of_offlineMsgKeys hfinds
      exact .inl (by simp [Request.acks, hto, hid.resolve_left hne])
  | delivered env msg =>
    have hdeliver := (List.mem_ite_nil_left.mp hop).2
    exact .inl (acksItems_of_deliverOps hdeliver hgood hchat hwaits hfinds)
  | pull env msg dirty =>
    obtain hdeliver | ⟨msgId, rfl⟩ := mem_ops_pull hop
    · exact .inl (acksItems_of_deliverOps hdeliver hgood hchat hwaits hfinds)
    · obtain ⟨-, -, hcmd⟩ := hwaits.of_offlineMsgKeys hfinds
      exact absurd hcmd (by decide)
  | notifyAck msg => exact .inl (acksItems_of_notifyAck hop hwaits hfinds)

end Finds

theorem waits_ofChat (now : Nat) (chat : MESChat) : Waits chat (.ofChat now chat) :=
  ⟨rfl, rfl, rfl, rfl, rfl, rfl⟩

theorem exists_waits_of_chat {env : Env} {chat : MESChat} {op : Op}
    (hop : op ∈ (Request.chat env chat).ops) (store : Store) :
    ∃ doc ∈ op.apply store, Waits chat doc := by
  obtain ⟨-, rfl⟩ := mem_ops_chat hop
  exact ⟨_, new_mem_replaceOne _ _ _, waits_ofChat env.now chat⟩

theorem ChatState.durable_step {s s' : ChatState} {e : Event} (hdurable : s.Durable)
    (hgood : s.good e) (hstep : s.step e = some s') : s'.Durable := by
  obtain ⟨hop, hstate⟩ := Option.ite_none_right_eq_some.mp hstep
  obtain rfl := Option.some.inj hstate
  intro chat hchat
  obtain hnew | hold := List.mem_append.mp hchat
  · obtain ⟨req, op⟩ := e
    cases req with
    | chat env msg =>
      obtain ⟨-, hmem⟩ := List.mem_ite_nil_right.mp hnew
      obtain rfl := List.mem_singleton.mp hmem
      exact exists_waits_of_chat hop s.store
    | _ => cases hnew
  · obtain ⟨hchat, hnot⟩ := List.mem_filter.mp hold
    obtain ⟨doc, hdoc, hwaits⟩ := hdurable chat hchat
    by_cases hfinds : e.op.finds doc = true
    · obtain hacks | hcancels | ⟨env, hreq⟩ := finds_waiting hop hgood hchat hwaits hfinds
      · simp [hacks] at hnot
      · simp [hcancels] at hnot
      · rw [hreq] at hop
        exact exists_waits_of_chat hop s.store
    · exact ⟨doc, Op.mem_apply hdoc (Bool.eq_false_iff.mpr hfinds), hwaits⟩

/-- Whatever operations of requests run one after another, a chat that was answered without an
error waits in the store until its receiver acknowledges its message id or its sender cancels
it. -/
theorem chats_durable {store : Store} {s : ChatState}
    (h : Run.Reaches ChatState.step ChatState.good ⟨store, []⟩ s) : s.Durable := by
  refine Run.Reaches.invariant ChatState.Durable ?_ ?_ h
  · exact fun chat hchat => absurd hchat List.not_mem_nil
  · intro s e s' hdurable hgood hstep
    exact ChatState.durable_step hdurable hgood hstep

def chatRequest (fromId toId msgId : String) : Request := .chat {} ⟨fromId, toId, msgId, "hi"⟩

/-- Of two chats, one is acknowledged. -/
theorem chats_durable_one_acked :
    ∃ s, Run.run ChatState.step ⟨[], []⟩ ((chatRequest "a" "c" "1").events ++
        (chatRequest "b" "c" "2").events ++ (Request.deliverAck {} ⟨"c", "b", "2"⟩).events) = some s ∧
      s.unacked = [⟨"a", "c", "1", "hi"⟩] ∧ s.Durable := by
  have hrun : (Run.runGood ChatState.step ChatState.good ⟨[], []⟩ ((chatRequest "a" "c" "1").events ++
      (chatRequest "b" "c" "2").events ++ (Request.deliverAck {} ⟨"c", "b", "2"⟩).events)).map
        (·.unacked) = some [⟨"a", "c", "1", "hi"⟩] := by
    decide +kernel
  obtain ⟨s, hgood, hunacked⟩ := Option.map_eq_some_iff.mp hrun
  exact ⟨s, Run.run_of_runGood hgood, hunacked, chats_durable (Run.reaches_of_runGood hgood)⟩

/-- Another user cancels a chat. -/
theorem not_durable_cancel :
    ∃ s, Run.run ChatState.step ⟨[], []⟩ ((chatRequest "a" "c" "1").events ++
        (Request.cancel {} { fromId := "b", toId := "c", msgId := "1" } false).events) = some s ∧
      ⟨"a", "c", "1", "hi"⟩ ∈ s.unacked ∧ ¬ s.Durable := by
  have hrun : (Run.run ChatState.step ⟨[], []⟩ ((chatRequest "a" "c" "1").events ++
      (Request.cancel {} { fromId := "b", toId := "c", msgId := "1" } false).events)).map
        (fun s => (s.unacked, decide s.Durable)) = some ([⟨"a", "c", "1", "hi"⟩], false) := by
    decide +kernel
  obtain ⟨s, hsome, heq⟩ := Option.map_eq_some_iff.mp hrun
  obtain ⟨hunacked, hdurable⟩ := Prod.mk.inj heq
  exact ⟨s, hsome, hunacked ▸ List.mem_singleton_self _, of_decide_eq_false hdurable⟩

end Msg

end ImServer
