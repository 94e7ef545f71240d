import ImServer.Lib.Threads
import ImServer.Msg.AckFinality
import ImServer.Msg.RelationNotify

/-!
# Chats and receipts

A chat that its receiver acknowledges leaves the store, and its sender gets a receipt instead.
The requests write the receipt before they delete the chat (msg/msghandle.cpp,
msg/offLineMsgHandle.cpp), and mongo does only single operations at once. A run here is any
interleaving of requests, each of which does its own operations in their order; requests about
messages of other kinds name entries of other kinds, and are left out but for their
acknowledgements (msg/notify_handle.cpp, msg/groupChatHandle.cpp).
-/

universe u

namespace ImServer

namespace Msg

namespace Receipts

def mesChatReadDeliver : UInt32 := 0xb00a

structure MESChatRead where
  fromId : String
  toId : String
  msgId : String
  deriving DecidableEq, Repr

def ofChatRead (data : MESChatRead → String) (now : Nat) (msg : MESChatRead) : OfflineMsg where
  msgId := msg.msgId
  fromId := msg.fromId
  toId := msg.toId
  cmdId := mesChatReadDeliver
  msgData := .other (data msg)
  createTime := now

/-- `OnMsgRead`; `data` serialises the message. -/
def onMsgRead (data : MESChatRead → String) (env : Env) (store : Store) (msg : MESChatRead) :
    Option ErrCode × Store :=
  if msg.fromId = "" ∨ msg.toId = "" ∨ msg.msgId = "" then (none, store)
  else
    match insertOfflineMsg env (ofChatRead data env.now msg) store with
    | some store => (some .nonErr, store)
    | none => (some .exceptErr, store)

/-- The acknowledgement of one message that was delivered. -/
structure MESDeliverAck where
  userId : String
  msgId : String
  deriving DecidableEq, Repr

/-- What the handlers of such acknowledgements do; some of them check the ids first. -/
def onDeliverAck (cmdId : UInt32) (checked : Bool) (store : Store) (msg : MESDeliverAck) : Store :=
  if checked ∧ (msg.userId = "" ∨ msg.msgId = "") then store
  else delOfflineMsg msg.userId cmdId msg.msgId store

def onMsgChatDeliverNotifyAck : Store → MESDeliverAck → Store :=
  onDeliverAck mesChatDeliveredNotification true

def onMsgReadDeliverAck : Store → MESDeliverAck → Store := onDeliverAck mesChatReadDeliver true

def onJoinGrpDeliverAck : Store → MESDeliverAck → Store := onDeliverAck mesJoingrpDeliver false

def onGrpNotifyDeliverAck : Store → MESDeliverAck → Store := onDeliverAck mesGrpnotifyDeliver false

def onAddFriendDeliverAck : Store → MESDeliverAck → Store := onDeliverAck mesAddfriendDeliver true

def onAddFriendAnsDeliverAck : Store → MESDeliverAck → Store :=
  onDeliverAck mesAddfriendAnsDeliver true

def onCommonNotifyMsgDeliverAck : Store → MESDeliverAck → Store :=
  onDeliverAck msCommonnotifyDeliver true

inductive AckKind where
  | chatDeliverNotify
  | readDeliver
  | joinGrpDeliver
  | grpNotifyDeliver
  | addFriendDeliver
  | addFriendAnsDeliver
  | commonNotifyDeliver
  | grpChatDeliver
  | chatCancelDeliver
  deriving DecidableEq, Repr

namespace AckKind

def cmdId : AckKind → UInt32
  | chatDeliverNotify => mesChatDeliveredNotification
  | readDeliver => mesChatReadDeliver
  | joinGrpDeliver => mesJoingrpDeliver
  | grpNotifyDeliver => mesGrpnotifyDeliver
  | addFriendDeliver => mesAddfriendDeliver
  | addFriendAnsDeliver => mesAddfriendAnsDeliver
  | commonNotifyDeliver => msCommonnotifyDeliver
  | grpChatDeliver => mesGrpchatDeliver
  | chatCancelDeliver => mesChatcancelDeliver

def checked : AckKind → Bool
  | joinGrpDeliver | grpNotifyDeliver | grpChatDeliver | chatCancelDeliver => false
  | _ => true

def handle : AckKind → Store → MESDeliverAck → Store
  | chatDeliverNotify => onMsgChatDeliverNotifyAck
  | readDeliver => onMsgReadDeliverAck
  | joinGrpDeliver => onJoinGrpDeliverAck
  | grpNotifyDeliver => onGrpNotifyDeliverAck
  | addFriendDeliver => onAddFriendDeliverAck
  | addFriendAnsDeliver => onAddFriendAnsDeliverAck
  | commonNotifyDeliver => onCommonNotifyMsgDeliverAck
  -- the group in `MESGrpChatDeliveredAck` is not read
  | grpChatDeliver => fun store msg => onGrpMsgChatDeliverAck store ⟨msg.userId, "", msg.msgId⟩
  | chatCancelDeliver => fun store msg => onGrpMsgChatCancelDeliverAck store ⟨msg.userId, msg.msgId⟩

theorem handle_eq (kind : AckKind) (store : Store) (msg : MESDeliverAck) :
    kind.handle store msg = onDeliverAck kind.cmdId kind.checked store msg := by
  cases kind <;> rfl

end AckKind

/-- What a thread of the server works on: a request that was modelled before, or one for
receipts. -/
inductive Task where
  | request (req : Request)
  | read (data : MESChatRead → String) (env : Env) (msg : MESChatRead)
  | deliverAck (kind : AckKind) (msg : MESDeliverAck)

namespace Task

/-- The operations that write, in their order. A task that is refused has none. -/
def ops : Task → List Op
  | request req => req.ops
  | read data env msg =>
    if msg.fromId = "" ∨ msg.toId = "" ∨ msg.msgId = "" ∨ !env.written then []
    else [.replaceOne msg.toId mesChatReadDeliver msg.msgId (ofChatRead data env.now msg)]
  | deliverAck kind msg =>
    if kind.checked ∧ (msg.userId = "" ∨ msg.msgId = "") then []
    else [.delOfflineMsg msg.userId kind.cmdId msg.msgId]

def handle (store : Store) : Task → Store
  | request req => req.handle store
  | read data env msg => (onMsgRead data env store msg).2
  | deliverAck kind msg => kind.handle store msg

/-- The task with what it finds. -/
def find (store : Store) : Task → Task
  | request req => request (req.find store)
  | task => task

theorem handle_eq_ops (task : Task) (store : Store) :
    task.handle store = (task.find store).ops.foldl Op.apply store := by
  cases task with
  | request req => exact req.handle_eq_ops store
  | read data env msg =>
    by_cases hids : msg.fromId = "" ∨ msg.toId = "" ∨ msg.msgId = ""
    · have hops : (read data env msg).ops = [] := if_pos (by tauto)
      simp [handle, find, onMsgRead, hids, hops]
    · have hvalid : (ofChatRead data env.now msg).isValid = true := by
        push Not at hids
        simp [OfflineMsg.isValid, ofChatRead, hids, mesChatReadDeliver]
      simp only [handle, find, onMsgRead, if_neg hids, insertOfflineMsg, hvalid, Bool.true_and]
      push Not at hids
      cases hwritten : env.written with
      | false => simp [ops, hwritten]
      | true =>
        simp [ops, hids, hwritten]
        rfl
  | deliverAck kind msg =>
    simp only [handle, find, ops, AckKind.handle_eq, onDeliverAck]
    split <;> rfl

/-- The sender of the chat cancels it. -/
def cancels : Task → MESChat → Bool
  | request req => req.cancels
  | _ => fun _ => false

/-- The entries that the user of a task acknowledges. -/
def ackKeys : Task → List EntryKey
  | request req => req.ackKeys
  | read .. => []
  | deliverAck kind msg => [⟨msg.userId, kind.cmdId, msg.msgId⟩]

end Task

section Clients

variable (ends : String → String × String)

/-- An acknowledged item is one of the user's own, and a chat names its sender. -/
structure ItemFollows (user : String) (item : OfflineDeliveredMsg) : Prop where
  toId : item.toId = user
  cmdId : item.cmdId ≠ 0
  ends : isChat item → ends item.msgId = (item.fromId, item.toId)

/-- The ids of chats are unique, so that each has one sender and one receiver, and the requests
name them. Acknowledged receipts name their kind. -/
def RequestFollows : Request → Prop
  | .chat _ msg => ends msg.msgId = (msg.fromId, msg.toId)
  | .cancel _ msg _ => ends msg.msgId = (msg.fromId, msg.toId)
  | .deliverAck _ msg => ends msg.msgId = (msg.toId, msg.fromId)
  | .delivered _ msg => ∀ item ∈ msg.lsMsgs, ItemFollows ends msg.fromId item
  | .pull _ msg _ => ∀ item ∈ msg.lsMsgs, ItemFollows ends msg.toId item
  | .notifyAck msg => ∀ item ∈ msg.lsMsgs, item.cmdId ≠ 0 ∧ ¬ isChat item

def Task.Follows : Task → Prop
  | request req => RequestFollows ends req
  | _ => True

instance (user : String) (item : OfflineDeliveredMsg) : Decidable (ItemFollows ends user item) :=
  decidable_of_iff (item.toId = user ∧ item.cmdId ≠ 0 ∧
      (isChat item → ends item.msgId = (item.fromId, item.toId)))
    ⟨fun h => ⟨h.1, h.2.1, h.2.2⟩, fun h => ⟨h.toId, h.cmdId, h.ends⟩⟩

instance : (req : Request) → Decidable (RequestFollows ends req)
  | .chat .. | .cancel .. | .deliverAck .. => inferInstanceAs (Decidable (_ = _))
  | .delivered .. | .pull .. => inferInstanceAs (Decidable (∀ _ ∈ _, ItemFollows ..))
  | .notifyAck _ => inferInstanceAs (Decidable (∀ _ ∈ _, _ ∧ _))

instance : (task : Task) → Decidable (task.Follows ends)
  | .request req => inferInstanceAs (Decidable (RequestFollows ends req))
  | .read .. | .deliverAck .. => .isTrue trivial

end Clients

inductive Event (ι : Type u) where
  | start (i : ι) (task : Task)
  | turn (i : ι)

/-- The operations that each thread has still to do, and what is remembered: the tasks that were
started, and the chats that were answered without an error. -/
structure State (ι : Type u) where
  threads : Threads ι Store (List Op)
  started : List Task := []
  accepted : List MESChat := []

/-- The chats that an operation writes; they are answered then. -/
def accepts : Op → List MESChat
  | .replaceOne _ _ _ doc =>
    match doc.msgData with
    | .chat msg => [msg]
    | _ => []
  | _ => []

def turn : List Op → Store → Option (List Op × Store)
  | [], _ => none
  | op :: ops, store => some (ops, op.apply store)

namespace State

variable {ι : Type u} [DecidableEq ι]

abbrev store (s : State ι) : Store := s.threads.data

/-- A thread that has nothing to do takes a task, or does the next operation of the one that it
has. -/
def step (s : State ι) : Event ι → Option (State ι)
  | .start i task =>
    match s.threads.place i with
    | [] => some
      { s with
        threads := { s.threads with place := Function.update s.threads.place i task.ops }
        started := task :: s.started }
    | _ :: _ => none
  | .turn i =>
    (Threads.step turn s.threads i).map fun threads =>
      { s with
        threads := threads
        accepted := (s.threads.place i).head?.toList.flatMap accepts ++ s.accepted }

/-- The clients keep to their rules, with the requests that they send. The threads may take turns in
any way. -/
def good (ends : String → String × String) (_ : State ι) : Event ι → Prop
  | .start _ task => task.Follows ends
  | .turn _ => True

instance (ends : String → String × String) (s : State ι) : (e : Event ι) → Decidable (s.good ends e)
  | .start _ task => inferInstanceAs (Decidable (task.Follows ends))
  | .turn _ => .isTrue trivial

end State

theorem alone_ops (ops : List Op) (store : Store) :
    Threads.Alone turn (ops, store) ([], ops.foldl Op.apply store) := by
  induction ops generalizing store with
  | nil => exact .refl
  | cons op ops ih => exact .head rfl (ih (op.apply store))

theorem alone_task (task : Task) (store : Store) :
    Threads.Alone turn ((task.find store).ops, store) ([], task.handle store) := by
  rw [task.handle_eq_ops]
  exact alone_ops (task.find store).ops store

/-- The entries whose documents an operation may put another document in place of. -/
def replaces : Op → EntryKey → Bool
  | .replaceOne toId cmdId msgId _ => entryKeys toId cmdId msgId
  | _ => fun _ => false

section Operations

variable {op : Op} {store : Store}

/-- A document of some kind stays, if one that replaces it is of the kind too. -/
theorem exists_apply {Q : OfflineMsg → Prop}
    (hpulled : ∀ doc n, Q doc → Q { doc with bPulled := n })
    (hreplaces : ∀ doc, Q doc → replaces op doc.entry = true → ∃ new ∈ op.docs, Q new)
    (h : ∃ doc ∈ store, Q doc) : ∃ doc ∈ op.apply store, Q doc := by
  obtain ⟨doc, hdoc, hQ⟩ := h
  have hcounted (filter : OfflineMsg → Bool) : ∃ doc ∈ updateMany filter store, Q doc := by
    refine ⟨_, List.mem_map_of_mem hdoc, ?_⟩
    split
    · exact hpulled doc _ hQ
    · exact hQ
  cases op with
  | replaceOne toId cmdId msgId new =>
    by_cases hnames : entryKeys toId cmdId msgId doc.entry = true
    · obtain ⟨new', hnew, hQ⟩ := hreplaces doc hQ hnames
      obtain rfl := List.mem_singleton.mp hnew
      exact ⟨new', new_mem_replaceOne _ new' store, hQ⟩
    · exact ⟨doc, mem_replaceOne hdoc (Bool.eq_false_iff.mpr hnames), hQ⟩
  | insertMany docs => exact ⟨doc, List.mem_append_left docs hdoc, hQ⟩
  | delOfflineMsg toId cmdId msgId => exact hcounted _
  | delOfflineMsgs toId cmdId msgIds => exact hcounted _

theorem exists_apply_of_docs {Q : OfflineMsg → Prop} (h : ∃ doc ∈ op.docs, Q doc) :
    ∃ doc ∈ op.apply store, Q doc := by
  obtain ⟨doc, hdoc, hQ⟩ := h
  cases op with
  | replaceOne toId cmdId msgId new =>
    obtain rfl := List.mem_singleton.mp hdoc
    exact ⟨doc, new_mem_replaceOne _ doc store, hQ⟩
  | insertMany docs => exact ⟨doc, List.mem_append_right store hdoc, hQ⟩
  | delOfflineMsg toId cmdId msgId => cases hdoc
  | delOfflineMsgs toId cmdId msgIds => cases hdoc

theorem pulled_of_mem_apply {doc : OfflineMsg} (hnew : ∀ new ∈ op.docs, new.bPulled = 0)
    (hdoc : doc ∈ op.apply store) (hpulled : doc.bPulled ≠ 0) :
    op.deletes doc.entry = true ∨ doc ∈ store := by
  have hcounted (filter : OfflineMsg → Bool) (names : EntryKey → Bool)
      (hfilter : ∀ doc, filter doc = names doc.entry) (hdoc : doc ∈ updateMany filter store) :
      names doc.entry = true ∨ doc ∈ store := by
    obtain ⟨old, hold, rfl⟩ := List.mem_map.mp hdoc
    split
    · next hfound => exact .inl ((hfilter old).symm.trans hfound)
    · exact .inr hold
  cases op with
  | replaceOne toId cmdId msgId new =>
    obtain rfl | hold := mem_of_mem_replaceOne hdoc
    · exact absurd (hnew doc (List.mem_singleton_self doc)) hpulled
    · exact .inr hold
  | insertMany docs =>
    obtain hold | hadded := List.mem_append.mp hdoc
    · exact .inr hold
    · exact absurd (hnew doc hadded) hpulled
  | delOfflineMsg toId cmdId msgId => exact hcounted _ _ (fun _ => rfl) hdoc
  | delOfflineMsgs toId cmdId msgIds =>
    exact hcounted _ (Op.delOfflineMsgs toId cmdId msgIds).deletes (fun _ => rfl) hdoc

end Operations

section Clients

variable {ends : String → String × String}

def chatKey (chat : MESChat) : EntryKey := ⟨chat.toId, mesChatDeliver, chat.msgId⟩

def receiptKey (chat : MESChat) : EntryKey :=
  ⟨chat.fromId, mesChatDeliveredNotification, chat.msgId⟩

/-- The receiver of the chat with this id tells its sender that it has the chat. -/
structure IsReceipt (ends : String → String × String) (msgId : String) (doc : OfflineMsg) :
    Prop where
  entry : doc.entry = ⟨(ends msgId).1, mesChatDeliveredNotification, msgId⟩
  fromId : doc.fromId = (ends msgId).2

def Receipted (ends : String → String × String) (store : Store) (msgId : String) : Prop :=
  ∃ doc ∈ store, IsReceipt ends msgId doc

/-- An operation that a started task has still to do, and what the accounts of the chats need of
it. -/
structure Fits (ends : String → String × String) (started : List Task) (op : Op) : Prop where
  written : ∀ doc ∈ op.docs, doc.bPulled = 0
  accepted : ∀ chat ∈ accepts op, ends chat.msgId = (chat.fromId, chat.toId) ∧
    ∃ doc ∈ op.docs, doc.entry = chatKey chat
  chats : ∀ chat, ends chat.msgId = (chat.fromId, chat.toId) → replaces op (chatKey chat) = true →
    (∃ doc ∈ op.docs, doc.entry = chatKey chat) ∨ ∃ task ∈ started, task.cancels chat = true
  receipts : ∀ msgId doc, IsReceipt ends msgId doc → replaces op doc.entry = true →
    ∃ new ∈ op.docs, IsReceipt ends msgId new
  acked : ∀ key, op.deletes key = true → key.cmdId = mesChatDeliveredNotification →
    ∃ task ∈ started, key ∈ task.ackKeys

/-- Before the operations delete a chat they write its receipt, if it is not there. -/
def Covered (ends : String → String × String) (receipted : String → Prop) : List Op → Prop
  | [] => True
  | op :: ops =>
    (∀ key, op.deletes key = true → key.cmdId = mesChatDeliver → receipted key.msgId) ∧
      Covered ends (fun msgId => receipted msgId ∨ ∃ doc ∈ op.docs, IsReceipt ends msgId doc) ops

theorem Fits.mono {started started' : List Task} {op : Op} (h : Fits ends started op)
    (hsub : ∀ task ∈ started, task ∈ started') : Fits ends started' op where
  written := h.written
  accepted := h.accepted
  chats := by
    intro chat hends hreplaces
    refine (h.chats chat hends hreplaces).imp_right ?_
    rintro ⟨task, htask, hcancels⟩
    exact ⟨task, hsub task htask, hcancels⟩
  receipts := h.receipts
  acked := by
    intro key hdeletes hcmd
    obtain ⟨task, htask, hkey⟩ := h.acked key hdeletes hcmd
    exact ⟨task, hsub task htask, hkey⟩

namespace Covered

variable {receipted receipted' : String → Prop}

theorem mono {ops : List Op} (hsub : ∀ msgId, receipted msgId → receipted' msgId)
    (h : Covered ends receipted ops) : Covered ends receipted' ops := by
  induction ops generalizing receipted receipted' with
  | nil => trivial
  | cons op ops ih =>
    obtain ⟨hdeletes, hrest⟩ := h
    refine ⟨fun key hkey hcmd => hsub _ (hdeletes key hkey hcmd), ih ?_ hrest⟩
    exact fun msgId => Or.imp_left (hsub msgId)

theorem append {ops ops' : List Op} (h : Covered ends receipted ops)
    (h' : Covered ends receipted ops') : Covered ends receipted (ops ++ ops') := by
  induction ops generalizing receipted with
  | nil => exact h'
  | cons op ops ih => exact ⟨h.1, ih h.2 (h'.mono fun _ => .inl)⟩

theorem flatMap {α : Type} {f : α → List Op} {l : List α}
    (h : ∀ a ∈ l, Covered ends receipted (f a)) : Covered ends receipted (l.flatMap f) := by
  induction l with
  | nil => trivial
  | cons a l ih =>
    rw [List.flatMap_cons]
    refine (h a List.mem_cons_self).append (ih ?_)
    exact fun a ha => h a (List.mem_cons_of_mem _ ha)

theorem of_forall {ops : List Op}
    (h : ∀ op ∈ ops, ∀ key, op.deletes key = true → key.cmdId ≠ mesChatDeliver) :
    Covered ends receipted ops := by
  induction ops generalizing receipted with
  | nil => trivial
  | cons op ops ih =>
    refine ⟨fun key hkey hcmd => absurd hcmd (h op List.mem_cons_self key hkey), ih ?_⟩
    exact fun op hop => h op (List.mem_cons_of_mem _ hop)

end Covered

section Tasks

variable {started : List Task} {task : Task} {op : Op}

theorem replaces_replaceOne {toId msgId : String} {cmdId : UInt32} {doc : OfflineMsg}
    {key : EntryKey} (hcmd : cmdId ≠ 0) (hid : msgId ≠ "")
    (h : replaces (.replaceOne toId cmdId msgId doc) key = true) : key = ⟨toId, cmdId, msgId⟩ := by
  obtain ⟨hto, hmsg, hkind⟩ := entryKeys_eq_true.mp h
  exact EntryKey.ext hto (hkind.resolve_left hcmd) (hmsg.resolve_left hid)

theorem IsReceipt.not_replaced {id toId msgId : String} {old doc : OfflineMsg}
    (h : IsReceipt ends id old) (hid : msgId ≠ "") :
    ¬ replaces (.replaceOne toId mesChatDeliver msgId doc) old.entry = true := by
  intro hreplaces
  have hkey := h.entry.symm.trans (replaces_replaceOne (by decide) hid hreplaces)
  have hcmd : mesChatDeliveredNotification = mesChatDeliver := congrArg EntryKey.cmdId hkey
  exact absurd hcmd (by decide)

theorem deletes_delOfflineMsg {toId msgId : String} {cmdId : UInt32} {key : EntryKey}
    (hcmd : cmdId ≠ 0) (h : (Op.delOfflineMsg toId cmdId msgId).deletes key = true) :
    key.toId = toId ∧ (msgId = "" ∨ key.msgId = msgId) ∧ key.cmdId = cmdId := by
  obtain ⟨hto, hmsg, hkind⟩ := entryKeys_eq_true.mp h
  exact ⟨hto, hmsg, hkind.resolve_left hcmd⟩

theorem deletes_delOfflineMsgs {toId : String} {msgIds : List String} {cmdId : UInt32}
    {key : EntryKey} (hcmd : ∀ msgId ∈ msgIds, cmdId ≠ 0)
    (h : (Op.delOfflineMsgs toId cmdId msgIds).deletes key = true) :
    key.toId = toId ∧ key.cmdId = cmdId ∧ key.msgId ∈ msgIds := by
  simp only [Op.deletes, Bool.and_eq_true, Bool.or_eq_true, decide_eq_true_eq,
    List.contains_iff_mem] at h
  exact ⟨h.1.1, h.1.2.resolve_left (hcmd key.msgId h.2), h.2⟩

theorem Fits.insertMany {docs : List OfflineMsg} (h : ∀ doc ∈ docs, doc.bPulled = 0) :
    Fits ends started (.insertMany docs) where
  written := h
  accepted := fun _ hchat => absurd hchat List.not_mem_nil
  chats := fun _ _ hreplaces => absurd hreplaces Bool.false_ne_true
  receipts := fun _ _ _ hreplaces => absurd hreplaces Bool.false_ne_true
  acked := fun _ hdeletes => absurd hdeletes Bool.false_ne_true

theorem Fits.delOfflineMsg {toId msgId : String} {cmdId : UInt32} (hcmd : cmdId ≠ 0)
    (hacked : cmdId = mesChatDeliveredNotification →
      msgId ≠ "" ∧ ∃ task ∈ started, ⟨toId, cmdId, msgId⟩ ∈ task.ackKeys) :
    Fits ends started (.delOfflineMsg toId cmdId msgId) where
  written := fun _ hdoc => absurd hdoc List.not_mem_nil
  accepted := fun _ hchat => absurd hchat List.not_mem_nil
  chats := fun _ _ hreplaces => absurd hreplaces Bool.false_ne_true
  receipts := fun _ _ _ hreplaces => absurd hreplaces Bool.false_ne_true
  acked := by
    intro key hdeletes hkind
    obtain ⟨hto, hmsg, hkeyCmd⟩ := deletes_delOfflineMsg hcmd hdeletes
    obtain ⟨hid, task, htask, hkey⟩ := hacked (hkeyCmd.symm.trans hkind)
    obtain rfl : key = ⟨toId, cmdId, msgId⟩ := EntryKey.ext hto hkeyCmd (hmsg.resolve_left hid)
    exact ⟨task, htask, hkey⟩

theorem Fits.delOfflineMsgs {toId : String} {msgIds : List String} {cmdId : UInt32}
    (hcmd : ∀ msgId ∈ msgIds, cmdId ≠ 0)
    (hacked : ∀ msgId ∈ msgIds, cmdId = mesChatDeliveredNotification →
      ∃ task ∈ started, ⟨toId, cmdId, msgId⟩ ∈ task.ackKeys) :
    Fits ends started (.delOfflineMsgs toId cmdId msgIds) where
  written := fun _ hdoc => absurd hdoc List.not_mem_nil
  accepted := fun _ hchat => absurd hchat List.not_mem_nil
  chats := fun _ _ hreplaces => absurd hreplaces Bool.false_ne_true
  receipts := fun _ _ _ hreplaces => absurd hreplaces Bool.false_ne_true
  acked := by
    intro key hdeletes hkind
    obtain ⟨hto, hkeyCmd, hmsg⟩ := deletes_delOfflineMsgs hcmd hdeletes
    obtain ⟨task, htask, hkey⟩ := hacked key.msgId hmsg (hkeyCmd.symm.trans hkind)
    have hnamed : key = ⟨toId, cmdId, key.msgId⟩ := EntryKey.ext hto hkeyCmd rfl
    exact ⟨task, htask, hnamed ▸ hkey⟩

theorem Fits.replaceOther {toId msgId : String} {cmdId : UInt32} {doc : OfflineMsg}
    (hcmd : cmdId ≠ 0) (hid : msgId ≠ "") (hpulled : doc.bPulled = 0)
    (haccepts : accepts (.replaceOne toId cmdId msgId doc) = [])
    (hchat : cmdId ≠ mesChatDeliver)
    (hreceipt : cmdId = mesChatDeliveredNotification → ends msgId = (toId, doc.fromId) ∧
      doc.entry = ⟨toId, cmdId, msgId⟩) :
    Fits ends started (.replaceOne toId cmdId msgId doc) where
  written := by
    intro doc' hdoc
    obtain rfl := List.mem_singleton.mp hdoc
    exact hpulled
  accepted := by
    intro chat hmem
    rw [haccepts] at hmem
    cases hmem
  chats := by
    intro chat _ hreplaces
    have hkey := replaces_replaceOne hcmd hid hreplaces
    exact absurd (congrArg EntryKey.cmdId hkey).symm hchat
  receipts := by
    intro id old hold hreplaces
    have hkey := hold.entry.symm.trans (replaces_replaceOne hcmd hid hreplaces)
    obtain rfl : id = msgId := congrArg EntryKey.msgId hkey
    obtain ⟨hends, hentry⟩ := hreceipt (congrArg EntryKey.cmdId hkey).symm
    exact ⟨doc, List.mem_singleton_self doc, hentry.trans hkey.symm, by rw [hends]⟩
  acked := fun _ hdeletes => absurd hdeletes Bool.false_ne_true

theorem mem_othersOps {items : List OfflineDeliveredMsg} (hop : op ∈ othersOps items) :
    ∃ toId cmdId msgIds, op = .delOfflineMsgs toId cmdId msgIds ∧
      ∀ msgId ∈ msgIds, ∃ item ∈ items,
        ¬ isChat item ∧ item.toId = toId ∧ item.cmdId = cmdId ∧ item.msgId = msgId := by
  obtain ⟨group, hgroup, rfl⟩ := List.mem_map.mp hop
  refine ⟨_, _, _, rfl, ?_⟩
  intro msgId hmsgId
  obtain ⟨item, hitem, hpair⟩ := List.mem_map.mp (Multimap.mem_of_mem_groups hgroup hmsgId)
  obtain ⟨hkey, hid⟩ := Prod.mk.injEq _ _ _ _ ▸ hpair
  obtain ⟨hitem, hother⟩ := List.mem_filter.mp hitem
  exact ⟨item, hitem, by simpa using hother, congrArg DeleteKey.toId hkey,
    congrArg DeleteKey.cmdId hkey, hid⟩

theorem mem_groups_chats {items : List OfflineDeliveredMsg}
    {group : String × List OfflineDeliveredMsg}
    (hgroup : group ∈ Multimap.groups (fun a b : String => decide (a < b))
      ((items.filter isChat).map fun item => (item.fromId, item))) :
    ∀ item ∈ group.2, item ∈ items ∧ isChat item ∧ item.fromId = group.1 := by
  intro item hitem
  obtain ⟨item', hitem', hpair⟩ := List.mem_map.mp (Multimap.mem_of_mem_groups hgroup hitem)
  obtain ⟨hfrom, rfl⟩ := Prod.mk.injEq _ _ _ _ ▸ hpair
  obtain ⟨hmem, hchat⟩ := List.mem_filter.mp hitem'
  exact ⟨hmem, hchat, hfrom⟩

theorem mem_ops_notifyAck {msg : MESOfflineMsgDeliveredNotifyAck}
    (hop : op ∈ (Request.notifyAck msg).ops) :
    ∃ cmdId msgIds, op = .delOfflineMsgs msg.fromId cmdId msgIds ∧ ∀ msgId ∈ msgIds,
      ∃ item ∈ msg.lsMsgs, item.cmdId = cmdId ∧ item.msgId = msgId := by
  obtain ⟨group, hgroup, rfl⟩ := List.mem_map.mp hop
  refine ⟨_, _, rfl, ?_⟩
  intro msgId hmsgId
  obtain ⟨item, hitem, hpair⟩ := List.mem_map.mp (Multimap.mem_of_mem_groups hgroup hmsgId)
  exact ⟨item, hitem, Prod.mk.injEq _ _ _ _ ▸ hpair⟩

theorem fits_deliverOps {env : Env} {user : String} {items : List OfflineDeliveredMsg}
    (hitems : ∀ item ∈ items, ItemFollows ends user item)
    (hacked : ∀ item ∈ items, ∃ task ∈ started, ⟨user, item.cmdId, item.msgId⟩ ∈ task.ackKeys)
    (hop : op ∈ deliverOps env user items) : Fits ends started op := by
  obtain hop | hop := List.mem_append.mp hop
  · obtain ⟨toId, cmdId, msgIds, rfl, hids⟩ := mem_othersOps hop
    refine .delOfflineMsgs ?_ ?_
    · intro msgId hmsgId
      obtain ⟨item, hitem, -, -, rfl, -⟩ := hids msgId hmsgId
      exact (hitems item hitem).cmdId
    · intro msgId hmsgId _
      obtain ⟨item, hitem, -, hto, rfl, rfl⟩ := hids msgId hmsgId
      obtain rfl : user = toId := (hitems item hitem).toId.symm.trans hto
      exact hacked item hitem
  · obtain ⟨group, hgroup, hop⟩ := List.mem_flatMap.mp hop
    obtain ⟨-, hop⟩ := List.mem_ite_nil_right.mp hop
    simp only [List.mem_cons, List.not_mem_nil, or_false] at hop
    obtain rfl | rfl := hop
    · refine .insertMany fun doc hdoc => ?_
      obtain ⟨item, -, rfl⟩ := List.mem_map.mp hdoc
      rfl
    · exact .delOfflineMsgs (fun _ _ => by decide) fun _ _ hkind => absurd hkind (by decide)

/-- What the operations of a task do is what its user asks for. -/
theorem Task.fits (h : task.Follows ends) (hop : op ∈ task.ops) :
    Fits ends (task :: started) op := by
  cases task with
  | request req =>
    cases req with
    | chat env msg =>
      obtain ⟨hid, rfl⟩ := mem_ops_chat hop
      have hdoc : OfflineMsg.ofChat env.now msg ∈ [OfflineMsg.ofChat env.now msg] :=
        List.mem_singleton_self _
      constructor
      · intro doc hdoc
        obtain rfl := List.mem_singleton.mp hdoc
        rfl
      · intro chat hchat
        obtain rfl := List.mem_singleton.mp hchat
        exact ⟨h, _, hdoc, rfl⟩
      · intro chat _ hreplaces
        exact .inl ⟨_, hdoc, (replaces_replaceOne (by decide) hid hreplaces).symm⟩
      · intro id old hold hreplaces
        exact absurd hreplaces (hold.not_replaced hid)
      · exact fun _ hdeletes => absurd hdeletes Bool.false_ne_true
    | cancel env msg pulled =>
      obtain ⟨hid, -, -⟩ := mem_ops_cancel hop
      simp only [ops, Request.ops, List.mem_ite_nil_left, List.mem_singleton] at hop
      obtain ⟨-, rfl⟩ := hop
      constructor
      · intro doc hdoc
        obtain rfl := List.mem_singleton.mp hdoc
        rfl
      · exact fun _ hchat => absurd hchat List.not_mem_nil
      · intro chat hends hreplaces
        have hkey := replaces_replaceOne (by decide) hid hreplaces
        have hto : chat.toId = msg.toId := congrArg EntryKey.toId hkey
        have hmsg : chat.msgId = msg.msgId := congrArg EntryKey.msgId hkey
        have hfrom : chat.fromId = msg.fromId := by
          rw [hmsg, (h : ends msg.msgId = _)] at hends
          exact (congrArg Prod.fst hends).symm
        exact .inr ⟨_, List.mem_cons_self, by simp [cancels, Request.cancels, hto, hmsg, hfrom]⟩
      · intro id old hold hreplaces
        exact absurd hreplaces (hold.not_replaced hid)
      · exact fun _ hdeletes => absurd hdeletes Bool.false_ne_true
    | deliverAck env msg =>
      simp only [ops, Request.ops, List.mem_ite_nil_left, List.mem_cons, List.not_mem_nil,
        or_false] at hop
      obtain ⟨hids, rfl | rfl⟩ := hop
      · have hid : msg.msgId ≠ "" := fun hid => hids (by simp [hid])
        exact .replaceOther (by decide) hid rfl rfl (by decide) fun _ => ⟨h, rfl⟩
      · exact .delOfflineMsg (by decide) fun hkind => absurd hkind (by decide)
    | delivered env msg =>
      obtain ⟨-, hop⟩ := List.mem_ite_nil_left.mp hop
      refine fits_deliverOps h (fun item hitem => ?_) hop
      exact ⟨_, List.mem_cons_self, List.mem_map_of_mem hitem⟩
    | pull env msg dirty =>
      obtain hop | ⟨msgId, rfl⟩ := mem_ops_pull hop
      · refine fits_deliverOps h (fun item hitem => ?_) hop
        exact ⟨_, List.mem_cons_self, List.mem_map_of_mem hitem⟩
      · exact .delOfflineMsg (by decide) fun hkind => absurd hkind (by decide)
    | notifyAck msg =>
      obtain ⟨cmdId, msgIds, rfl, hmem⟩ := mem_ops_notifyAck hop
      refine .delOfflineMsgs ?_ ?_
      · intro msgId hmsgId
        obtain ⟨item, hitem, rfl, -⟩ := hmem msgId hmsgId
        exact (h item hitem).1
      · intro msgId hmsgId _
        obtain ⟨item, hitem, rfl, rfl⟩ := hmem msgId hmsgId
        exact ⟨_, List.mem_cons_self, List.mem_map_of_mem hitem⟩
  | read data env msg =>
    simp only [ops, List.mem_ite_nil_left, List.mem_singleton] at hop
    obtain ⟨hids, rfl⟩ := hop
    have hid : msg.msgId ≠ "" := fun hid => hids (by simp [hid])
    exact .replaceOther (by decide) hid rfl rfl (by decide) fun hkind => absurd hkind (by decide)
  | deliverAck kind msg =>
    simp only [ops, List.mem_ite_nil_left, List.mem_singleton] at hop
    obtain ⟨hids, rfl⟩ := hop
    refine .delOfflineMsg (by cases kind <;> decide) fun hkind => ?_
    refine ⟨?_, _, List.mem_cons_self, List.mem_singleton_self _⟩
    intro hid
    cases kind with
    | chatDeliverNotify => exact hids ⟨rfl, .inr hid⟩
    | _ => exact absurd hkind (by decide)

theorem covered_deliverOps {env : Env} {user : String} {items : List OfflineDeliveredMsg}
    {receipted : String → Prop} (hitems : ∀ item ∈ items, ItemFollows ends user item) :
    Covered ends receipted (deliverOps env user items) := by
  refine Covered.append (.of_forall fun op hop key hdeletes => ?_) (.flatMap fun group hgroup => ?_)
  · obtain ⟨toId, cmdId, msgIds, rfl, hids⟩ := mem_othersOps hop
    have hne : ∀ msgId ∈ msgIds, cmdId ≠ 0 := by
      intro msgId hmsgId
      obtain ⟨item, hitem, -, -, rfl, -⟩ := hids msgId hmsgId
      exact (hitems item hitem).cmdId
    obtain ⟨-, hcmd, hmsg⟩ := deletes_delOfflineMsgs hne hdeletes
    obtain ⟨item, -, hother, -, rfl, -⟩ := hids _ hmsg
    intro hchat
    exact hother (by simp [isChat, ← hcmd, hchat])
  · have hmem := mem_groups_chats hgroup
    unfold chatOps
    split
    · refine ⟨fun _ hdeletes => absurd hdeletes Bool.false_ne_true, ?_, trivial⟩
      intro key hdeletes _
      obtain ⟨-, -, hmsg⟩ := deletes_delOfflineMsgs (fun _ _ => by decide) hdeletes
      obtain ⟨item, hitem, hid⟩ := List.mem_map.mp hmsg
      obtain ⟨hitems', hchat, -⟩ := hmem item hitem
      have hends := (hitems item hitems').ends hchat
      refine .inr ⟨_, List.mem_map_of_mem hitem, ?_, ?_⟩
      · rw [← hid, hends]
        rfl
      · rw [← hid, hends]
        rfl
    · trivial

/-- A task that deletes a chat has written its receipt before. -/
theorem Task.covered {receipted : String → Prop} (h : task.Follows ends) :
    Covered ends receipted task.ops := by
  cases task with
  | request req =>
    cases req with
    | chat env msg =>
      refine .of_forall fun op hop key hdeletes => ?_
      obtain ⟨-, rfl⟩ := mem_ops_chat hop
      exact absurd hdeletes Bool.false_ne_true
    | cancel env msg pulled =>
      refine .of_forall fun op hop key hdeletes => ?_
      obtain ⟨-, doc, rfl⟩ := mem_ops_cancel hop
      exact absurd hdeletes Bool.false_ne_true
    | deliverAck env msg =>
      simp only [ops, Request.ops]
      split
      · trivial
      · next hids =>
        have hid : msg.msgId ≠ "" := fun hid => hids (by simp [hid])
        refine ⟨fun _ hdeletes => absurd hdeletes Bool.false_ne_true, ?_, trivial⟩
        intro key hdeletes _
        obtain ⟨-, hmsg, -⟩ := deletes_delOfflineMsg (by decide) hdeletes
        rw [hmsg.resolve_left hid]
        refine .inr ⟨_, List.mem_singleton_self _, ?_, ?_⟩
        · rw [(h : ends msg.msgId = _)]
          rfl
        · rw [(h : ends msg.msgId = _)]
          rfl
    | delivered env msg =>
      simp only [ops, Request.ops]
      split
      · trivial
      · exact covered_deliverOps h
    | pull env msg dirty =>
      simp only [ops, Request.ops]
      split
      · trivial
      · refine (covered_deliverOps h).append (.of_forall fun op hop key hdeletes hchat => ?_)
        obtain ⟨msgId, -, rfl⟩ := List.mem_map.mp hop
        obtain ⟨-, -, hcmd⟩ := deletes_delOfflineMsg (by decide) hdeletes
        exact absurd (hcmd.symm.trans hchat) (by decide)
    | notifyAck msg =>
      refine .of_forall fun op hop key hdeletes hchat => ?_
      obtain ⟨cmdId, msgIds, rfl, hmem⟩ := mem_ops_notifyAck hop
      have hne : ∀ msgId ∈ msgIds, cmdId ≠ 0 := by
        intro msgId hmsgId
        obtain ⟨item, hitem, rfl, -⟩ := hmem msgId hmsgId
        exact (h item hitem).1
      obtain ⟨-, hcmd, hmsg⟩ := deletes_delOfflineMsgs hne hdeletes
      obtain ⟨item, hitem, rfl, -⟩ := hmem _ hmsg
      exact (h item hitem).2 (by simp [isChat, ← hcmd, hchat])
  | read data env msg =>
    refine .of_forall fun op hop key hdeletes => ?_
    simp only [ops, List.mem_ite_nil_left, List.mem_singleton] at hop
    obtain ⟨-, rfl⟩ := hop
    exact absurd hdeletes Bool.false_ne_true
  | deliverAck kind msg =>
    refine .of_forall fun op hop key hdeletes hchat => ?_
    simp only [ops, List.mem_ite_nil_left, List.mem_singleton] at hop
    obtain ⟨-, rfl⟩ := hop
    obtain ⟨-, -, hcmd⟩ := deletes_delOfflineMsg (by cases kind <;> decide) hdeletes
    have hkind := hcmd.symm.trans hchat
    cases kind <;> exact absurd hkind (by decide)

end Tasks

section Accounted

variable {ι : Type u} [DecidableEq ι] {s s' : State ι}

structure Accounted (ends : String → String × String) (s : State ι) : Prop where
  own : ∀ chat ∈ s.accepted, ends chat.msgId = (chat.fromId, chat.toId)
  kept : ∀ chat ∈ s.accepted, (∃ doc ∈ s.store, doc.entry = chatKey chat) ∨
    ∃ task ∈ s.started, task.cancels chat = true
  receipted : ∀ doc ∈ s.store, doc.cmdId = mesChatDeliver → doc.bPulled ≠ 0 →
    Receipted ends s.store doc.msgId
  acked : ∀ doc ∈ s.store, doc.cmdId = mesChatDeliveredNotification → doc.bPulled ≠ 0 →
    ∃ task ∈ s.started, doc.entry ∈ task.ackKeys
  covered : ∀ i, Covered ends (Receipted ends s.store) (s.threads.place i)
  fits : ∀ i, ∀ op ∈ s.threads.place i, Fits ends s.started op

theorem Accounted.start {i : ι} {task : Task} (h : Accounted ends s) (hgood : task.Follows ends) :
    Accounted ends
      { s with
        threads := { s.threads with place := Function.update s.threads.place i task.ops }
        started := task :: s.started } where
  own := h.own
  kept := by
    intro chat hchat
    refine (h.kept chat hchat).imp_right ?_
    rintro ⟨task', htask, hcancels⟩
    exact ⟨task', List.mem_cons_of_mem _ htask, hcancels⟩
  receipted := h.receipted
  acked := by
    intro doc hdoc hcmd hpulled
    obtain ⟨task', htask, hkey⟩ := h.acked doc hdoc hcmd hpulled
    exact ⟨task', List.mem_cons_of_mem _ htask, hkey⟩
  covered := by
    intro j
    by_cases hj : j = i
    · subst hj
      simp only [Function.update_self]
      exact Task.covered hgood
    · simp only [Function.update_of_ne hj]
      exact h.covered j
  fits := by
    intro j op hop
    by_cases hj : j = i
    · subst hj
      simp only [Function.update_self] at hop
      exact Task.fits hgood hop
    · simp only [Function.update_of_ne hj] at hop
      exact (h.fits j op hop).mono fun _ htask => List.mem_cons_of_mem _ htask

theorem Fits.receipted_apply {started : List Task} {op : Op} {store : Store} {msgId : String}
    (h : Fits ends started op) (hreceipted : Receipted ends store msgId) :
    Receipted ends (op.apply store) msgId :=
  exists_apply (fun _ _ hdoc => ⟨hdoc.entry, hdoc.fromId⟩) (h.receipts msgId) hreceipted

theorem Accounted.turn {i : ι} {op : Op} {ops : List Op} (h : Accounted ends s)
    (hplace : s.threads.place i = op :: ops) :
    Accounted ends
      { s with
        threads := ⟨op.apply s.store, Function.update s.threads.place i ops⟩
        accepted := accepts op ++ s.accepted } := by
  have hop : op ∈ s.threads.place i := hplace ▸ List.mem_cons_self
  have hfits := h.fits i op hop
  obtain ⟨hdeletes, hrest⟩ : Covered ends (Receipted ends s.store) (op :: ops) :=
    hplace ▸ h.covered i
  constructor
  · intro chat hchat
    obtain hnew | hold := List.mem_append.mp hchat
    · exact (hfits.accepted chat hnew).1
    · exact h.own chat hold
  · intro chat hchat
    obtain hnew | hold := List.mem_append.mp hchat
    · exact .inl (exists_apply_of_docs (hfits.accepted chat hnew).2)
    · obtain hdoc | hcancelled := h.kept chat hold
      · by_cases hreplaces : replaces op (chatKey chat) = true
        · obtain hnew | hcancelled := hfits.chats chat (h.own chat hold) hreplaces
          · exact .inl (exists_apply_of_docs hnew)
          · exact .inr hcancelled
        · refine .inl (exists_apply (Q := fun doc => doc.entry = chatKey chat)
            (fun _ _ hentry => hentry) ?_ hdoc)
          intro doc hentry hreplaced
          exact absurd (hentry ▸ hreplaced) hreplaces
      · exact .inr hcancelled
  · intro doc hdoc hcmd hpulled
    obtain hdeleted | hold := pulled_of_mem_apply hfits.written hdoc hpulled
    · exact hfits.receipted_apply (hdeletes doc.entry hdeleted hcmd)
    · exact hfits.receipted_apply (h.receipted doc hold hcmd hpulled)
  · intro doc hdoc hcmd hpulled
    obtain hdeleted | hold := pulled_of_mem_apply hfits.written hdoc hpulled
    · exact hfits.acked doc.entry hdeleted hcmd
    · exact h.acked doc hold hcmd hpulled
  · intro j
    by_cases hj : j = i
    · subst hj
      simp only [Function.update_self]
      refine hrest.mono fun msgId hreceipted => ?_
      exact hreceipted.elim hfits.receipted_apply exists_apply_of_docs
    · simp only [Function.update_of_ne hj]
      exact (h.covered j).mono fun msgId => hfits.receipted_apply
  · intro j op' hop'
    by_cases hj : j = i
    · subst hj
      simp only [Function.update_self] at hop'
      exact h.fits j op' (hplace ▸ List.mem_cons_of_mem _ hop')
    · simp only [Function.update_of_ne hj] at hop'
      exact h.fits j op' hop'

theorem Accounted.step {e : Event ι} (h : Accounted ends s) (hgood : s.good ends e)
    (hstep : s.step e = some s') : Accounted ends s' := by
  cases e with
  | start i task =>
    simp only [State.step] at hstep
    split at hstep
    · obtain rfl := Option.some.inj hstep
      exact h.start hgood
    · cases hstep
  | turn i =>
    obtain ⟨threads, hthreads, rfl⟩ := Option.map_eq_some_iff.mp hstep
    obtain ⟨ops, store, hturn, rfl⟩ := Threads.step_eq_some hthreads
    cases hplace : s.threads.place i with
    | nil =>
      rw [hplace] at hturn
      cases hturn
    | cons op rest =>
      rw [hplace] at hturn
      obtain ⟨rfl, rfl⟩ := Prod.mk.inj (Option.some.inj hturn)
      simpa using h.turn hplace

/-- No thread has anything to do, and nothing was deleted yet. -/
def State.init (ι : Type u) (store : Store) : State ι where
  threads := ⟨store, fun _ => []⟩

omit [DecidableEq ι] in
theorem accounted_init {store : Store} (hstore : ∀ doc ∈ store, doc.bPulled = 0) :
    Accounted ends (State.init ι store) where
  own := fun _ hchat => absurd hchat List.not_mem_nil
  kept := fun _ hchat => absurd hchat List.not_mem_nil
  receipted := fun doc hdoc _ hpulled => absurd (hstore doc hdoc) hpulled
  acked := fun doc hdoc _ hpulled => absurd (hstore doc hdoc) hpulled
  covered := fun _ => trivial
  fits := fun _ _ hop => absurd hop List.not_mem_nil

end Accounted

/-- The chat waits for its receiver, or was cancelled by its sender, or its receipt is there: it
waits for the sender of the chat, unless the sender has acknowledged it. -/
def State.AccountsFor {ι : Type u} (s : State ι) (chat : MESChat) : Prop :=
  Pending s.store (chatKey chat) ∨ (∃ task ∈ s.started, task.cancels chat = true) ∨
    ∃ doc ∈ s.store, doc.entry = receiptKey chat ∧ doc.fromId = chat.toId ∧
      (doc.bPulled = 0 ∨ ∃ task ∈ s.started, receiptKey chat ∈ task.ackKeys)

/-- However the operations of the requests interleave, each chat that was answered without an error
is accounted for. -/
theorem chats_accounted {ι : Type u} [DecidableEq ι] {store : Store} {s : State ι}
    (hstore : ∀ doc ∈ store, doc.bPulled = 0)
    (h : Run.Reaches State.step (State.good ends) (State.init ι store) s) :
    ∀ chat ∈ s.accepted, s.AccountsFor chat := by
  have hinv : Accounted ends s := by
    refine h.invariant (Accounted ends) (accounted_init hstore) ?_
    intro s e s' hinv hgood hstep
    exact hinv.step hgood hstep
  intro chat hchat
  obtain ⟨doc, hdoc, hentry⟩ | hcancelled := hinv.kept chat hchat
  · by_cases hpulled : doc.bPulled = 0
    · exact .inl ⟨doc, hdoc, hentry, hpulled⟩
    · have hcmd : doc.cmdId = mesChatDeliver := congrArg EntryKey.cmdId hentry
      have hid : doc.msgId = chat.msgId := congrArg EntryKey.msgId hentry
      obtain ⟨receipt, hreceipt, hnamed, hfrom⟩ := hinv.receipted doc hdoc hcmd hpulled
      rw [hid, hinv.own chat hchat] at hnamed hfrom
      have hkey : receipt.entry = receiptKey chat := hnamed
      refine .inr (.inr ⟨receipt, hreceipt, hkey, hfrom, ?_⟩)
      refine or_iff_not_imp_left.mpr fun hdeleted => ?_
      rw [← hkey]
      exact hinv.acked receipt hreceipt (congrArg EntryKey.cmdId hkey) hdeleted
  · exact .inr (.inl hcancelled)

/-- The receiver acknowledges a chat while the sender acknowledges another message. -/
def receiptRun : List (Event ℕ) :=
  [.start 0 (.request (chatRequest "ann" "bob" "1")), .turn 0,
    .start 0 (.request (.deliverAck {} ⟨"bob", "ann", "1"⟩)), .turn 0,
    .start 1 (.deliverAck .readDeliver ⟨"ann", "0"⟩), .turn 1, .turn 0]

/-- The receipt takes the place of the chat. -/
theorem chats_accounted_receipt :
    ∃ s : State ℕ, s.accepted = [⟨"ann", "bob", "1", "hi"⟩] ∧
      ¬ Pending s.store ⟨"bob", mesChatDeliver, "1"⟩ ∧
      Pending s.store ⟨"ann", mesChatDeliveredNotification, "1"⟩ ∧
      ∀ chat ∈ s.accepted, s.AccountsFor chat := by
  have hrun : (Run.runGood State.step (State.good fun _ => ("ann", "bob")) (State.init ℕ [])
      receiptRun).map (fun s => (s.accepted, decide (Pending s.store ⟨"bob", mesChatDeliver, "1"⟩),
        decide (Pending s.store ⟨"ann", mesChatDeliveredNotification, "1"⟩))) =
      some ([⟨"ann", "bob", "1", "hi"⟩], false, true) := by
    decide +kernel
  obtain ⟨s, hgood, heq⟩ := Option.map_eq_some_iff.mp hrun
  obtain ⟨haccepted, hchat, hreceipt⟩ := by simpa only [Prod.mk.injEq] using heq
  exact ⟨s, haccepted, of_decide_eq_false hchat, of_decide_eq_true hreceipt,
    chats_accounted (fun _ hdoc => absurd hdoc List.not_mem_nil) (Run.reaches_of_runGood hgood)⟩

end Clients

end Receipts

end Msg

end ImServer
