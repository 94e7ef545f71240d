import ImServer.Msg.PullLoop

/-!
# The offline messages of the customer service

The customer service pulls the messages of its account page by page
(customerService/customerSvrProxy.cpp). Chats and cancelled chats of a page are posted to the
agents, and what was read of the page is acknowledged under the ids that it was parsed to. An entry
that does not parse, or whose command is not expected, is neither posted nor acknowledged, and as
long as the pages are not empty the next one is requested.

The parser of protobuf messages is a parameter.
-/

namespace ImServer

open Msg

/-- What the service reads of a message. -/
structure DeliverMsg where
  fromId : String
  toId : String
  msgId : String
  deriving DecidableEq, Repr

/-- The customer service, and what stays the same on the message server while it pulls: the messages
of groups, the states of calls, and the day before which messages are not pulled. -/
structure CCustomerSvrProxy where
  env : PullEnv
  grpStore : GrpStore
  /-- How a message is parsed, by the command that tells its type. -/
  parse : UInt32 → List UInt8 → Option DeliverMsg

namespace CCustomerSvrProxy

/-- The account that the messages are requested for. -/
def account : String := "10000"

def mesChatReadDeliver : UInt32 := 0xb00a

/-- The messages of an account as the server sees them. -/
def loop (c : CCustomerSvrProxy) : PullLoop := ⟨c.env, c.grpStore, account⟩

def isPosted (cmdId : UInt32) : Bool := cmdId = mesChatDeliver || cmdId = mesChatcancelDeliver

def isExpected (cmdId : UInt32) : Bool :=
  isPosted cmdId || cmdId = mesChatDeliveredNotification || cmdId = mesChatReadDeliver

/-- How an entry is acknowledged; its cases differ in the type of the message, and in the posting. -/
def delivered (c : CCustomerSvrProxy) (msgData : OfflineMsgData) : Option OfflineDeliveredMsg :=
  if isExpected msgData.cmdId then
    (c.parse msgData.cmdId msgData.msgData).bind fun deliverMsg =>
      if deliverMsg.fromId = "" then none
      else if deliverMsg.toId = "" ∨ deliverMsg.msgId = "" then none
      else some ⟨msgData.cmdId, deliverMsg.fromId, deliverMsg.toId, deliverMsg.msgId⟩
  else none

/-- The entries whose messages are posted to the agents: chats and cancels that can be parsed. -/
def posted (c : CCustomerSvrProxy) (msglist : List OfflineMsgData) : List OfflineMsgData :=
  msglist.filter fun msgData => isPosted msgData.cmdId && (c.delivered msgData).isSome

/-- What is sent for a page, and then the next one is requested. -/
def onGetOfflineMsgAck (c : CCustomerSvrProxy)
    (msg : MESOfflineMsgAck) : Option MESOfflineMsgDelivered :=
  if msg.msglist = [] then none
  else some { fromId := msg.toId, msgId := msg.msgId, lsMsgs := msg.msglist.filterMap c.delivered }

def page (c : CCustomerSvrProxy) (pull : Pull) (store : Store) : List OfflineMsgData :=
  (c.loop.answer pull store).1.msglist

/-- A page is answered and acknowledged. -/
def round (c : CCustomerSvrProxy) (pull : Pull) (store : Store) : Store :=
  let answer := c.loop.answer pull store
  let store := deleteDirty account answer.2 store
  match c.onGetOfflineMsgAck answer.1 with
  | none => store
  | some msg => onOfflineMsgDelivered pull.env store msg

def after (c : CCustomerSvrProxy) (pulls : Nat → Pull) (store : Store) : Nat → Store :=
  Rounds.after (fun n => c.round (pulls n)) store

/-- What is posted in the rounds before one. -/
def postedBefore (c : CCustomerSvrProxy) (pulls : Nat → Pull) (store : Store) : Nat →
    List OfflineMsgData :=
  Rounds.handedOut (fun n store => c.posted (c.page (pulls n) store)) (fun n => c.round (pulls n)) store

/-- A document of the account that has not been deleted, whether it has been handed out or not. -/
def isStored (doc : OfflineMsg) : Bool := doc.toId = account && doc.bPulled = 0

/-- The rounds come to an empty page, and until then each chat and cancelled chat that was stored
is posted once. -/
def Serves (c : CCustomerSvrProxy) (pulls : Nat → Pull) (store : Store) : Prop :=
  ∃ n, c.page (pulls n) (c.after pulls store n) = [] ∧
    (c.postedBefore pulls store n).Perm
      ((store.filter fun doc => isStored doc && isPosted doc.cmdId).map (·.data c.env))

/-- The acknowledgement of a document's entry. -/
def item (c : CCustomerSvrProxy) (doc : OfflineMsg) : Option OfflineDeliveredMsg :=
  c.delivered (doc.data c.env)

def pending (c : CCustomerSvrProxy) (store : Store) : List OfflineMsg := store.filter c.loop.isPending

def pageDocs (c : CCustomerSvrProxy) (pull : Pull) (store : Store) : List OfflineMsg :=
  Msg.pageDocs (c.loop.envAt pull) account store

variable {c : CCustomerSvrProxy} {pulls : Nat → Pull} {pull : Pull} {store : Store} {doc : OfflineMsg}

theorem delivered_eq_some {msgData : OfflineMsgData} {item : OfflineDeliveredMsg}
    (h : c.delivered msgData = some item) :
    isExpected msgData.cmdId = true ∧ item.cmdId = msgData.cmdId ∧ item.fromId ≠ "" ∧
      item.toId ≠ "" ∧ item.msgId ≠ "" := by
  rw [delivered] at h
  split at h
  · next hexpected =>
    obtain ⟨deliverMsg, -, h⟩ := Option.bind_eq_some_iff.mp h
    split at h
    · cases h
    · next hfrom =>
      split at h
      · cases h
      · next hids =>
        obtain ⟨hto, hid⟩ := not_or.mp hids
        cases h
        exact ⟨hexpected, rfl, hfrom, hto, hid⟩
  · cases h

theorem delivered_of_not_expected {msgData : OfflineMsgData} (h : isExpected msgData.cmdId = false) :
    c.delivered msgData = none := by
  rw [delivered, h]
  rfl

theorem mem_pending : doc ∈ c.pending store ↔ doc ∈ store ∧ c.loop.isPending doc = true :=
  List.mem_filter

theorem toId_of_mem_pending (h : doc ∈ c.pending store) : doc.toId = account := by
  have hpending := (mem_pending.mp h).2
  exact of_decide_eq_true (Bool.and_eq_true_iff.mp (Bool.and_eq_true_iff.mp hpending).1).1

theorem mem_pending_of_mem_pageDocs (h : doc ∈ c.pageDocs pull store) : doc ∈ c.pending store :=
  mem_pending.mpr (PullLoop.isPending_of_mem_pageDocs h)

/-- The entry is not too long for a page of its own. -/
def Fits (c : CCustomerSvrProxy) (doc : OfflineMsg) : Prop := FirstFits c.env account [doc]

/-- The pages come to the entry: it is pending, so neither deleted nor older than the configured
day, and neither it nor an entry that is listed in front of it is too long for a page. -/
def IsReached (c : CCustomerSvrProxy) (store : Store) (doc : OfflineMsg) : Prop :=
  c.loop.isPending doc = true ∧ ∀ long ∈ c.pending store, ¬ c.Fits long → ¬ PullOrder long doc

/-- Whether two documents are deleted by the same acknowledgements. -/
def sameKey (doc other : OfflineMsg) : Bool := other.cmdId = doc.cmdId && other.msgId = doc.msgId

/-- What is stored is as the server writes it: group chats have ids of their own, and what parses
has the receiver and id that it is stored under. An entry that is no chat and is not answered or
too long shares its kind and id with no other, and does not tie with one that fits where it is too
long. A chat of the account with itself will be replaced by a notification, which shares its id with
answered ones only and fits, as all entries from the account do. -/
structure Inv (c : CCustomerSvrProxy) (pulls : Nat → Pull) (store : Store) : Prop where
  written : ∀ doc ∈ store, Written doc
  ids : (grpIds (c.pending store)).Nodup
  alike : ∀ doc ∈ c.pending store, ∀ other ∈ c.pending store, isPosted doc.cmdId = false →
    sameKey doc other = true →
      (c.item other).isSome = (c.item doc).isSome ∧ (c.Fits other ↔ c.Fits doc)
  ties : ∀ long ∈ c.pending store, ¬ c.Fits long → ∀ doc ∈ c.pending store, c.Fits doc →
    PullOrder long doc → ¬ PullOrder doc long
  agrees : ∀ doc ∈ c.pending store, ∀ item ∈ c.item doc, item.toId = account ∧ item.msgId = doc.msgId
  own : ∀ doc ∈ c.pending store, ∀ item ∈ c.item doc, isChat item → item.fromId = account →
    (∀ other ∈ c.pending store, other.cmdId = mesChatDeliveredNotification →
      other.msgId = doc.msgId → (c.item other).isSome = true ∧ c.Fits other) ∧
    (∀ other ∈ c.pending store, other.fromId = account → c.Fits other) ∧
    ∀ n, c.Fits (notifyDoc (pulls n).env item)

theorem sameKey_iff {other : OfflineMsg} :
    sameKey doc other = true ↔ other.cmdId = doc.cmdId ∧ other.msgId = doc.msgId := by
  rw [sameKey, Bool.and_eq_true, decide_eq_true_eq, decide_eq_true_eq]

theorem Inv.distinct (h : c.Inv pulls store) (pull : Pull) :
    Distinct (c.loop.envAt pull) account store := ⟨h.written, h.ids⟩

/-- The documents of a page that are acknowledged. -/
def ackedDocs (c : CCustomerSvrProxy) (pull : Pull) (store : Store) : List OfflineMsg :=
  (c.pageDocs pull store).filter fun doc => (c.item doc).isSome

def acks (c : CCustomerSvrProxy) (pull : Pull) (store : Store) : List OfflineDeliveredMsg :=
  (c.page pull store).filterMap c.delivered

theorem cmdId_shown {contents : String → List UInt8} (hgrp : doc.cmdId = mesGrpchatDeliver) :
    (shown c.env contents doc).cmdId = 0 ∨ (shown c.env contents doc).cmdId = mesGrpchatDeliver := by
  rw [shown]
  split
  · exact .inl rfl
  · rw [filled, if_pos hgrp]
    exact .inr hgrp

/-- Group chats are not acknowledged, and other entries are those of their documents. -/
theorem delivered_shown {contents : String → List UInt8} :
    c.delivered (shown c.env contents doc) = c.item doc := by
  by_cases hgrp : doc.cmdId = mesGrpchatDeliver
  · have hitem : c.item doc = none := by
      refine delivered_of_not_expected ?_
      rw [OfflineMsg.data, hgrp]
      rfl
    rw [hitem]
    refine delivered_of_not_expected ?_
    obtain hcmd | hcmd := @cmdId_shown c doc contents hgrp
    · rw [hcmd]
      rfl
    · rw [hcmd]
      rfl
  · rw [shown, if_neg fun h => hgrp h.1, filled, if_neg hgrp, item]

theorem Inv.page_eq (h : c.Inv pulls store) (pull : Pull) :
    c.page pull store =
      (c.pageDocs pull store).map (shown c.env (c.loop.contents pull store)) :=
  (h.distinct pull).msglist_answer c.grpStore pull.msgId

theorem Inv.acks_eq (h : c.Inv pulls store) (pull : Pull) :
    c.acks pull store = (c.pageDocs pull store).filterMap c.item := by
  rw [acks, h.page_eq, List.filterMap_map]
  exact congrArg (List.filterMap · _) (funext fun doc => delivered_shown)

theorem toId_answer (c : CCustomerSvrProxy) (pull : Pull) (store : Store) :
    (c.loop.answer pull store).1.toId = account := by
  obtain ⟨_, -, hoffline⟩ := offlinePage_eq (c.loop.envAt pull) account pull.msgId store
  obtain ⟨entries, hentries⟩ := fillGroups_eq (fun _ => .success) c.grpStore 65535
    (grpMsgIds (offlinePage (c.loop.envAt pull) account pull.msgId store))
    (offlinePage (c.loop.envAt pull) account pull.msgId store)
  have hcontent : (getGrpOfflineMsgContent (fun _ => .success) c.grpStore 65535
      (offlinePage (c.loop.envAt pull) account pull.msgId store)).1 =
        clearEmpty { toId := account, errcode := nonErr, msgId := pull.msgId, msglist := entries } := by
    rw [hoffline] at hentries ⊢
    exact congrArg clearEmpty hentries
  have hanswer : (pullAnswer (c.loop.envAt pull) (fun _ => .success) c.grpStore account
      pull.msgId store).1 = _ := pullAnswer_eq
  rw [hcontent] at hanswer
  exact congrArg MESOfflineMsgAck.toId hanswer

theorem onOfflineMsgDelivered_store (env : Env) (store : Store) (msgId : String)
    (items : List OfflineDeliveredMsg) :
    onOfflineMsgDelivered env store { fromId := account, msgId := msgId, lsMsgs := items } =
      (deliverItems env store account msgId items).1 := by
  rw [onOfflineMsgDelivered, if_neg (by decide : account ≠ "")]
  rfl

theorem round_eq (c : CCustomerSvrProxy) (pull : Pull) (store : Store) :
    ∃ msgId, c.round pull store =
      (deliverItems pull.env (deleteDirty account (c.loop.answer pull store).2 store) account msgId
        (c.acks pull store)).1 := by
  by_cases hpage : (c.loop.answer pull store).1.msglist = []
  · refine ⟨"", ?_⟩
    simp only [round, onGetOfflineMsgAck, acks, page, hpage]
    rfl
  · refine ⟨(c.loop.answer pull store).1.msgId, ?_⟩
    simp only [round, onGetOfflineMsgAck, if_neg hpage, toId_answer]
    exact onOfflineMsgDelivered_store _ _ _ _

/-- The documents that a round deletes. -/
def gone (c : CCustomerSvrProxy) (pull : Pull) (store : Store) (doc : OfflineMsg) : Bool :=
  (c.loop.answer pull store).2.any (offlineMsgKeys account mesGrpchatDeliver · doc) ||
    hits account (c.acks pull store) doc

/-- The notifications for the chats that are acknowledged. -/
def notifies (c : CCustomerSvrProxy) (pull : Pull) (store : Store) : Store :=
  ((c.acks pull store).filter isChat).map (notifyDoc pull.env)

theorem map_seen_round (c : CCustomerSvrProxy) (pull : Pull) (store : Store) :
    ((c.round pull store).map seen).Perm
      (store.map (mark (c.gone pull store)) ++ c.notifies pull store) := by
  obtain ⟨msgId, hround⟩ := c.round_eq pull store
  have hdirty : (deleteDirty account (c.loop.answer pull store).2 store).map
      (mark (hits account (c.acks pull store))) = store.map (mark (c.gone pull store)) :=
    map_mark_foldl_updateMany (offlineMsgKeys account mesGrpchatDeliver) _ _ _
  rw [hround, ← hdirty]
  exact map_seen_deliverItems pull.env _ account msgId _

/-- A map that leaves what is found changes nothing about what is found. -/
theorem filter_map_of_eq {α : Type} {p q : α → Bool} {f : α → α} (hp : ∀ a, p (f a) = q a)
    (hf : ∀ a, q a = true → f a = a) (as : List α) : (as.map f).filter p = as.filter q := by
  have hfound : p ∘ f = q := funext hp
  rw [List.filter_map, hfound]
  refine (List.map_congr_left fun a ha => hf a (List.mem_filter.mp ha).2).trans ?_
  exact List.map_id _

theorem mark_of_isPending {filter : OfflineMsg → Bool} (hpending : c.loop.isPending doc = true)
    (hkept : filter doc = false) : mark filter doc = doc :=
  (mark_false hkept).trans
    (PullLoop.seen_of_pulled (of_decide_eq_true (Bool.and_eq_true_iff.mp hpending).2))

theorem filter_map_seen (docs : Store) : (docs.map seen).filter c.loop.isPending = c.pending docs := by
  refine filter_map_of_eq c.loop.isPending_seen (fun doc hpending => ?_) docs
  have hmark : mark (fun _ => false) doc = seen doc := mark_false rfl
  rw [← hmark]
  exact mark_of_isPending hpending rfl

/-- What is pending after a round is what it does not delete, and new notifications. -/
theorem pending_round (c : CCustomerSvrProxy) (pull : Pull) (store : Store) :
    (c.pending (c.round pull store)).Perm
      ((c.pending store).filter (fun doc => !c.gone pull store doc) ++
        c.pending (c.notifies pull store)) := by
  have hmarked : (store.map (mark (c.gone pull store))).filter c.loop.isPending =
      store.filter fun doc => c.loop.isPending doc && !c.gone pull store doc := by
    refine filter_map_of_eq (c.loop.isPending_mark _) (fun doc hfound => ?_) store
    obtain ⟨hpending, hkept⟩ := Bool.and_eq_true_iff.mp hfound
    exact mark_of_isPending hpending (Bool.not_eq_true' _ ▸ hkept)
  have hround := (c.map_seen_round pull store).filter c.loop.isPending
  rw [filter_map_seen, List.filter_append, hmarked] at hround
  rw [pending, pending, List.filter_filter]
  simp only [Bool.and_comm (!c.gone pull store _)]
  exact hround

theorem mem_ackedDocs : doc ∈ c.ackedDocs pull store ↔
    doc ∈ c.pageDocs pull store ∧ (c.item doc).isSome = true := List.mem_filter

namespace Inv

variable (h : c.Inv pulls store)

include h

/-- What is acknowledged deletes the documents with the kinds and ids of the acknowledged entries. -/
theorem hits_iff (hdoc : doc ∈ c.pending store) :
    hits account (c.acks pull store) doc = true ↔
      ∃ found ∈ c.ackedDocs pull store, sameKey found doc = true := by
  have hitem : ∀ found ∈ c.pageDocs pull store, ∀ item ∈ c.item found,
      (itemKeys account item doc = true ↔ sameKey found doc = true) := by
    intro found hfound item hitem
    have hfound := mem_pending_of_mem_pageDocs hfound
    obtain ⟨hto, hid⟩ := h.agrees found hfound item hitem
    have hcmd : item.cmdId = found.cmdId := (delivered_eq_some hitem).2.1
    have hzero : item.cmdId ≠ 0 := hcmd ▸ (h.written found (mem_pending.mp hfound).1).cmdId
    rw [itemKeys_iff hto hzero, hcmd, hid, sameKey_iff]
    exact and_iff_right (toId_of_mem_pending hdoc)
  rw [hits, h.acks_eq, List.any_eq_true]
  constructor
  · rintro ⟨item, hmem, hkeys⟩
    obtain ⟨found, hfound, hfoundItem⟩ := List.mem_filterMap.mp hmem
    have hacked := mem_ackedDocs.mpr ⟨hfound, Option.isSome_iff_exists.mpr ⟨item, hfoundItem⟩⟩
    exact ⟨found, hacked, (hitem found hfound item hfoundItem).mp hkeys⟩
  · rintro ⟨found, hacked, hkeys⟩
    obtain ⟨hpage, hsome⟩ := mem_ackedDocs.mp hacked
    obtain ⟨item, hfoundItem⟩ := Option.isSome_iff_exists.mp hsome
    exact ⟨item, List.mem_filterMap.mpr ⟨found, hpage, hfoundItem⟩,
      (hitem found hpage item hfoundItem).mpr hkeys⟩

theorem dirty_iff (hdoc : doc ∈ c.pending store) :
    (c.loop.answer pull store).2.any (offlineMsgKeys account mesGrpchatDeliver · doc) = true ↔
      doc.cmdId = mesGrpchatDeliver ∧ doc.msgId ∈ (c.loop.answer pull store).2 := by
  rw [List.any_eq_true]
  constructor
  · rintro ⟨m, hm, hkeys⟩
    obtain ⟨found, hfound, hgrp, hid, -⟩ := (h.distinct pull).exists_of_mem_dirty hm
    have hwritten := h.written found (PullLoop.isPending_of_mem_pageDocs hfound).1
    simp only [offlineMsgKeys, Bool.and_eq_true, Bool.or_eq_true, decide_eq_true_eq,
      (by decide : mesGrpchatDeliver ≠ 0), false_or] at hkeys
    obtain ⟨⟨-, hmsgId⟩, hcmd⟩ := hkeys
    obtain hempty | rfl := hmsgId
    · exact absurd (hid.trans hempty) (hwritten.msgId hgrp)
    · exact ⟨hcmd, hm⟩
  · rintro ⟨hcmd, hm⟩
    refine ⟨doc.msgId, hm, ?_⟩
    simp only [offlineMsgKeys, toId_of_mem_pending hdoc, hcmd, decide_true, Bool.or_true, Bool.and_self]

theorem gone_iff (hdoc : doc ∈ c.pending store) :
    c.gone pull store doc = true ↔
      (∃ found ∈ c.ackedDocs pull store, sameKey found doc = true) ∨
        (doc.cmdId = mesGrpchatDeliver ∧ doc.msgId ∈ (c.loop.answer pull store).2) := by
  rw [gone, Bool.or_eq_true, h.dirty_iff hdoc, h.hits_iff hdoc, or_comm]

theorem gone_of_mem_ackedDocs (hdoc : doc ∈ c.ackedDocs pull store) :
    doc ∈ c.pending store ∧ c.gone pull store doc = true := by
  have hpending := mem_pending_of_mem_pageDocs (mem_ackedDocs.mp hdoc).1
  exact ⟨hpending, (h.gone_iff hpending).mpr (.inl ⟨doc, hdoc, sameKey_iff.mpr ⟨rfl, rfl⟩⟩)⟩

end Inv

/-- The parser reads the notifications that the server writes. Nothing is asked of it for other
messages. -/
def ReadsNotifications (c : CCustomerSvrProxy) : Prop :=
  ∀ ack : MESChatDeliveredAck,
    c.parse mesChatDeliveredNotification (MsgData.deliveredAck ack).serialize =
      some ⟨ack.fromId, ack.toId, ack.msgId⟩

theorem item_notifyDoc (hparse : c.ReadsNotifications) (env : Env) {item : OfflineDeliveredMsg}
    (hfrom : item.fromId ≠ "") (hto : item.toId ≠ "") (hid : item.msgId ≠ "") :
    c.item (notifyDoc env item) =
      some ⟨mesChatDeliveredNotification, item.toId, item.fromId, item.msgId⟩ := by
  have hread : c.parse ((notifyDoc env item).data c.env).cmdId ((notifyDoc env item).data c.env).msgData =
      some ⟨item.toId, item.fromId, item.msgId⟩ := hparse (notifyOf item)
  have hexpected : isExpected ((notifyDoc env item).data c.env).cmdId = true := rfl
  rw [CCustomerSvrProxy.item, delivered, if_pos hexpected, hread, Option.bind_some, if_neg hto,
    if_neg (not_or.mpr ⟨hfrom, hid⟩)]
  rfl

/-- A new notification for the account is that of a chat with itself. -/
theorem mem_pending_notifies (h : c.Inv pulls store) (hnew : doc ∈ c.pending (c.notifies pull store)) :
    ∃ found ∈ c.ackedDocs pull store, ∃ item ∈ c.item found, isChat item = true ∧
      item.fromId = account ∧ doc = notifyDoc pull.env item := by
  obtain ⟨item, hitem, rfl⟩ := List.mem_map.mp (mem_pending.mp hnew).1
  obtain ⟨hacks, hchat⟩ := List.mem_filter.mp hitem
  rw [h.acks_eq] at hacks
  obtain ⟨found, hfound, hfoundItem⟩ := List.mem_filterMap.mp hacks
  exact ⟨found, mem_ackedDocs.mpr ⟨hfound, Option.isSome_iff_exists.mpr ⟨item, hfoundItem⟩⟩, item,
    hfoundItem, hchat, toId_of_mem_pending hnew, rfl⟩

theorem mem_pending_round : doc ∈ c.pending (c.round pull store) ↔
    (doc ∈ c.pending store ∧ c.gone pull store doc = false) ∨
      doc ∈ c.pending (c.notifies pull store) := by
  rw [(c.pending_round pull store).mem_iff, List.mem_append, List.mem_filter, Bool.not_eq_true']

namespace Inv

variable (h : c.Inv pulls store)

include h

/-- A notification for the account is answered, fits, and has the account as its sender. -/
theorem of_mem_notifies (hparse : c.ReadsNotifications) {n : Nat}
    (hnew : doc ∈ c.pending (c.notifies (pulls n) store)) :
    doc.cmdId = mesChatDeliveredNotification ∧ doc.fromId = account ∧ c.Fits doc ∧
      c.item doc = some ⟨mesChatDeliveredNotification, account, account, doc.msgId⟩ := by
  obtain ⟨found, hfound, item, hitem, hchat, hfromId, rfl⟩ := mem_pending_notifies h hnew
  obtain ⟨hpending, -⟩ := h.gone_of_mem_ackedDocs hfound
  obtain ⟨-, -, hfrom, hto, hid⟩ := delivered_eq_some hitem
  have htoId := (h.agrees found hpending item hitem).1
  refine ⟨rfl, htoId, (h.own found hpending item hitem hchat hfromId).2.2 n, ?_⟩
  rw [item_notifyDoc hparse _ hfrom hto hid, htoId, hfromId]
  rfl

/-- What is pending after a round was pending before, or is a notification for a chat of the
account with itself. -/
theorem of_mem_round (hparse : c.ReadsNotifications) {n : Nat}
    (hdoc : doc ∈ c.pending (c.round (pulls n) store)) :
    doc ∈ c.pending store ∨
      (doc.cmdId = mesChatDeliveredNotification ∧ doc.fromId = account ∧ c.Fits doc ∧
        c.item doc = some ⟨mesChatDeliveredNotification, account, account, doc.msgId⟩) := by
  obtain ⟨hold, -⟩ | hnew := mem_pending_round.mp hdoc
  · exact .inl hold
  · exact .inr (h.of_mem_notifies hparse hnew)

theorem round (hparse : c.ReadsNotifications) (n : Nat) : c.Inv pulls (c.round (pulls n) store) := by
  have hchatDoc : ∀ {found item}, item ∈ c.item found → isChat item = true →
      found.cmdId = mesChatDeliver := fun hitem hchat =>
    (delivered_eq_some hitem).2.1.symm.trans (of_decide_eq_true hchat)
  have hdiffers : mesChatDeliveredNotification ≠ mesChatDeliver := by decide
  -- A notification that is new has its chat in the store, which says what has the same key.
  have hnewKey : ∀ new ∈ c.pending (c.notifies (pulls n) store), ∀ old ∈ c.pending store,
      old.cmdId = mesChatDeliveredNotification → old.msgId = new.msgId →
        (c.item old).isSome = true ∧ c.Fits old := by
    intro new hnew old hold hcmd hid
    obtain ⟨found, hfound, item, hitem, hchat, hfrom, rfl⟩ := mem_pending_notifies h hnew
    have hpending := (h.gone_of_mem_ackedDocs hfound).1
    exact (h.own found hpending item hitem hchat hfrom).1 old hold hcmd
      (hid.trans (h.agrees found hpending item hitem).2)
  have hnewFrom : ∀ new ∈ c.pending (c.notifies (pulls n) store), ∀ old ∈ c.pending store,
      old.fromId = account → c.Fits old := by
    intro new hnew old hold hfromId
    obtain ⟨found, hfound, item, hitem, hchat, hfrom, rfl⟩ := mem_pending_notifies h hnew
    have hpending := (h.gone_of_mem_ackedDocs hfound).1
    exact (h.own found hpending item hitem hchat hfrom).2.1 old hold hfromId
  constructor
  case written =>
    refine PullLoop.written_of_map_seen (c.map_seen_round (pulls n) store) h.written fun doc hdoc => ?_
    obtain ⟨item, -, rfl⟩ := List.mem_map.mp hdoc
    exact .ofDeliveredAck _ _
  case ids =>
    have hgrp : (c.pending (c.notifies (pulls n) store)).filter
        (fun doc => doc.cmdId = mesGrpchatDeliver) = [] := by
      refine List.filter_eq_nil_iff.mpr fun new hnew hcmd => ?_
      obtain ⟨hnotify, -⟩ := h.of_mem_notifies hparse hnew
      rw [hnotify] at hcmd
      exact absurd hcmd (by decide)
    have hround := ((c.pending_round (pulls n) store).filter fun doc =>
      doc.cmdId = mesGrpchatDeliver).map (·.msgId)
    rw [List.filter_append, hgrp, List.append_nil] at hround
    exact hround.nodup_iff.mpr (((List.filter_sublist.filter _).map _).nodup h.ids)
  case alike =>
    intro doc hdoc other hother hposted hkey
    obtain ⟨hcmd, hid⟩ := sameKey_iff.mp hkey
    obtain ⟨hold, -⟩ | hnew := mem_pending_round.mp hdoc
    · obtain ⟨hotherOld, -⟩ | hotherNew := mem_pending_round.mp hother
      · exact h.alike doc hold other hotherOld hposted hkey
      · obtain ⟨hnotify, -, hfits, hitem⟩ := h.of_mem_notifies hparse hotherNew
        obtain ⟨hsome, hdocFits⟩ := hnewKey other hotherNew doc hold (hcmd.symm.trans hnotify) hid.symm
        rw [hitem, hsome]
        exact ⟨rfl, iff_of_true hfits hdocFits⟩
    · obtain ⟨hnotify, -, hfits, hitem⟩ := h.of_mem_notifies hparse hnew
      obtain ⟨hotherOld, -⟩ | hotherNew := mem_pending_round.mp hother
      · obtain ⟨hsome, hotherFits⟩ := hnewKey doc hnew other hotherOld (hcmd.trans hnotify) hid
        rw [hitem, hsome]
        exact ⟨rfl, iff_of_true hotherFits hfits⟩
      · obtain ⟨-, -, hotherFits, hotherItem⟩ := h.of_mem_notifies hparse hotherNew
        rw [hitem, hotherItem]
        exact ⟨rfl, iff_of_true hotherFits hfits⟩
  case ties =>
    intro long hlong hnot doc hdoc hfits hbefore
    obtain ⟨hlongOld, -⟩ | hlongNew := mem_pending_round.mp hlong
    · obtain ⟨hold, -⟩ | hnew := mem_pending_round.mp hdoc
      · exact h.ties long hlongOld hnot doc hold hfits hbefore
      · obtain ⟨-, hfrom, -⟩ := h.of_mem_notifies hparse hnew
        rintro (hafter | ⟨hsame, -⟩)
        · obtain hless | ⟨hsame, -⟩ := hbefore
          · exact String.lt_asymm hless hafter
          · exact absurd hafter (hsame ▸ String.lt_irrefl _)
        · exact hnot (hnewFrom doc hnew long hlongOld (hsame.symm.trans hfrom))
    · exact absurd (h.of_mem_notifies hparse hlongNew).2.2.1 hnot
  case agrees =>
    intro doc hdoc item hitem
    obtain hold | ⟨-, -, -, hnewItem⟩ := h.of_mem_round hparse hdoc
    · exact h.agrees doc hold item hitem
    · rw [hnewItem] at hitem
      cases hitem
      exact ⟨rfl, rfl⟩
  case own =>
    intro doc hdoc item hitem hchat hfrom
    obtain hold | ⟨hnotify, -⟩ := h.of_mem_round hparse hdoc
    · obtain ⟨hids, hfits, hnotification⟩ := h.own doc hold item hitem hchat hfrom
      refine ⟨fun other hother hcmd hid => ?_, fun other hother hother' => ?_, hnotification⟩
      · obtain hotherOld | ⟨-, -, hotherFits, hotherItem⟩ := h.of_mem_round hparse hother
        · exact hids other hotherOld hcmd hid
        · exact ⟨hotherItem ▸ rfl, hotherFits⟩
      · obtain hotherOld | ⟨-, -, hotherFits, -⟩ := h.of_mem_round hparse hother
        · exact hfits other hotherOld hother'
        · exact hotherFits
    · exact absurd (hnotify.symm.trans (hchatDoc hitem hchat)) hdiffers

theorem after (hparse : c.ReadsNotifications) (n : Nat) : c.Inv pulls (c.after pulls store n) :=
  Rounds.after_invariant h (fun n _ hs => hs.round hparse n) n

end Inv

/-- The entry is acknowledged, or the server deletes it itself because its message is missing. -/
def Answers (c : CCustomerSvrProxy) (doc : OfflineMsg) : Prop :=
  (c.item doc).isSome = true ∨
    (doc.cmdId = mesGrpchatDeliver ∧ ¬ HasMessage c.grpStore doc.fromId doc.msgId)

instance decidableAnswers (c : CCustomerSvrProxy) (doc : OfflineMsg) : Decidable (c.Answers doc) :=
  inferInstanceAs (Decidable (_ ∨ (_ ∧ ¬ _)))

namespace Inv

variable (h : c.Inv pulls store)

include h

end Inv

namespace Inv

variable (h : c.Inv pulls store)

include h

end Inv

namespace Inv

variable (h : c.Inv pulls store) (hparse : c.ReadsNotifications)

include h hparse

end Inv

/-- The text of a field that has a number. -/
def textOf (number : Nat) : Protobuf.Field → Option (List UInt8)
  | .scalar _ _ => none
  | .bytes n text => if n = number then some text else none

instance decidableFirstFits (env : PullEnv) (user : String) (docs : List OfflineMsg) :
    Decidable (FirstFits env user docs) :=
  inferInstanceAs (Decidable (∀ doc ∈ docs.head?, _))

instance decidableFits (c : CCustomerSvrProxy) (doc : OfflineMsg) : Decidable (c.Fits doc) :=
  inferInstanceAs (Decidable (FirstFits _ _ _))

instance decidableIsReached (c : CCustomerSvrProxy) (store : Store) (doc : OfflineMsg) :
    Decidable (c.IsReached store doc) :=
  inferInstanceAs (Decidable (_ ∧ ∀ long ∈ c.pending store, _))

end CCustomerSvrProxy

end ImServer
