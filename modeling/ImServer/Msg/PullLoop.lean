import ImServer.Lib.Rounds
import ImServer.Msg.DeliveredBatch
import ImServer.Msg.FilledPage

/-!
# Pulling until nothing is pending

A client pulls a page, acknowledges every entry that is not empty, and pulls again
(msg/offLineMsgHandle.cpp). A chat that is acknowledged leaves a notification to its sender, who
may be the user himself. If nothing of a page reaches the client, the next page is the same.
-/

namespace ImServer

namespace Msg

/-- A request for a page, and what the server finds when it handles it. -/
structure Pull where
  env : Env
  msgId : String

/-- What stays the same while a user pulls; all queries succeed. Every request computes anew the
day before which messages are not pulled; here it is the same day for all of them. -/
structure PullLoop where
  env : PullEnv
  grpStore : GrpStore
  user : String

namespace PullLoop

def isPending (l : PullLoop) (doc : OfflineMsg) : Bool := isPullable l.env l.user doc

def answer (l : PullLoop) (pull : Pull) (store : Store) : MESOfflineMsgAck × List String :=
  pullAnswer { l.env with now := pull.env.now } (fun _ => .success) l.grpStore l.user pull.msgId store

/-- The entries that are not empty. -/
def handedOut (l : PullLoop) (pull : Pull) (store : Store) : List OfflineMsgData :=
  (l.answer pull store).1.msglist.filter (· ≠ {})

/-- The acknowledgement of an entry. -/
def ackOf (l : PullLoop) (data : OfflineMsgData) : OfflineDeliveredMsg :=
  ⟨data.cmdId, data.fromId, l.user, data.msgId⟩

/-- A page is answered, and its entries are acknowledged with the next request. -/
def round (l : PullLoop) (pull : Pull) (store : Store) : Store :=
  (deliverItems pull.env (deleteDirty l.user (l.answer pull store).2 store) l.user pull.msgId
    ((l.handedOut pull store).map l.ackOf)).1

def after (l : PullLoop) (pulls : Nat → Pull) (store : Store) : Nat → Store :=
  Rounds.after (fun n => l.round (pulls n)) store

theorem seen_of_pulled {doc : OfflineMsg} (h : doc.bPulled = 0) : seen doc = doc := by
  cases doc
  cases h
  rfl

/-- The documents that a round deletes. -/
def gone (l : PullLoop) (pull : Pull) (store : Store) (doc : OfflineMsg) : Bool :=
  (l.answer pull store).2.any (offlineMsgKeys l.user mesGrpchatDeliver · doc) ||
    hits l.user ((l.handedOut pull store).map l.ackOf) doc

/-- The notifications for the chats that are acknowledged. -/
def notifies (l : PullLoop) (pull : Pull) (store : Store) : Store :=
  (((l.handedOut pull store).map l.ackOf).filter isChat).map (notifyDoc pull.env)

variable (l : PullLoop) (pull : Pull) (store : Store)

theorem map_seen_round :
    ((l.round pull store).map seen).Perm
      (store.map (mark (l.gone pull store)) ++ l.notifies pull store) := by
  have hdirty : (deleteDirty l.user (l.answer pull store).2 store).map
      (mark (hits l.user ((l.handedOut pull store).map l.ackOf))) =
        store.map (mark (l.gone pull store)) :=
    map_mark_foldl_updateMany (offlineMsgKeys l.user mesGrpchatDeliver) _ _ _
  rw [← hdirty]
  exact map_seen_deliverItems pull.env _ l.user pull.msgId _

theorem isPending_mark (filter : OfflineMsg → Bool) (doc : OfflineMsg) :
    l.isPending (mark filter doc) = (l.isPending doc && !filter doc) := by
  cases hfilter : filter doc with
  | true => simp [isPending, isPullable, mark, hfilter]
  | false =>
    have hpulled : (min doc.bPulled 1 = 0) = (doc.bPulled = 0) := by
      rw [eq_iff_iff]
      omega
    simp [isPending, isPullable, mark, hfilter, hpulled]

theorem isPending_seen (doc : OfflineMsg) : l.isPending (seen doc) = l.isPending doc := by
  have hmark := l.isPending_mark (fun _ => false) doc
  rw [mark_false rfl] at hmark
  simpa using hmark

/-- Pending documents of some kinds. -/
def isPendingOf (l : PullLoop) (kinds : UInt32 → Bool) (doc : OfflineMsg) : Bool :=
  l.isPending doc && kinds doc.cmdId

theorem isPendingOf_comp_seen (kinds : UInt32 → Bool) :
    l.isPendingOf kinds ∘ seen = l.isPendingOf kinds :=
  funext fun doc => congrArg (· && kinds doc.cmdId) (l.isPending_seen doc)

theorem isPendingOf_comp_mark (kinds : UInt32 → Bool) (filter : OfflineMsg → Bool) :
    l.isPendingOf kinds ∘ mark filter = fun doc => l.isPendingOf kinds doc && !filter doc := by
  funext doc
  rw [Function.comp_apply, isPendingOf, l.isPending_mark, Bool.and_right_comm]
  rfl

variable {l pull store}

/-- Documents are as they were written, and those that are no notifications differ in their kind
or id while they are pending. -/
structure Inv (l : PullLoop) (store : Store) : Prop where
  written : ∀ doc ∈ store, Written doc
  keys : ((store.filter (l.isPendingOf (· ≠ mesChatDeliveredNotification))).map
    fun doc => (doc.cmdId, doc.msgId)).Nodup

/-- Documents stay as they were written when some of them are deleted and others added. -/
theorem written_of_map_seen {store' new : Store} {filter : OfflineMsg → Bool}
    (h : (store'.map seen).Perm (store.map (mark filter) ++ new)) (hstore : ∀ doc ∈ store, Written doc)
    (hnew : ∀ doc ∈ new, Written doc) : ∀ doc ∈ store', Written doc := by
  intro doc hdoc
  have hmem := h.mem_iff.mp (List.mem_map_of_mem hdoc)
  have hseen : Written (seen doc) := by
    obtain hold | hnewDoc := List.mem_append.mp hmem
    · obtain ⟨old, hold, hsame⟩ := List.mem_map.mp hold
      have hold := hstore old hold
      rw [← hsame]
      exact ⟨hold.cmdId, hold.msgId, hold.bare⟩
    · exact hnew _ hnewDoc
  exact ⟨hseen.cmdId, hseen.msgId, hseen.bare⟩

theorem filter_notifies {kinds : UInt32 → Bool} (hkinds : kinds mesChatDeliveredNotification = false) :
    (l.notifies pull store).filter (l.isPendingOf kinds) = [] := by
  refine List.filter_eq_nil_iff.mpr fun doc hdoc hfound => ?_
  obtain ⟨item, -, rfl⟩ := List.mem_map.mp hdoc
  have hkind : kinds mesChatDeliveredNotification = true := (Bool.and_eq_true_iff.mp hfound).2
  rw [hkinds] at hkind
  cases hkind

theorem Inv.round (h : l.Inv store) : l.Inv (l.round pull store) := by
  constructor
  · refine written_of_map_seen (l.map_seen_round pull store) h.written fun doc hdoc => ?_
    obtain ⟨item, -, rfl⟩ := List.mem_map.mp hdoc
    exact .ofDeliveredAck _ _
  · have hround := ((l.map_seen_round pull store).filter
      (l.isPendingOf (· ≠ mesChatDeliveredNotification))).map fun doc => (doc.cmdId, doc.msgId)
    rw [List.filter_map, l.isPendingOf_comp_seen, List.filter_append,
      filter_notifies (decide_eq_false (by simp)), List.append_nil, List.filter_map,
      l.isPendingOf_comp_mark, List.map_map, List.map_map] at hround
    refine hround.nodup_iff.mpr (List.Sublist.nodup ?_ h.keys)
    refine List.Sublist.map _ (List.monotone_filter_right store fun doc hkept => ?_)
    exact (Bool.and_eq_true_iff.mp hkept).1

/-- The queries of a round, with its time. -/
def envAt (l : PullLoop) (pull : Pull) : PullEnv := { l.env with now := pull.env.now }

def contents (l : PullLoop) (pull : Pull) (store : Store) : String → List UInt8 :=
  pageContents (l.envAt pull) l.grpStore l.user pull.msgId store

/-- The documents whose entries are handed out. -/
def shownDocs (l : PullLoop) (pull : Pull) (store : Store) : List OfflineMsg :=
  (pageDocs (l.envAt pull) l.user store).filter fun doc =>
    shown (l.envAt pull) (l.contents pull store) doc ≠ {}

theorem isPending_of_mem_pageDocs {doc : OfflineMsg} (h : doc ∈ pageDocs (l.envAt pull) l.user store) :
    doc ∈ store ∧ l.isPending doc = true :=
  List.mem_filter.mp ((pageDocs_subperm (l.envAt pull) l.user store).subset h)

theorem mem_shownDocs {doc : OfflineMsg} (hdoc : doc ∈ l.shownDocs pull store) :
    doc ∈ store ∧ l.isPending doc = true ∧
      shown (l.envAt pull) (l.contents pull store) doc =
        filled (l.envAt pull) (l.contents pull store) doc ∧
      (doc.cmdId = mesGrpchatDeliver → l.contents pull store doc.msgId ≠ []) := by
  obtain ⟨hpage, hshown⟩ := List.mem_filter.mp hdoc
  have hshown := of_decide_eq_true hshown
  obtain ⟨hstore, hpending⟩ := isPending_of_mem_pageDocs hpage
  have hnot : ¬ (doc.cmdId = mesGrpchatDeliver ∧ l.contents pull store doc.msgId = []) := fun hempty =>
    hshown (if_pos hempty)
  exact ⟨hstore, hpending, if_neg hnot, fun hgrp hempty => hnot ⟨hgrp, hempty⟩⟩

theorem Inv.eq_of_key (h : l.Inv store) {doc doc' : OfflineMsg} (hdoc : doc ∈ store)
    (hdoc' : doc' ∈ store)
    (hpending : l.isPending doc = true) (hpending' : l.isPending doc' = true)
    (hkind : doc.cmdId ≠ mesChatDeliveredNotification) (hcmd : doc'.cmdId = doc.cmdId)
    (hid : doc'.msgId = doc.msgId) : doc' = doc := by
  refine List.inj_on_of_nodup_map h.keys ?_ ?_ (Prod.ext hcmd hid)
  · exact List.mem_filter.mpr ⟨hdoc', Bool.and_eq_true_iff.mpr ⟨hpending', decide_eq_true (hcmd ▸ hkind)⟩⟩
  · exact List.mem_filter.mpr ⟨hdoc, Bool.and_eq_true_iff.mpr ⟨hpending, decide_eq_true hkind⟩⟩

theorem Inv.distinct (h : l.Inv store) (pull : Pull) : Distinct (l.envAt pull) l.user store := by
  refine ⟨h.written, ?_⟩
  have hgrp : ∀ doc ∈ (store.filter l.isPending).filter (fun doc => doc.cmdId = mesGrpchatDeliver),
      (doc.cmdId, doc.msgId) = (mesGrpchatDeliver, doc.msgId) := fun doc hdoc =>
    Prod.ext (of_decide_eq_true (List.mem_filter.mp hdoc).2) rfl
  have hsublist : ((store.filter l.isPending).filter fun doc => doc.cmdId = mesGrpchatDeliver).Sublist
      (store.filter (l.isPendingOf (· ≠ mesChatDeliveredNotification))) := by
    rw [List.filter_filter]
    refine List.monotone_filter_right store fun doc hdoc => ?_
    obtain ⟨hkind, hpending⟩ := Bool.and_eq_true_iff.mp hdoc
    refine Bool.and_eq_true_iff.mpr ⟨hpending, decide_eq_true ?_⟩
    rw [of_decide_eq_true hkind]
    decide
  have hkeys := (hsublist.map fun doc => (doc.cmdId, doc.msgId)).nodup h.keys
  rw [List.map_congr_left hgrp] at hkeys
  have hids : ((((store.filter l.isPending).filter fun doc => doc.cmdId = mesGrpchatDeliver).map
      (·.msgId)).map fun msgId => (mesGrpchatDeliver, msgId)).Nodup := by
    rw [List.map_map]
    exact hkeys
  exact hids.of_map _

namespace Inv

variable (h : l.Inv store)

include h

theorem handedOut_eq :
    l.handedOut pull store =
      (l.shownDocs pull store).map (shown (l.envAt pull) (l.contents pull store)) := by
  have hanswer := (h.distinct pull).msglist_answer l.grpStore pull.msgId
  rw [handedOut, answer]
  refine (congrArg _ hanswer).trans ?_
  rw [List.filter_map]
  rfl

/-- What is acknowledged deletes the documents with the same kind and id. -/
theorem hits_iff {doc : OfflineMsg} (hto : doc.toId = l.user) :
    hits l.user ((l.handedOut pull store).map l.ackOf) doc = true ↔
      ∃ found ∈ l.shownDocs pull store, found.cmdId = doc.cmdId ∧ found.msgId = doc.msgId := by
  have hkeys : ∀ data, data.cmdId ≠ 0 →
      (itemKeys l.user (l.ackOf data) doc = true ↔ data.cmdId = doc.cmdId ∧
        data.msgId = doc.msgId) := by
    intro data hzero
    have hkeys : itemKeys l.user (l.ackOf data) doc = true ↔
        doc.toId = l.user ∧ doc.cmdId = data.cmdId ∧ doc.msgId = data.msgId := itemKeys_iff rfl hzero
    exact hkeys.trans ((and_iff_right hto).trans (and_congr eq_comm eq_comm))
  rw [h.handedOut_eq, hits, List.map_map, List.any_map, List.any_eq_true]
  refine exists_congr fun found => and_congr_right fun hfound => ?_
  obtain ⟨hstore, -, hshown, -⟩ := mem_shownDocs hfound
  have hcmd : (filled (l.envAt pull) (l.contents pull store) found).cmdId = found.cmdId := by
    rw [filled]
    split <;> rfl
  have hid := @msgId_filled (l.envAt pull) (l.contents pull store) found
  have hfoundKeys := hkeys (filled (l.envAt pull) (l.contents pull store) found)
    (hcmd ▸ (h.written found hstore).cmdId)
  rw [hcmd, hid] at hfoundKeys
  rw [Function.comp_apply, Function.comp_apply, hshown]
  exact hfoundKeys

end Inv

namespace Inv

variable (h : l.Inv store)

include h

end Inv

/-- Nothing of the user is pending. -/
def Done (l : PullLoop) (store : Store) : Prop := ∀ doc ∈ store, l.isPending doc = false

instance decidableDone (l : PullLoop) (store : Store) : Decidable (l.Done store) :=
  inferInstanceAs (Decidable (∀ doc ∈ store, l.isPending doc = false))

namespace Inv

variable (h : l.Inv store)

include h

theorem round_eq (hshown : l.shownDocs pull store = []) (hdirty : (l.answer pull store).2 = []) :
    l.round pull store = store := by
  rw [PullLoop.round, hdirty, h.handedOut_eq, hshown]
  rfl

end Inv

namespace Inv

variable (h : l.Inv store)

include h

theorem own {data : OfflineMsgData} (hdata : data ∈ l.handedOut pull store)
    (hgrp : data.cmdId = mesGrpchatDeliver) :
    ∃ msg ∈ l.grpStore, msg.grpId = data.fromId ∧ msg.msgId = data.msgId ∧
      Protobuf.encode msg.msgData.fields = data.msgData := by
  rw [h.handedOut_eq] at hdata
  obtain ⟨doc, hdoc, rfl⟩ := List.mem_map.mp hdata
  obtain ⟨-, -, hshown, hfilled⟩ := mem_shownDocs hdoc
  rw [hshown, filled] at hgrp ⊢
  split at hgrp
  · next hkind =>
    rw [if_pos hkind]
    exact (h.distinct pull).pageContents_own (List.mem_filter.mp hdoc).1 hkind (hfilled hkind)
  · next hkind => exact absurd hgrp hkind

end Inv

variable {pulls : Nat → Pull}

theorem Inv.after (h : l.Inv store) (n : Nat) : l.Inv (l.after pulls store n) :=
  Rounds.after_invariant h (fun _ _ hs => hs.round) n

end PullLoop

end Msg

end ImServer
