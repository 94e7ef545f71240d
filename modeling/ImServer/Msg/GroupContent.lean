import ImServer.Msg.OfflinePull
import Mathlib.Data.List.Dedup

/-!
# Entries whose group message is not found

While the messages of group chats are fetched for a page, an entry whose message is not returned
is deleted (msg/offLineMsgHandle.cpp). A query that fails returns what it has got so far
(msg/mod_mongodb/grpOfflineMsgMgr.cpp), so a message that is not returned may well exist. The
entry is deleted by its receiver, kind and message id, without its group.
-/

namespace ImServer

namespace Msg

/-- The collection of group messages has the message. -/
def HasMessage (grpStore : GrpStore) (grpId msgId : String) : Prop :=
  ∃ doc ∈ grpStore, doc.grpId = grpId ∧ doc.msgId = msgId

instance HasMessage.decidable (grpStore : GrpStore) (grpId msgId : String) :
    Decidable (HasMessage grpStore grpId msgId) := inferInstanceAs (Decidable (∃ doc ∈ grpStore, _))

/-- The query for the messages of a group gets as far as the message. -/
def Reads (cursor : Cursor) (grpStore : GrpStore) (grpId : String) (msgIds : List String)
    (msgId : String) : Prop :=
  ∃ doc ∈ cursor.docs (grpStore.filter fun doc => doc.grpId = grpId && msgIds.contains doc.msgId),
    doc.msgId = msgId

/-- Deleting the entries of the message ids that were not returned. -/
def deleteDirty (toId : String) (dirty : List String) (store : Store) : Store :=
  dirty.foldl (fun store msgId => delOfflineMsg toId mesGrpchatDeliver msgId store) store

/-- The document was pending and is no longer, once the dirty ids are deleted. -/
def RetiredAs (toId : String) (dirty : List String) (store : Store) (doc : OfflineMsg) : Prop :=
  doc ∈ store ∧ doc.bPulled = 0 ∧ doc ∉ deleteDirty toId dirty store

/-- The groups that are asked for, up to the one that makes the answer too long. -/
def askedGroups (cursors : String → Cursor) (grpStore : GrpStore) (maxLen : Int) :
    List (String × List String) → MESOfflineMsgAck → List (String × List String)
  | [], _ => []
  | (grpId, msgIds) :: groups, ack =>
    let items := getGrpOfflineMsgData (cursors grpId) grpStore grpId msgIds
    let (ack, isLimitTouched) := fillContents maxLen items ack
    if isLimitTouched then [(grpId, msgIds)]
    else (grpId, msgIds) :: askedGroups cursors grpStore maxLen groups ack

section Queries

variable {cursor : Cursor} {cursors : String → Cursor} {grpStore : GrpStore} {grpId msgId toId : String}
  {msgIds dirty : List String} {store : Store}

theorem Cursor.mem_of_mem_docs {α : Type} {cursor : Cursor} {docs : List α} {doc : α}
    (h : doc ∈ cursor.docs docs) : doc ∈ docs := by
  cases cursor with
  | noConn => cases h
  | exception n => exact List.mem_of_mem_take h
  | success => exact h

theorem Reads.hasMessage (h : Reads cursor grpStore grpId msgIds msgId) :
    HasMessage grpStore grpId msgId := by
  obtain ⟨doc, hdoc, rfl⟩ := h
  obtain ⟨hdoc, hasked⟩ := List.mem_filter.mp (Cursor.mem_of_mem_docs hdoc)
  exact ⟨doc, hdoc, of_decide_eq_true (Bool.and_eq_true_iff.mp hasked).1, rfl⟩

theorem mem_getGrpOfflineMsgData :
    (∃ item ∈ getGrpOfflineMsgData cursor grpStore grpId msgIds, item.msgId = msgId) ↔
      msgId ≠ "" ∧ Reads cursor grpStore grpId msgIds msgId := by
  simp only [getGrpOfflineMsgData, List.mem_map, List.mem_filter, decide_eq_true_eq, Reads]
  constructor
  · rintro ⟨item, ⟨doc, ⟨hdoc, hid⟩, rfl⟩, rfl⟩
    exact ⟨hid, doc, hdoc, rfl⟩
  · rintro ⟨hid, doc, hdoc, rfl⟩
    exact ⟨doc.contents, ⟨doc, ⟨hdoc, hid⟩, rfl⟩, rfl⟩

/-- What is missing was asked for, and was not read or is the empty id. -/
theorem mem_missing :
    msgId ∈ missing msgIds (getGrpOfflineMsgData cursor grpStore grpId msgIds) ↔
      msgId ∈ msgIds ∧ (msgId = "" ∨ ¬ Reads cursor grpStore grpId msgIds msgId) := by
  have hreturned : (getGrpOfflineMsgData cursor grpStore grpId msgIds).any (·.msgId = msgId) = true ↔
      msgId ≠ "" ∧ Reads cursor grpStore grpId msgIds msgId := by
    simp only [List.any_eq_true, decide_eq_true_eq]
    exact mem_getGrpOfflineMsgData
  rw [missing, List.mem_filter, List.mem_dedup, Bool.not_eq_true', ← Bool.not_eq_true, hreturned,
    not_and_or, not_not]

/-- The ids that are deleted are those that are missing from an answer. -/
theorem mem_fillGroups_dirty {maxLen : Int} {groups : List (String × List String)}
    {ack : MESOfflineMsgAck} :
    msgId ∈ (fillGroups cursors grpStore maxLen groups ack).2 ↔
      ∃ group ∈ askedGroups cursors grpStore maxLen groups ack,
        msgId ∈ missing group.2 (getGrpOfflineMsgData (cursors group.1) grpStore group.1 group.2) := by
  induction groups generalizing ack with
  | nil => simp only [fillGroups, askedGroups, List.not_mem_nil, false_and, exists_false]
  | cons group groups ih =>
    obtain ⟨grpId, msgIds⟩ := group
    simp only [fillGroups, askedGroups]
    split
    · simp only [List.mem_singleton, exists_eq_left]
    · simp only [List.mem_append, ih, List.mem_cons, exists_eq_or_imp]

theorem mem_deleteDirty {doc : OfflineMsg} (h : doc.bPulled = 0) :
    doc ∈ deleteDirty toId dirty store ↔
      doc ∈ store ∧ ∀ msgId ∈ dirty, offlineMsgKeys toId mesGrpchatDeliver msgId doc = false := by
  induction dirty generalizing store with
  | nil => simp only [deleteDirty, List.foldl_nil, List.not_mem_nil, false_imp_iff,
    implies_true, and_true]
  | cons msgId dirty ih =>
    rw [deleteDirty, List.foldl_cons, ← deleteDirty, ih, delOfflineMsg,
      mem_updateMany_iff h, and_assoc,
      List.forall_mem_cons]

/-- The documents that are retired: those of the receiver's group chats that a missing id names. -/
theorem retiredAs_iff {doc : OfflineMsg} :
    RetiredAs toId dirty store doc ↔ doc ∈ store ∧ doc.bPulled = 0 ∧ doc.toId = toId ∧
      doc.cmdId = mesGrpchatDeliver ∧ ∃ msgId ∈ dirty, msgId = "" ∨ doc.msgId = msgId := by
  have hkeys : ∀ {msgId}, offlineMsgKeys toId mesGrpchatDeliver msgId doc = true ↔
      doc.toId = toId ∧ (msgId = "" ∨ doc.msgId = msgId) ∧ doc.cmdId = mesGrpchatDeliver := by
    intro msgId
    simp only [offlineMsgKeys, Bool.and_eq_true, Bool.or_eq_true, decide_eq_true_eq, and_assoc,
      (by decide : mesGrpchatDeliver ≠ 0), false_or]
  rw [RetiredAs]
  refine and_congr_right fun hdoc => and_congr_right fun hpulled => ?_
  rw [mem_deleteDirty hpulled]
  constructor
  · intro hnot
    push Not at hnot
    obtain ⟨msgId, hdirty, hfound⟩ := hnot hdoc
    obtain ⟨hto, hid, hcmd⟩ := hkeys.mp ((Bool.not_eq_false _).mp hfound)
    exact ⟨hto, hcmd, msgId, hdirty, hid⟩
  · rintro ⟨hto, hcmd, msgId, hdirty, hid⟩ ⟨-, hkept⟩
    have hfound := hkeys.mpr ⟨hto, hid, hcmd⟩
    rw [hkept msgId hdirty] at hfound
    cases hfound

end Queries

section Pages

variable {env : PullEnv} {cursors : String → Cursor} {grpStore : GrpStore} {toId : String}
    {store : Store}

theorem mem_askedGroups {maxLen : Int} {groups : List (String × List String)} {ack : MESOfflineMsgAck}
    {group : String × List String} (h : group ∈ askedGroups cursors grpStore maxLen groups ack) :
    group ∈ groups := by
  induction groups generalizing ack with
  | nil => exact h
  | cons first groups ih =>
    simp only [askedGroups] at h
    split at h
    · exact List.mem_singleton.mp h ▸ List.mem_cons_self
    · exact (List.mem_cons.mp h).elim (· ▸ List.mem_cons_self) fun h => List.mem_cons_of_mem _ (ih h)

/-- An id that is asked for is that of a pending entry of its group. -/
theorem exists_of_mem_grpMsgIds {msgId m : String} {group : String × List String}
    (hgroup : group ∈ grpMsgIds (offlinePage env toId msgId store)) (hm : m ∈ group.2) :
    ∃ doc ∈ store, doc.bPulled = 0 ∧ doc.toId = toId ∧ doc.cmdId = mesGrpchatDeliver ∧
      doc.fromId = group.1 ∧ doc.msgId = m := by
  have hpair := Multimap.mem_of_mem_groups hgroup hm
  obtain ⟨data, hdata, heq⟩ := List.mem_map.mp hpair
  obtain ⟨hdata, hgrp⟩ := List.mem_filter.mp hdata
  obtain ⟨doc, hdoc, hto, hpulled, rfl⟩ := mem_getUserOfflineMsg hdata
  obtain ⟨hfrom, hid⟩ := Prod.mk.inj heq
  exact ⟨doc, hdoc, hpulled, hto, of_decide_eq_true hgrp, hfrom, hid⟩

end Pages

/-- A pending entry of a group chat that the deletion of an id also finds has a message. -/
def NamesOther (grpStore : GrpStore) (store : Store) (toId m : String) : Prop :=
  ∃ doc ∈ store, doc.bPulled = 0 ∧ doc.toId = toId ∧ doc.cmdId = mesGrpchatDeliver ∧
    (m = "" ∨ doc.msgId = m) ∧ HasMessage grpStore doc.fromId doc.msgId

/-- Only entries without a message are retired exactly when each query that is made reads all
existing messages it asks for, and no id without a message also names an entry that has one. -/
theorem retires_missing_iff (env : PullEnv) (cursors : String → Cursor) (grpStore : GrpStore)
    (toId msgId : String) (store : Store) :
    let ack := offlinePage env toId msgId store
    (∀ doc, RetiredAs toId (getGrpOfflineMsgContent cursors grpStore 65535 ack).2 store doc →
      ¬ HasMessage grpStore doc.fromId doc.msgId) ↔
    ∀ group ∈ askedGroups cursors grpStore 65535 (grpMsgIds ack) ack, ∀ m ∈ group.2,
      if HasMessage grpStore group.1 m then m ≠ "" ∧ Reads (cursors group.1) grpStore group.1 group.2 m
      else ¬ NamesOther grpStore store toId m := by
  intro ack
  have hdirty : ∀ m, m ∈ (getGrpOfflineMsgContent cursors grpStore 65535 ack).2 ↔
      ∃ group ∈ askedGroups cursors grpStore 65535 (grpMsgIds ack) ack,
        m ∈ group.2 ∧ (m = "" ∨ ¬ Reads (cursors group.1) grpStore group.1 group.2 m) := by
    intro m
    simp only [← mem_missing]
    exact mem_fillGroups_dirty
  constructor
  · intro hnone group hgroup m hm
    have hkeep : m = "" ∨ ¬ Reads (cursors group.1) grpStore group.1 group.2 m →
        ¬ NamesOther grpStore store toId m := by
      rintro hmissing ⟨doc, hdoc, hpulled, hto, hcmd, hid, hmessage⟩
      have hretired := retiredAs_iff.mpr
        ⟨hdoc, hpulled, hto, hcmd, m, (hdirty m).mpr ⟨group, hgroup, hm, hmissing⟩, hid⟩
      exact hnone doc hretired hmessage
    split
    · next hmessage =>
      by_contra hnot
      obtain ⟨doc, hdoc, hpulled, hto, hcmd, hfrom, hid⟩ :=
        exists_of_mem_grpMsgIds (mem_askedGroups hgroup) hm
      refine hkeep ?_ ⟨doc, hdoc, hpulled, hto, hcmd, .inr hid, ?_⟩
      · exact (not_and_or.mp hnot).imp_left not_not.mp
      · rw [hfrom, hid]
        exact hmessage
    · next hmessage => exact hkeep (.inr fun hreads => hmessage hreads.hasMessage)
  · intro hcond doc hretired hmessage
    obtain ⟨hdoc, hpulled, hto, hcmd, m, hm, hid⟩ := retiredAs_iff.mp hretired
    obtain ⟨group, hgroup, hm, hmissing⟩ := (hdirty m).mp hm
    have hgood := hcond group hgroup m hm
    split at hgood
    · exact hmissing.elim hgood.1 fun hnot => hnot hgood.2
    · exact hgood ⟨doc, hdoc, hpulled, hto, hcmd, hid, hmessage⟩

/-- There is no connection when the message of the only entry is fetched. -/
theorem not_retires_missing :
    ∃ (env : PullEnv) (cursors : String → Cursor) (grpStore : GrpStore) (toId msgId : String)
      (store : Store),
      let ack := offlinePage env toId msgId store
      ¬ ∀ doc, RetiredAs toId (getGrpOfflineMsgContent cursors grpStore 65535 ack).2 store doc →
        ¬ HasMessage grpStore doc.fromId doc.msgId := by
  let msg : MESGrpChat := ⟨"ann", "group00000000000000a1", "1", "hi", 1⟩
  refine ⟨{}, fun _ => .noConn, [.ofChat msg], "bob", "r", [.ofGrpChat msg "bob"], ?_⟩
  intro ack hnone
  refine hnone (.ofGrpChat msg "bob") (retiredAs_iff.mpr ?_) (by decide)
  refine ⟨by decide, rfl, rfl, rfl, "1", by decide +kernel, .inr rfl⟩

end Msg

end ImServer
