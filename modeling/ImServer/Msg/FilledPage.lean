import ImServer.Lib.Slots
import ImServer.Msg.GroupContent
import ImServer.Msg.PduSizes
import Mathlib.Data.List.TakeWhile

/-!
# What a page hands out

A page ends in front of the first entry that does not fit, and the messages of groups are filled
in until the page is too long (msg/offLineMsgHandle.cpp). Contents are matched with entries by
message ids, so here the ids of a user's group chats differ. Nothing reaches the client if the
first entry does not fit by itself, or if there are group chats only and the first of their
messages does not fit beside the page.
-/

namespace ImServer

namespace Msg

open Protobuf

section Page

variable {env : PullEnv}

theorem byteSize_le_add (ack : MESOfflineMsgAck) (data : OfflineMsgData) :
    ack.byteSize ≤ (ack.add data).byteSize := by
  rw [MESOfflineMsgAck.byteSize_eq, MESOfflineMsgAck.byteSize_eq]
  simp only [MESOfflineMsgAck.add, MESOfflineMsgAck.head, List.map_append, List.sum_append]
  omega

/-- A page has the entries of the first documents, of one at least if it fits, and each of them
would fit as the first. -/
theorem exists_take_addEntries (env : PullEnv) (docs : List OfflineMsg) (maxLen : Int)
    (ack : MESOfflineMsgAck) :
    ∃ k, (addEntries env docs maxLen ack).msglist = ack.msglist ++ (docs.take k).map (·.data env) ∧
      (docs.take k = [] ↔ ∀ doc ∈ docs.head?,
        (if doc.cmdId = mesGrpchatDeliver then maxLen - 200 else maxLen) - 2000 ≤
          (ack.byteSize + (doc.data env).byteSize : Nat)) ∧
      ∀ doc ∈ docs.take k,
        ¬ (if doc.cmdId = mesGrpchatDeliver then maxLen - 200 else maxLen) - 2000 ≤
          (ack.byteSize + (doc.data env).byteSize : Nat) := by
  induction docs generalizing maxLen ack with
  | nil =>
    refine ⟨0, (List.append_nil _).symm, ⟨fun _ doc hdoc => ?_, fun _ => rfl⟩, List.forall_mem_nil _⟩
    exact absurd hdoc (Option.not_mem_none doc)
  | cons doc docs ih =>
    simp only [addEntries, List.head?_cons, Option.mem_some_iff, forall_eq']
    obtain ⟨rest, hrest, hless⟩ : ∃ rest,
        (if doc.cmdId = mesGrpchatDeliver then maxLen - 200 else maxLen) = rest ∧ rest ≤ maxLen := by
      refine ⟨_, rfl, ?_⟩
      split <;> omega
    rw [hrest]
    split
    · next hlong =>
      exact ⟨0, (List.append_nil _).symm, ⟨fun _ => hlong, fun _ => rfl⟩, List.forall_mem_nil _⟩
    · next hfits =>
      obtain ⟨k, hk, -, hall⟩ := ih rest (ack.add (doc.data env))
      refine ⟨k + 1, ?_, iff_of_false (List.cons_ne_nil _ _) hfits, ?_⟩
      · rw [hk, MESOfflineMsgAck.add, List.append_assoc, List.take_succ_cons, List.map_cons,
          List.singleton_append]
      · rw [List.take_succ_cons, List.forall_mem_cons, hrest]
        refine ⟨hfits, fun other hother hlong => hall other hother ?_⟩
        -- The later ones come behind a longer page and have at most as much room.
        have hsize := byteSize_le_add ack (doc.data env)
        split at hlong <;> split <;> omega

/-- The entry of a document when the messages of groups are filled in by their ids. -/
def filled (env : PullEnv) (contents : String → List UInt8) (doc : OfflineMsg) : OfflineMsgData :=
  if doc.cmdId = mesGrpchatDeliver then { doc.data env with msgData := contents doc.msgId }
  else doc.data env

theorem filled_bare {doc : OfflineMsg} (h : Written doc) :
    filled env (fun _ => []) doc = doc.data env := by
  rw [filled]
  split
  · next hgrp => rw [OfflineMsg.data, h.bare hgrp]
  · rfl

theorem isGrpEntry_filled {contents : String → List UInt8} {doc : OfflineMsg} :
    isGrpEntry (filled env contents doc) = decide (doc.cmdId = mesGrpchatDeliver) := by
  rw [filled]
  split <;> rfl

theorem msgId_filled (contents : String → List UInt8) (doc : OfflineMsg) :
    (filled env contents doc).msgId = doc.msgId := by
  rw [filled]
  split <;> rfl

/-- The message ids of the entries of group chats. -/
def grpIds (docs : List OfflineMsg) : List String :=
  (docs.filter fun doc => doc.cmdId = mesGrpchatDeliver).map (·.msgId)

theorem any_filled {contents : String → List UInt8} {docs : List OfflineMsg} {msgId : String} :
    ((docs.map (filled env contents)).any fun data => isGrpEntry data && data.msgId = msgId) = true ↔
      msgId ∈ grpIds docs := by
  simp only [List.any_map, List.any_eq_true, Function.comp_apply, isGrpEntry_filled, msgId_filled,
    Bool.and_eq_true, decide_eq_true_eq, grpIds, List.mem_map, List.mem_filter, and_assoc]

theorem setMsgData_filled {docs : List OfflineMsg} (hids : (grpIds docs).Nodup)
    (contents : String → List UInt8) (msgId : String) (content : List UInt8) :
    setMsgData msgId content (docs.map (filled env contents)) =
      docs.map (filled env (Function.update contents msgId content)) := by
  have hsame : ∀ doc : OfflineMsg, (doc.cmdId = mesGrpchatDeliver → doc.msgId ≠ msgId) →
      filled env (Function.update contents msgId content) doc = filled env contents doc := by
    intro doc hne
    simp only [filled]
    split
    · next hgrp => rw [Function.update_of_ne (hne hgrp)]
    · rfl
  induction docs with
  | nil => rfl
  | cons doc docs ih =>
    rw [List.map_cons, setMsgData, isGrpEntry_filled, msgId_filled]
    by_cases hgrp : doc.cmdId = mesGrpchatDeliver
    · have hcons : grpIds (doc :: docs) = doc.msgId :: grpIds docs := by
        simp only [grpIds, List.filter_cons, hgrp, decide_true, if_true, List.map_cons]
      obtain ⟨hnew, hids⟩ := List.nodup_cons.mp (hcons ▸ hids)
      by_cases hid : doc.msgId = msgId
      · have hrest : docs.map (filled env (Function.update contents msgId content)) =
            docs.map (filled env contents) := by
          refine List.map_congr_left fun later hlater => hsame later fun hlaterGrp heq => hnew ?_
          rw [hid, ← heq]
          exact List.mem_map_of_mem (List.mem_filter.mpr ⟨hlater, decide_eq_true hlaterGrp⟩)
        rw [List.map_cons, hrest]
        simp [filled, hgrp, hid, OfflineMsg.data]
      · rw [List.map_cons, hsame doc fun _ => hid, ← ih hids]
        simp [hid]
    · have hids : (grpIds docs).Nodup := by
        simpa [grpIds, List.filter_cons, hgrp] using hids
      rw [List.map_cons, hsame doc fun h => absurd h hgrp, ← ih hids]
      simp [hgrp]

/-- The messages that a query returns, by their ids. -/
def slotsOf (items : List MsgIdContents) : List (String × List UInt8) :=
  items.map fun item => (item.msgId, item.content)

/-- A page with these contents. -/
def filledPage (env : PullEnv) (page : MESOfflineMsgAck) (docs : List OfflineMsg)
    (contents : String → List UInt8) : MESOfflineMsgAck :=
  { page with msglist := docs.map (filled env contents) }

/-- Whether the page is too long then. -/
def isFull (env : PullEnv) (page : MESOfflineMsgAck) (docs : List OfflineMsg) (maxLen : Int)
    (contents : String → List UInt8) : Bool :=
  isMaxLenLimitTouched (filledPage env page docs contents) maxLen

variable {page : MESOfflineMsgAck} {docs : List OfflineMsg} {maxLen : Int}

theorem fillContents_filled (env : PullEnv) (page : MESOfflineMsgAck) (maxLen : Int)
    (hids : (grpIds docs).Nodup) {items : List MsgIdContents}
    (hfound : ∀ item ∈ items, item.msgId ∈ grpIds docs) (contents : String → List UInt8) :
    let slots := Slots.fill [] (isFull env page docs maxLen) (slotsOf items) contents
    fillContents maxLen items (filledPage env page docs contents) =
      (filledPage env page docs slots.1, slots.2) := by
  induction items generalizing contents with
  | nil => rfl
  | cons item items ih =>
    have hrest := ih fun later hlater => hfound later (List.mem_cons_of_mem _ hlater)
    have hany : ((filledPage env page docs contents).msglist.any fun data =>
        isGrpEntry data && data.msgId = item.msgId) = true :=
      any_filled.mpr (hfound item List.mem_cons_self)
    have hset : ∀ content, { filledPage env page docs contents with
          msglist := setMsgData item.msgId content (filledPage env page docs contents).msglist } =
        filledPage env page docs (Function.update contents item.msgId content) := by
      intro content
      simp only [filledPage, setMsgData_filled hids]
    simp only [fillContents, if_pos hany, hset, slotsOf, List.map_cons, Slots.fill]
    cases hfull : isFull env page docs maxLen (Function.update contents item.msgId item.content) with
    | true =>
      have htouched : isMaxLenLimitTouched (filledPage env page docs
        (Function.update contents item.msgId item.content)) maxLen = true := hfull
      simp only [htouched, if_true]
    | false =>
      have htouched : isMaxLenLimitTouched (filledPage env page docs
        (Function.update contents item.msgId item.content)) maxLen = false := hfull
      simp only [htouched, Bool.false_eq_true, if_false]
      exact hrest _

/-- What a query returns was asked for, and is stored for the group. -/
theorem mem_slotsOf {cursor : Cursor} {grpStore : GrpStore} {grpId : String} {msgIds : List String}
    {slot : String × List UInt8}
    (h : slot ∈ slotsOf (getGrpOfflineMsgData cursor grpStore grpId msgIds)) :
    slot.1 ∈ msgIds ∧ ∃ doc ∈ grpStore, doc.grpId = grpId ∧ doc.msgId = slot.1 ∧
      encode doc.msgData.fields = slot.2 := by
  obtain ⟨item, hitem, rfl⟩ := List.mem_map.mp h
  obtain ⟨doc, hdoc, rfl⟩ := List.mem_map.mp hitem
  obtain ⟨hdoc, -⟩ := List.mem_filter.mp hdoc
  obtain ⟨hdoc, hasked⟩ := List.mem_filter.mp (Cursor.mem_of_mem_docs hdoc)
  simp only [Bool.and_eq_true, decide_eq_true_eq, List.contains_iff_mem] at hasked
  exact ⟨hasked.2, doc, hdoc, hasked.1, rfl, rfl⟩

/-- The messages of the groups of a page. -/
def slotsOfGroups (cursors : String → Cursor) (grpStore : GrpStore)
    (groups : List (String × List String)) : List (List (String × List UInt8)) :=
  groups.map fun group => slotsOf (getGrpOfflineMsgData (cursors group.1) grpStore group.1 group.2)

theorem fillGroups_filled (env : PullEnv) (page : MESOfflineMsgAck) (maxLen : Int)
    (hids : (grpIds docs).Nodup) (cursors : String → Cursor) (grpStore : GrpStore)
    {groups : List (String × List String)} (hfound : ∀ group ∈ groups, ∀ m ∈ group.2, m ∈ grpIds docs)
    (contents : String → List UInt8) :
    (fillGroups cursors grpStore maxLen groups (filledPage env page docs contents)).1 =
      filledPage env page docs (Slots.fillAll [] (isFull env page docs maxLen)
        (slotsOfGroups cursors grpStore groups) contents) := by
  induction groups generalizing contents with
  | nil => rfl
  | cons group groups ih =>
    have hitems : ∀ item ∈ getGrpOfflineMsgData (cursors group.1) grpStore group.1 group.2,
        item.msgId ∈ grpIds docs := fun item hitem =>
      hfound group List.mem_cons_self _ (mem_slotsOf (List.mem_map_of_mem hitem)).1
    simp only [fillGroups, slotsOfGroups, List.map_cons, Slots.fillAll,
      fillContents_filled env page maxLen hids hitems]
    split
    · rfl
    · exact ih (fun group hgroup => hfound group (List.mem_cons_of_mem _ hgroup)) _

end Page

section Answer

variable {env : PullEnv} {grpStore : GrpStore} {user msgId : String} {store : Store}

/-- The documents whose entries are on a page. -/
def pageDocs (env : PullEnv) (user : String) (store : Store) : List OfflineMsg :=
  (pullable env user 100 store).take (getUserOfflineMsg env user 65535 100 store).msglist.length

/-- The first document does not make the page too long by itself. -/
def FirstFits (env : PullEnv) (user : String) (docs : List OfflineMsg) : Prop :=
  ∀ doc ∈ docs.head?, byteSize (text 2 (utf8 user)) + (doc.data env).byteSize +
    (if doc.cmdId = mesGrpchatDeliver then 200 else 0) < 63535

theorem msglist_getUserOfflineMsg :
    (getUserOfflineMsg env user 65535 100 store).msglist =
        (pageDocs env user store).map (·.data env) ∧
      (FirstFits env user (pullable env user 100 store) → pullable env user 100 store ≠ [] →
        pageDocs env user store ≠ []) ∧
      (¬ FirstFits env user (pullable env user 100 store) → pageDocs env user store = []) ∧
      ∀ doc ∈ pageDocs env user store, FirstFits env user [doc] := by
  obtain ⟨k, hk, hempty, hall⟩ :=
    exists_take_addEntries env (pullable env user 100 store) 65535 { toId := user }
  have hlist : (getUserOfflineMsg env user 65535 100 store).msglist =
      ((pullable env user 100 store).take k).map (·.data env) := hk.trans (List.nil_append _)
  have hdocs : pageDocs env user store = (pullable env user 100 store).take k := by
    rw [pageDocs, hlist, List.length_map, List.length_take, ← List.take_take, List.take_length]
  have hsize : ({ toId := user } : MESOfflineMsgAck).byteSize = byteSize (text 2 (utf8 user)) := by
    have hfrom : byteSize (text 1 (utf8 "")) = 0 := rfl
    have hid : byteSize (text 5 (utf8 "")) = 0 := rfl
    have hzero : ∀ number, byteSize (scalar number 0) = 0 := fun _ => rfl
    rw [MESOfflineMsgAck.byteSize_eq]
    simp only [MESOfflineMsgAck.head, byteSize_append, hfrom, hid, hzero, List.map_nil, List.sum_nil]
    omega
  have hfits : ∀ doc : OfflineMsg,
      ((if doc.cmdId = mesGrpchatDeliver then (65535 : Int) - 200 else 65535) - 2000 ≤
          (({ toId := user } : MESOfflineMsgAck).byteSize + (doc.data env).byteSize : Nat)) ↔
        ¬ byteSize (text 2 (utf8 user)) + (doc.data env).byteSize +
          (if doc.cmdId = mesGrpchatDeliver then 200 else 0) < 63535 := by
    intro doc
    rw [hsize]
    split <;> omega
  simp only [hfits] at hempty hall
  rw [hdocs]
  refine ⟨hlist, fun hfits hsome hnone => ?_, fun hlong => hempty.mpr ?_, fun doc hdoc doc' hdoc' => ?_⟩
  · obtain ⟨doc, docs, hpull⟩ := List.exists_cons_of_ne_nil hsome
    exact hempty.mp hnone doc (hpull ▸ rfl) (hfits doc (hpull ▸ rfl))
  · simp only [FirstFits, not_forall] at hlong
    obtain ⟨doc, hdoc, hlong⟩ := hlong
    intro doc' hdoc'
    exact Option.mem_unique hdoc hdoc' ▸ hlong
  · obtain rfl := Option.some.inj hdoc'
    exact not_not.mp (hall doc hdoc)

theorem pageDocs_subperm (env : PullEnv) (user : String) (store : Store) :
    (pageDocs env user store).Subperm (store.filter (isPullable env user)) :=
  ((List.take_sublist _ _).trans (List.take_sublist 100 _)).subperm.trans
    (List.perm_insertionSort PullOrder _).subperm

/-- The documents are as they are written, and those of the user's group chats have their own ids. -/
structure Distinct (env : PullEnv) (user : String) (store : Store) : Prop where
  written : ∀ doc ∈ store, Written doc
  ids : (grpIds (store.filter (isPullable env user))).Nodup

namespace Distinct

variable (h : Distinct env user store)

include h

theorem written_pageDocs {doc : OfflineMsg} (hdoc : doc ∈ pageDocs env user store) : Written doc :=
  h.written doc (List.mem_filter.mp ((pageDocs_subperm env user store).subset hdoc)).1

theorem nodup_grpIds : (grpIds (pageDocs env user store)).Nodup := by
  obtain ⟨docs, hperm, hsublist⟩ := (pageDocs_subperm env user store).filter
    fun doc => doc.cmdId = mesGrpchatDeliver
  exact ((hperm.map _).nodup_iff).mp ((hsublist.map _).nodup h.ids)

/-- A page has one entry for the id of a group chat. -/
theorem eq_of_msgId {doc doc' : OfflineMsg} (hdoc : doc ∈ pageDocs env user store)
    (hdoc' : doc' ∈ pageDocs env user store) (hgrp : doc.cmdId = mesGrpchatDeliver)
    (hgrp' : doc'.cmdId = mesGrpchatDeliver) (hid : doc.msgId = doc'.msgId) : doc = doc' :=
  List.inj_on_of_nodup_map h.nodup_grpIds (List.mem_filter.mpr ⟨hdoc, decide_eq_true hgrp⟩)
    (List.mem_filter.mpr ⟨hdoc', decide_eq_true hgrp'⟩) hid

end Distinct

/-- What is filled in for the message ids of a page. -/
def pageContents (env : PullEnv) (grpStore : GrpStore) (user msgId : String) (store : Store) :
    String → List UInt8 :=
  let page := offlinePage env user msgId store
  Slots.fillAll [] (isFull env page (pageDocs env user store) 65535)
    (slotsOfGroups (fun _ => .success) grpStore (grpMsgIds page)) fun _ => []

/-- The entry that a client gets for a document. -/
def shown (env : PullEnv) (contents : String → List UInt8) (doc : OfflineMsg) : OfflineMsgData :=
  if doc.cmdId = mesGrpchatDeliver ∧ contents doc.msgId = [] then {} else filled env contents doc

/-- An id that is asked for is that of an entry of the page. -/
theorem exists_pageDoc {group : String × List String} {m : String}
    (hgroup : group ∈ grpMsgIds (offlinePage env user msgId store)) (hm : m ∈ group.2) :
    ∃ doc ∈ pageDocs env user store, doc.cmdId = mesGrpchatDeliver ∧ doc.fromId = group.1 ∧
      doc.msgId = m := by
  obtain ⟨data, hdata, heq⟩ := List.mem_map.mp (Multimap.mem_of_mem_groups hgroup hm)
  obtain ⟨hdata, hgrp⟩ := List.mem_filter.mp hdata
  have hdata : data ∈ (getUserOfflineMsg env user 65535 100 store).msglist := hdata
  rw [msglist_getUserOfflineMsg.1] at hdata
  obtain ⟨doc, hdoc, rfl⟩ := List.mem_map.mp hdata
  obtain ⟨hfrom, hid⟩ := Prod.mk.inj heq
  exact ⟨doc, hdoc, of_decide_eq_true hgrp, hfrom, hid⟩

theorem mem_grpIds {docs : List OfflineMsg} {m : String} :
    m ∈ grpIds docs ↔ ∃ doc ∈ docs, doc.cmdId = mesGrpchatDeliver ∧ doc.msgId = m := by
  simp only [grpIds, List.mem_map, List.mem_filter, decide_eq_true_eq, and_assoc]

namespace Distinct

variable (h : Distinct env user store)

include h

theorem offlinePage_eq_filled (msgId : String) :
    offlinePage env user msgId store =
      filledPage env (offlinePage env user msgId store) (pageDocs env user store) fun _ => [] := by
  have hlist : (offlinePage env user msgId store).msglist =
      (pageDocs env user store).map (filled env fun _ => []) := by
    refine msglist_getUserOfflineMsg.1.trans ?_
    exact List.map_congr_left fun doc hdoc => (filled_bare (h.written_pageDocs hdoc)).symm
  rw [filledPage, ← hlist]

omit h in
theorem mem_grpIds_of_asked {group : String × List String}
    (hgroup : group ∈ grpMsgIds (offlinePage env user msgId store)) :
    ∀ m ∈ group.2, m ∈ grpIds (pageDocs env user store) := by
  intro m hm
  obtain ⟨doc, hdoc, hgrp, -, hid⟩ := exists_pageDoc hgroup hm
  exact mem_grpIds.mpr ⟨doc, hdoc, hgrp, hid⟩

theorem msglist_answer (grpStore : GrpStore) (msgId : String) :
    (pullAnswer env (fun _ => .success) grpStore user msgId store).1.msglist =
      (pageDocs env user store).map (shown env (pageContents env grpStore user msgId store)) := by
  have hfound : ∀ group ∈ grpMsgIds (offlinePage env user msgId store), ∀ m ∈ group.2,
      m ∈ grpIds (pageDocs env user store) := fun group hgroup => mem_grpIds_of_asked hgroup
  have hfilled := fillGroups_filled env (offlinePage env user msgId store) 65535 h.nodup_grpIds
    (fun _ => .success) grpStore hfound fun _ => []
  rw [← h.offlinePage_eq_filled] at hfilled
  rw [pullAnswer_eq]
  simp only [getGrpOfflineMsgContent, hfilled, clearEmpty, filledPage, List.map_map]
  refine List.map_congr_left fun doc hdoc => ?_
  simp only [Function.comp_apply, isGrpEntry_filled, shown, pageContents]
  by_cases hgrp : doc.cmdId = mesGrpchatDeliver
  · simp [filled, hgrp]
  · simp [hgrp]

/-- What is filled in for an entry of a group chat is a message of its own group and id. -/
theorem pageContents_own {doc : OfflineMsg} (hdoc : doc ∈ pageDocs env user store)
    (hgrp : doc.cmdId = mesGrpchatDeliver)
    (hfilled : pageContents env grpStore user msgId store doc.msgId ≠ []) :
    ∃ msg ∈ grpStore, msg.grpId = doc.fromId ∧ msg.msgId = doc.msgId ∧
      encode msg.msgData.fields = pageContents env grpStore user msgId store doc.msgId := by
  obtain hnone | hnone | ⟨items, hitems, hput⟩ := Slots.fillAll_cases []
      (isFull env (offlinePage env user msgId store) (pageDocs env user store) 65535)
      (slotsOfGroups (fun _ => .success) grpStore (grpMsgIds (offlinePage env user msgId store)))
      (fun _ => []) doc.msgId
  · exact absurd hnone hfilled
  · exact absurd hnone hfilled
  · obtain ⟨group, hgroup, rfl⟩ := List.mem_map.mp hitems
    obtain ⟨hasked, msg, hmsg, hgroupId, hid, hcontent⟩ := mem_slotsOf hput
    obtain ⟨doc', hdoc', hgrp', hfrom, hid'⟩ := exists_pageDoc hgroup hasked
    obtain rfl := h.eq_of_msgId hdoc' hdoc hgrp' hgrp hid'
    exact ⟨msg, hmsg, hgroupId.trans hfrom.symm, hid, hcontent⟩

theorem exists_of_mem_dirty {m : String}
    (hm : m ∈ (pullAnswer env (fun _ => .success) grpStore user msgId store).2) :
    ∃ doc ∈ pageDocs env user store, doc.cmdId = mesGrpchatDeliver ∧ doc.msgId = m ∧
      ¬ HasMessage grpStore doc.fromId m := by
  rw [pullAnswer_dirty] at hm
  obtain ⟨group, hgroup, hmissing⟩ := mem_fillGroups_dirty.mp hm
  obtain ⟨hasked, hnone⟩ := mem_missing.mp hmissing
  obtain ⟨doc, hdoc, hgrp, hfrom, rfl⟩ := exists_pageDoc (mem_askedGroups hgroup) hasked
  refine ⟨doc, hdoc, hgrp, rfl, fun hmessage => ?_⟩
  obtain hempty | hunread := hnone
  · exact (h.written_pageDocs hdoc).msgId hgrp hempty
  · obtain ⟨msg, hmsg, hgroupId, hid⟩ := hmessage
    refine hunread ⟨msg, List.mem_filter.mpr ⟨hmsg, ?_⟩, hid⟩
    simp only [Bool.and_eq_true, decide_eq_true_eq, List.contains_iff_mem]
    exact ⟨hgroupId.trans hfrom, hid ▸ hasked⟩

end Distinct

namespace Distinct

variable (h : Distinct env user store)

include h

end Distinct

namespace Distinct

variable (h : Distinct env user store)

include h

end Distinct

end Answer

end Msg

end ImServer
