import ImServer.Msg.OfflinePull
import Mathlib.Algebra.BigOperators.Group.List.Lemmas

/-!
# The summary of offline messages

A user asks how much he has not read from each sender (msg/offLineMsgHandle.cpp,
msg/mod_mongodb/offlineMsgMgr.cpp). Mongo matches his pending entries, sorts them and groups them by
sender; the server makes a row of each group until the answer gets too long, and then puts in the
text of the group chats, of which an entry has only the id.

Mongo's pipeline is what its documentation says: entries that are equal in the order come as they
like, and so do the groups. A sum that is no 32-bit integer makes the driver throw.
-/

namespace ImServer

namespace Msg

open Protobuf

/-- What `$match` lets through. An empty sender and the command 0 stand for all of them. -/
def summaryMatch (toId fromId : String) (cmdId : UInt32) (doc : OfflineMsg) : Bool :=
  doc.toId = toId && (fromId = "" || doc.fromId = fromId) && (cmdId = 0 || doc.cmdId = cmdId) &&
    doc.bPulled = 0

/-- What `$sort` sorts by: the sender, and then chats last. -/
def SummaryOrder (a b : OfflineMsg) : Prop :=
  a.fromId < b.fromId ∨ (a.fromId = b.fromId ∧ (a.isChatDeliver = true → b.isChatDeliver = true))

instance SummaryOrder.decidable : DecidableRel SummaryOrder := fun _ _ =>
  inferInstanceAs (Decidable (_ ∨ _))

/-- A result of `$group`. -/
structure SummaryView where
  toId : String
  fromId : String
  chatCount : ℕ
  totalCount : ℕ
  last : OfflineMsg
  deriving DecidableEq, Repr

/-- The group of the sender in the sorted entries. -/
def isGroupOf (toId : String) (docs : List OfflineMsg) (view : SummaryView) : Bool :=
  let group := docs.filter fun doc => doc.fromId = view.fromId
  view.toId = toId && view.chatCount = group.countP OfflineMsg.isChatDeliver &&
    view.totalCount = group.length && group.getLast? = some view.last

/-- The results of the pipeline, in some order: one for each sender, made from his documents. -/
structure Aggregates (toId fromId : String) (cmdId : UInt32) (store : Store)
    (docs : List OfflineMsg) (views : List SummaryView) : Prop where
  perm : docs.Perm (store.filter (summaryMatch toId fromId cmdId))
  sorted : docs.Pairwise SummaryOrder
  group : ∀ view ∈ views, isGroupOf toId docs view = true
  nodup : (views.map SummaryView.fromId).Nodup
  all : ∀ doc ∈ docs, doc.fromId ∈ views.map SummaryView.fromId

structure OfflineTotal where
  cmdId : UInt32 := 0
  fromId : String := ""
  toId : String := ""
  unreadTotal : ℕ := 0
  unreadChatCount : ℕ := 0
  recentcontent : List UInt8 := []
  recenttimestamp : ℕ := 0
  recentMsgId : String := ""
  deriving DecidableEq, Repr

def OfflineTotal.fields (total : OfflineTotal) : List Field :=
  scalar 1 total.cmdId.toNat ++ text 2 (utf8 total.fromId) ++ text 3 (utf8 total.toId) ++
    scalar 4 total.unreadTotal ++ scalar 5 total.unreadChatCount ++ text 6 total.recentcontent ++
    scalar 7 total.recenttimestamp ++ text 8 (utf8 total.recentMsgId)

structure MESOfflineSummaryAck where
  userId : String
  offlineTotals : List OfflineTotal := []
  errcode : ℕ := nonErr
  deriving DecidableEq, Repr

namespace MESOfflineSummaryAck

def fields (ack : MESOfflineSummaryAck) : List Field :=
  text 1 (utf8 ack.userId) ++
    repeated 2 (ack.offlineTotals.map fun total => encode total.fields) ++ scalar 3 ack.errcode

def byteSize (ack : MESOfflineSummaryAck) : ℕ := Protobuf.byteSize ack.fields

def add (ack : MESOfflineSummaryAck) (total : OfflineTotal) : MESOfflineSummaryAck :=
  { ack with offlineTotals := ack.offlineTotals ++ [total] }

end MESOfflineSummaryAck

/-- `viewToOfflineMsgTotal`, if it does not throw. -/
def viewToOfflineMsgTotal (view : SummaryView) : Option OfflineTotal :=
  if view.totalCount < 2 ^ 31 ∧ view.chatCount < 2 ^ 31 then
    some
      { fromId := view.fromId
        toId := view.toId
        cmdId := view.last.cmdId
        recentMsgId := if view.last.cmdId = mesGrpchatDeliver then view.last.msgId else ""
        recenttimestamp := view.last.createTime
        unreadTotal := view.totalCount
        unreadChatCount := view.chatCount
        recentcontent := view.last.msgData.serialize }
  else none

/-- The loop of `GetUserOfflineMsgSummaryGrpByFromId`. A row is added before it is filled in. -/
def addTotals (maxLen : ℤ) : List SummaryView → MESOfflineSummaryAck → MESOfflineSummaryAck
  | [], ack => ack
  | view :: views, ack =>
    match viewToOfflineMsgTotal view with
    | none => ack.add {}
    | some total =>
      if maxLen - 2000 ≤ ((ack.add total).byteSize : ℤ) then ack.add total
      else addTotals maxLen views (ack.add total)

/-- `views` are the results of the pipeline, as far as the query gets. -/
def getUserOfflineMsgSummaryGrpByFromId (cursor : Cursor) (toId : String) (maxLen : ℤ)
    (views : List SummaryView) : MESOfflineSummaryAck :=
  addTotals maxLen (cursor.docs views) { userId := toId }

/-- The message of a group, if the query succeeds and finds one. -/
def getOneGrpOfflineMsgData (answered : Bool) (grpStore : GrpStore) (grpId msgId : String) :
    List UInt8 :=
  if answered then
    ((grpStore.find? fun doc => doc.grpId = grpId && doc.msgId = msgId).map fun doc =>
      encode doc.msgData.fields).getD []
  else []

def getContentForGrpOfflineMsg (answered : String → String → Bool) (grpStore : GrpStore)
    (ack : MESOfflineSummaryAck) : MESOfflineSummaryAck :=
  { ack with
    offlineTotals := ack.offlineTotals.map fun total =>
      if total.cmdId = mesGrpchatDeliver then
        { total with
          recentMsgId := ""
          recentcontent :=
            getOneGrpOfflineMsgData (answered total.fromId total.recentMsgId) grpStore total.fromId
              total.recentMsgId }
      else total }

def onMsgOfflineSummary (cursor : Cursor) (answered : String → String → Bool) (grpStore : GrpStore)
    (userId : String) (views : List SummaryView) : Option MESOfflineSummaryAck :=
  if userId = "" then none
  else
    some (getContentForGrpOfflineMsg answered grpStore
      (getUserOfflineMsgSummaryGrpByFromId cursor userId 65515 views))

/-- The command of the request is passed on as the length of the answer, and the pipeline has no
command. -/
def onMsgOfflineTotal (cursor : Cursor) (answered : String → String → Bool) (grpStore : GrpStore)
    (fromId toId : String) (cmdId : UInt32) (views : List SummaryView) :
    Option MESOfflineSummaryAck :=
  if fromId = "" ∨ toId = "" then none
  else
    some (getContentForGrpOfflineMsg answered grpStore
      (getUserOfflineMsgSummaryGrpByFromId cursor toId cmdId.toInt32.toInt views))

section Loop

variable {views : List SummaryView}

/-- The counts are 32-bit integers. -/
def Countable (views : List SummaryView) : Prop :=
  ∀ view ∈ views, view.totalCount < 2 ^ 31 ∧ view.chatCount < 2 ^ 31

/-- The row of a result, as it stands in the answer. -/
def SummaryView.row (view : SummaryView) : OfflineTotal := (viewToOfflineMsgTotal view).getD {}

theorem viewToOfflineMsgTotal_eq {view : SummaryView}
    (h : view.totalCount < 2 ^ 31 ∧ view.chatCount < 2 ^ 31) :
    viewToOfflineMsgTotal view = some view.row := by
  rw [SummaryView.row, viewToOfflineMsgTotal, if_pos h]
  rfl

/-- The first rows are added, and all of them unless the answer got long. -/
theorem addTotals_eq (maxLen : ℤ) (ack : MESOfflineSummaryAck) (h : Countable views) :
    ∃ k, 0 < k ∧ (addTotals maxLen views ack).offlineTotals =
        ack.offlineTotals ++ (views.take k).map SummaryView.row ∧
      (views.length ≤ k ∨ maxLen - 2000 ≤ ((addTotals maxLen views ack).byteSize : ℤ)) := by
  induction views generalizing ack with
  | nil => exact ⟨1, Nat.one_pos, (List.append_nil _).symm, .inl (Nat.zero_le _)⟩
  | cons view views ih =>
    rw [addTotals, viewToOfflineMsgTotal_eq (h view List.mem_cons_self)]
    dsimp only
    split
    · next hlong => exact ⟨1, Nat.one_pos, rfl, .inr hlong⟩
    · obtain ⟨k, -, hrows, hall⟩ := ih (ack.add view.row) fun view hview =>
        h view (List.mem_cons_of_mem _ hview)
      refine ⟨k + 1, Nat.succ_pos k, ?_, hall.imp_left Nat.succ_le_succ⟩
      rw [hrows, MESOfflineSummaryAck.add, List.take_succ_cons, List.map_cons, List.append_assoc]
      rfl

end Loop

section Pipeline

variable {toId fromId : String} {cmdId : UInt32} {store : Store} {docs : List OfflineMsg}
  {views : List SummaryView} {view : SummaryView}

/-- The entries of a sender that are counted. -/
def unread (toId fromId sender : String) (cmdId : UInt32) (store : Store) : List OfflineMsg :=
  store.filter fun doc => summaryMatch toId fromId cmdId doc && doc.fromId = sender

theorem Aggregates.group_perm (h : Aggregates toId fromId cmdId store docs views)
    (sender : String) :
    (docs.filter fun doc => doc.fromId = sender).Perm (unread toId fromId sender cmdId store) := by
  refine (h.perm.filter _).trans ?_
  rw [List.filter_filter, unread]
  simp only [Bool.and_comm]
  exact .rfl

theorem Aggregates.counts (h : Aggregates toId fromId cmdId store docs views)
    (hview : view ∈ views) :
    view.toId = toId ∧ view.totalCount = (unread toId fromId view.fromId cmdId store).length ∧
      view.chatCount =
        (unread toId fromId view.fromId cmdId store).countP OfflineMsg.isChatDeliver ∧
      (docs.filter fun doc => doc.fromId = view.fromId).getLast? = some view.last := by
  have hgroup := h.group view hview
  simp only [isGroupOf, Bool.and_eq_true, decide_eq_true_eq] at hgroup
  obtain ⟨⟨⟨hto, hchats⟩, htotal⟩, hlast⟩ := hgroup
  have hperm := h.group_perm view.fromId
  exact ⟨hto, htotal.trans hperm.length_eq, hchats.trans (hperm.countP_eq _), hlast⟩

/-- The last entry of a group is a chat if there is one. -/
theorem Aggregates.last (h : Aggregates toId fromId cmdId store docs views) (hview : view ∈ views) :
    view.last ∈ unread toId fromId view.fromId cmdId store ∧
      (0 < view.chatCount → view.last.isChatDeliver = true) := by
  obtain ⟨-, -, hchats, hlast⟩ := h.counts hview
  have hperm := h.group_perm view.fromId
  have hmem := hperm.mem_iff.mp (List.mem_of_getLast? hlast)
  refine ⟨hmem, ?_⟩
  intro hpos
  rw [hchats] at hpos
  obtain ⟨doc, hdoc, hchat⟩ := List.countP_pos_iff.mp hpos
  have hdoc' := hperm.mem_iff.mpr hdoc
  obtain ⟨init, hinit⟩ := List.getLast?_eq_some_iff.mp hlast
  have hsorted := h.sorted.filter fun doc => doc.fromId = view.fromId
  rw [hinit] at hdoc' hsorted
  obtain hbefore | hself := List.mem_append.mp hdoc'
  · have horder := (List.pairwise_append.mp hsorted).2.2 doc hbefore view.last List.mem_cons_self
    have hsame : doc.fromId = view.last.fromId := by
      simp only [unread, List.mem_filter, Bool.and_eq_true, decide_eq_true_eq] at hdoc hmem
      rw [hdoc.2.2, hmem.2.2]
    obtain hlt | ⟨-, himp⟩ := horder
    · rw [hsame] at hlt
      exact absurd hlt (String.lt_irrefl _)
    · exact himp hchat
  · obtain rfl := List.mem_singleton.mp hself
    exact hchat

theorem Aggregates.sender (h : Aggregates toId fromId cmdId store docs views) {sender : String} :
    sender ∈ views.map SummaryView.fromId ↔ sender ∈ docs.map OfflineMsg.fromId := by
  constructor
  · intro hsender
    obtain ⟨view, hview, rfl⟩ := List.mem_map.mp hsender
    obtain ⟨-, -, -, hlast⟩ := h.counts hview
    obtain ⟨hdoc, hfrom⟩ := List.mem_filter.mp (List.mem_of_getLast? hlast)
    exact List.mem_map.mpr ⟨view.last, hdoc, of_decide_eq_true hfrom⟩
  · intro hsender
    obtain ⟨doc, hdoc, rfl⟩ := List.mem_map.mp hsender
    exact h.all doc hdoc

theorem Aggregates.sum (h : Aggregates toId fromId cmdId store docs views) :
    (views.map SummaryView.totalCount).sum = store.countP (summaryMatch toId fromId cmdId) := by
  have hsenders : (views.map SummaryView.fromId).Perm (docs.map OfflineMsg.fromId).dedup := by
    refine (List.perm_ext_iff_of_nodup h.nodup (List.nodup_dedup _)).mpr ?_
    intro sender
    rw [h.sender, List.mem_dedup]
  have hcounts : views.map SummaryView.totalCount =
      (views.map SummaryView.fromId).map
        fun sender => (docs.map OfflineMsg.fromId).count sender := by
    rw [List.map_map]
    refine List.map_congr_left fun view hview => ?_
    have hgroup := h.group view hview
    simp only [isGroupOf, Bool.and_eq_true, decide_eq_true_eq] at hgroup
    rw [hgroup.1.2, Function.comp_apply, List.count_eq_countP, List.countP_map,
      List.countP_eq_length_filter]
    rfl
  rw [hcounts, (hsenders.map _).sum_eq, List.sum_map_count_dedup_eq_length, List.length_map,
    h.perm.length_eq, List.countP_eq_length_filter]

end Pipeline

section Summary

variable {toId fromId : String} {cmdId : UInt32} {store : Store} {docs : List OfflineMsg}
  {views : List SummaryView} {answered : String → String → Bool} {grpStore : GrpStore}
  {cursor : Cursor} {ack : MESOfflineSummaryAck}

/-- What a row says is so: the counts of a sender, and one of his last entries. -/
structure Tells (answered : String → String → Bool) (grpStore : GrpStore) (toId fromId : String)
    (cmdId : UInt32) (store : Store) (row : OfflineTotal) : Prop where
  user : row.toId = toId
  total : row.unreadTotal = (unread toId fromId row.fromId cmdId store).length
  chats : row.unreadChatCount =
    (unread toId fromId row.fromId cmdId store).countP OfflineMsg.isChatDeliver
  recent : ∃ doc ∈ unread toId fromId row.fromId cmdId store,
    (0 < row.unreadChatCount → doc.isChatDeliver = true) ∧ row.cmdId = doc.cmdId ∧
      row.recenttimestamp = doc.createTime ∧ row.recentMsgId = "" ∧
      row.recentcontent =
        if doc.cmdId = mesGrpchatDeliver then
          getOneGrpOfflineMsgData (answered row.fromId doc.msgId) grpStore row.fromId doc.msgId
        else doc.msgData.serialize

/-- The row of a result with the text of a group chat. -/
def SummaryView.filled (answered : String → String → Bool) (grpStore : GrpStore)
    (view : SummaryView) : OfflineTotal where
  fromId := view.fromId
  toId := view.toId
  cmdId := view.last.cmdId
  unreadTotal := view.totalCount
  unreadChatCount := view.chatCount
  recenttimestamp := view.last.createTime
  recentcontent :=
    if view.last.cmdId = mesGrpchatDeliver then
      getOneGrpOfflineMsgData (answered view.fromId view.last.msgId) grpStore view.fromId
        view.last.msgId
    else view.last.msgData.serialize

theorem Aggregates.tells (h : Aggregates toId fromId cmdId store docs views) {view : SummaryView}
    (hview : view ∈ views) :
    Tells answered grpStore toId fromId cmdId store (view.filled answered grpStore) := by
  obtain ⟨hto, htotal, hchats, -⟩ := h.counts hview
  obtain ⟨hlast, hchat⟩ := h.last hview
  exact ⟨hto, htotal, hchats, view.last, hlast, hchat, rfl, rfl, rfl, rfl⟩

theorem Aggregates.countable (h : Aggregates toId fromId cmdId store docs views)
    (hcount : store.countP (summaryMatch toId fromId cmdId) < 2 ^ 31) : Countable views := by
  intro view hview
  obtain ⟨-, htotal, hchats, -⟩ := h.counts hview
  have hle : (unread toId fromId view.fromId cmdId store).length ≤
      store.countP (summaryMatch toId fromId cmdId) := by
    rw [unread, ← List.countP_eq_length_filter]
    refine List.countP_mono_left fun doc _ hdoc => ?_
    exact (Bool.and_eq_true _ _ ▸ hdoc).1
  have hchats' := (unread toId fromId view.fromId cmdId store).countP_le_length
    (p := OfflineMsg.isChatDeliver)
  omega

/-- The rows that were added, with the text of the group chats. -/
theorem getContentForGrpOfflineMsg_rows (h : Countable views) {k : ℕ}
    (hrows : ack.offlineTotals = (views.take k).map SummaryView.row) :
    (getContentForGrpOfflineMsg answered grpStore ack).offlineTotals =
      (views.take k).map (SummaryView.filled answered grpStore) := by
  rw [getContentForGrpOfflineMsg, hrows, List.map_map]
  refine List.map_congr_left fun view hview => ?_
  have hrow := viewToOfflineMsgTotal_eq (h view (List.mem_of_mem_take hview))
  rw [viewToOfflineMsgTotal, if_pos (h view (List.mem_of_mem_take hview))] at hrow
  rw [Function.comp_apply, ← Option.some.inj hrow, SummaryView.filled]
  dsimp only
  split <;> rfl

theorem Cursor.docs_take {α : Type} (cursor : Cursor) (items : List α) :
    ∃ k, cursor.docs items = items.take k := by
  cases cursor with
  | noConn => exact ⟨0, rfl⟩
  | exception n => exact ⟨n, rfl⟩
  | success => exact ⟨items.length, (List.take_length).symm⟩

/-- The rows of an answer are those of the first results, of all if the query succeeds and the rows
are not too long, and of one in any case. -/
theorem Aggregates.rows (h : Aggregates toId fromId cmdId store docs views)
    (answered : String → String → Bool) (grpStore : GrpStore) (cursor : Cursor) (maxLen : ℤ)
    (hcount : store.countP (summaryMatch toId fromId cmdId) < 2 ^ 31) :
    ∃ k, (getContentForGrpOfflineMsg answered grpStore
        (getUserOfflineMsgSummaryGrpByFromId cursor toId maxLen views)).offlineTotals =
          (views.take k).map (SummaryView.filled answered grpStore) ∧
      (cursor = .success → (views.length ≤ 1 ∨
        ((getUserOfflineMsgSummaryGrpByFromId cursor toId maxLen views).byteSize : ℤ) <
          maxLen - 2000) → views.length ≤ k) := by
  have hcountable := h.countable hcount
  obtain ⟨j, hdocs⟩ := cursor.docs_take views
  have hread : Countable (views.take j) := fun view hview =>
    hcountable view (List.mem_of_mem_take hview)
  obtain ⟨k, hpos, hrows, hall⟩ := addTotals_eq maxLen { userId := toId } hread
  refine ⟨min k j, ?_, ?_⟩
  · refine getContentForGrpOfflineMsg_rows hcountable ?_
    rw [getUserOfflineMsgSummaryGrpByFromId, hdocs, hrows, List.take_take]
    rfl
  · rintro rfl hfits
    rw [getUserOfflineMsgSummaryGrpByFromId, hdocs] at hfits
    have hj : (views.take j).length = views.length := by rw [← hdocs]; rfl
    rw [List.length_take] at hj
    rw [List.length_take] at hall
    omega

/-- What a user is told of each sender is so, each sender comes once, and if the query succeeds and
the rows are not too long, every sender is there and the totals make up what a pull without a
day counts. -/
theorem onMsgOfflineSummary_tells (h : Aggregates toId "" 0 store docs views)
    (hcount : store.countP (summaryMatch toId "" 0) < 2 ^ 31)
    (hack : onMsgOfflineSummary cursor answered grpStore toId views = some ack) :
    (∀ row ∈ ack.offlineTotals, Tells answered grpStore toId "" 0 store row) ∧
      (ack.offlineTotals.map OfflineTotal.fromId).Nodup ∧
      (cursor = .success →
        (getUserOfflineMsgSummaryGrpByFromId cursor toId 65515 views).byteSize < 63515 →
        (∀ doc ∈ store, isPullable {} toId doc = true →
          doc.fromId ∈ ack.offlineTotals.map OfflineTotal.fromId) ∧
        (ack.offlineTotals.map OfflineTotal.unreadTotal).sum =
          getUserOfflineMsgSummaryBytoId {} toId store) := by
  obtain ⟨-, hack⟩ := Option.ite_none_left_eq_some.mp hack
  cases hack
  obtain ⟨k, hrows, hall⟩ := h.rows answered grpStore cursor 65515 hcount
  have hmatch : isPullable {} toId = summaryMatch toId "" 0 := by
    funext doc
    simp [isPullable, summaryMatch]
  rw [hrows]
  refine ⟨?_, ?_, ?_⟩
  · intro row hrow
    obtain ⟨view, hview, rfl⟩ := List.mem_map.mp hrow
    exact h.tells (List.mem_of_mem_take hview)
  · rw [List.map_map]
    exact h.nodup.sublist ((List.take_sublist k views).map _)
  · intro hsuccess hsize
    rw [List.take_of_length_le (hall hsuccess (.inr (by omega))), List.map_map, List.map_map]
    refine ⟨?_, ?_⟩
    · intro doc hdoc hpull
      rw [hmatch] at hpull
      exact h.all doc (h.perm.mem_iff.mpr (List.mem_filter.mpr ⟨hdoc, hpull⟩))
    · rw [getUserOfflineMsgSummaryBytoId, hmatch]
      exact h.sum

def aliceChat : OfflineMsg :=
  .ofChat 7 { fromId := "alice", toId := "bob", msgId := "m1", content := "hi" }

def aliceCancel : OfflineMsg :=
  .ofCancel { fromId := "alice", toId := "bob", msgId := "m0", msgTime := 8 }

def teamChat : OfflineMsg where
  msgId := "g1"
  fromId := "team"
  toId := "bob"
  cmdId := mesGrpchatDeliver
  msgData := .other ""
  createTime := 9
  isChatDeliver := true

/-- A chat and a withdrawal from one sender, and a chat of a group; what was pulled is not
counted. -/
def threeUnread : Store :=
  [aliceChat, aliceCancel, { aliceChat with msgId := "m2", bPulled := 1 }, teamChat]

def threeUnreadViews : List SummaryView :=
  [⟨"bob", "team", 1, 1, teamChat⟩, ⟨"bob", "alice", 1, 2, aliceChat⟩]

theorem aggregates_threeUnread :
    Aggregates "bob" "" 0 threeUnread [aliceCancel, aliceChat, teamChat] threeUnreadViews := by
  refine ⟨?_, ?_, ?_, ?_, ?_⟩ <;> decide +kernel

theorem onMsgOfflineSummary_tells_three :
    ∃ ack, onMsgOfflineSummary .success (fun _ _ => true) [] "bob" threeUnreadViews = some ack ∧
      (ack.offlineTotals.map OfflineTotal.fromId).Nodup ∧
      (ack.offlineTotals.map OfflineTotal.unreadTotal).sum = 3 := by
  refine ⟨_, rfl, ?_⟩
  obtain ⟨-, hnodup, hall⟩ :=
    onMsgOfflineSummary_tells aggregates_threeUnread (by decide +kernel) rfl
  exact ⟨hnodup, (hall rfl (by decide +kernel)).2⟩

/-- The command of a request for one sender limits neither what is counted nor the answer. -/
theorem onMsgOfflineTotal_tells (h : Aggregates toId fromId 0 store docs views)
    (hcount : store.countP (summaryMatch toId fromId 0) < 2 ^ 31)
    (hack : onMsgOfflineTotal cursor answered grpStore fromId toId cmdId views = some ack) :
    (∀ row ∈ ack.offlineTotals,
      row.fromId = fromId ∧ Tells answered grpStore toId fromId 0 store row) ∧
      (cursor = .success →
        (ack.offlineTotals ≠ [] ↔ ∃ doc ∈ store, summaryMatch toId fromId 0 doc = true)) := by
  obtain ⟨hnames, hack⟩ := Option.ite_none_left_eq_some.mp hack
  cases hack
  have hfrom : ∀ doc ∈ docs, doc.fromId = fromId := by
    intro doc hdoc
    have hmatch := (List.mem_filter.mp (h.perm.mem_iff.mp hdoc)).2
    simp only [summaryMatch, Bool.and_eq_true, Bool.or_eq_true, decide_eq_true_eq] at hmatch
    exact hmatch.1.1.2.resolve_left fun hempty => hnames (.inl hempty)
  have hsender : ∀ view ∈ views, view.fromId = fromId := by
    intro view hview
    obtain ⟨doc, hdoc, heq⟩ := List.mem_map.mp (h.sender.mp (List.mem_map_of_mem hview))
    rw [← heq]
    exact hfrom doc hdoc
  have hone : views.length ≤ 1 := by
    have hsenders : views.map SummaryView.fromId = List.replicate views.length fromId :=
      List.eq_replicate_iff.mpr ⟨List.length_map .., by simpa using hsender⟩
    have hnodup := h.nodup
    rwa [hsenders, List.nodup_replicate] at hnodup
  obtain ⟨k, hrows, hall⟩ := h.rows answered grpStore cursor cmdId.toInt32.toInt hcount
  rw [hrows]
  refine ⟨?_, ?_⟩
  · intro row hrow
    obtain ⟨view, hview, rfl⟩ := List.mem_map.mp hrow
    have hview := List.mem_of_mem_take hview
    exact ⟨hsender view hview, h.tells hview⟩
  · intro hsuccess
    rw [List.take_of_length_le (hall hsuccess (.inl hone)), ne_eq, List.map_eq_nil_iff]
    constructor
    · intro hviews
      obtain ⟨view, hview⟩ := List.exists_mem_of_ne_nil _ hviews
      obtain ⟨doc, hdoc, -⟩ := List.mem_map.mp (h.sender.mp (List.mem_map_of_mem hview))
      exact ⟨doc, List.mem_filter.mp (h.perm.mem_iff.mp hdoc)⟩
    · rintro ⟨doc, hdoc, hmatch⟩ rfl
      exact List.not_mem_nil (h.all doc (h.perm.mem_iff.mpr (List.mem_filter.mpr ⟨hdoc, hmatch⟩)))

end Summary

end Msg

end ImServer
