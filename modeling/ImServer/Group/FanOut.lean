import ImServer.Lib.Batch
import ImServer.Group.PlainIds
import ImServer.Group.SoundCache
import Mathlib.Data.List.Sort

/-!
# Who gets the chats and notifications of a group

The group server passes chats, cancels and notifications on to the message server, with the
members that are to get them in lists of at most 500 (group/groupchat.cpp,
group/groupnotify.cpp). The members come from the hash `GRPM_` in redis. When it is empty it is
filled with all active members, but the tasks put those whom they add or change into it
whether it is there or not.
-/

namespace ImServer

namespace Group

open Msg (GroupChatCancel)

structure GroupChat where
  fromId : String
  groupId : String
  notifyCount : Nat := 0
  notifyUsers : List String := []
  msgId : String
  msgTime : Nat := 0
  encrypt : Nat := 0
  content : String
  extend : String := ""
  deriving DecidableEq, Repr

structure MESGrpInterChat where
  fromId : String
  grpId : String
  toId : List String
  notifyCount : Nat
  msgId : String
  msgType : Nat := 0
  msgTime : Nat
  encrypt : Nat
  content : String
  notifyUsers : List String
  extend : String
  deriving DecidableEq, Repr

structure MESGrpInterChatCancel where
  fromId : String
  grpId : String
  toId : List String
  msgId : String
  msgTime : Nat
  cancelTime : Nat := 0
  deriving DecidableEq, Repr

inductive NotifyType where
  | unknown
  | grpInfoChanged
  | grpmemQuit
  | grpmemRemove
  | grpapplyResult
  | grpinviteResult
  | grpmasterChanged
  | grpActive
  deriving DecidableEq, Repr

structure InnerGrpNotify where
  grpId : String
  lsToId : List String := []
  msgId : String := ""
  msgTime : Nat := 0
  oprUserId : String := ""
  mnpledUserId : List String := []
  content : String := ""
  notifyType : NotifyType
  errcode : ErrCode := .nonErr
  extend : String := ""
  deriving DecidableEq, Repr

structure MESGrpInterNotify where
  grpId : String
  toId : List String
  msgId : String
  msgTime : Nat
  oprUserId : String
  mnpledUserId : List String
  content : String
  notifyType : NotifyType
  errcode : ErrCode
  extend : String
  deriving DecidableEq, Repr

def maxStoid : Nat := 500

/-- Those whom the loop over the members does not skip, in the order of their ids. -/
def toIds (grpmems : Members) (skips : String → Bool) : List String :=
  ((grpmems.entries.filter fun mem => !skips mem.1 && mem.2.isActive).map (·.1)).insertionSort (· ≤ ·)

/-- A PDU for each list of at most 500 ids. -/
def sendToMems {α : Type} (grpmems : Members) (skips : String → Bool)
    (pdu : List String → α) : List α :=
  (Batch.cut maxStoid (toIds grpmems skips) []).map pdu

def grpChatToMsg (grpmems : Members) (msg : GroupChat) : List MESGrpInterChat :=
  sendToMems grpmems (fun userId => userId = msg.fromId) fun toId =>
    { fromId := msg.fromId, grpId := msg.groupId, toId := toId, notifyCount := msg.notifyCount
      msgId := msg.msgId, msgTime := msg.msgTime, encrypt := msg.encrypt, content := msg.content
      notifyUsers := msg.notifyUsers, extend := msg.extend }

def grpChatCancelToMsg (grpmems : Members) (msg : GroupChatCancel) : List MESGrpInterChatCancel :=
  sendToMems grpmems (fun userId => userId = msg.fromId) fun toId =>
    { fromId := msg.fromId, grpId := msg.groupId, toId := toId, msgId := msg.msgId
      msgTime := msg.msgTime }

/-- The notifications that go to users who are named in them. -/
def NotifyType.isForUsers (notifyType : NotifyType) : Bool :=
  notifyType = .grpapplyResult || notifyType = .grpActive

/-- The removed users, with a status for the loop, unless they are among the members. -/
def withRemoved (grpmems : Members) (userIds : List String) : Members :=
  userIds.foldl
    (fun grpmems userId => if userId ∈ grpmems then grpmems else grpmems.insert userId .applyMember)
    grpmems

def sendNotify (now : Nat) (d : GroupData) (notify : InnerGrpNotify) :
    List MESGrpInterNotify × GroupData :=
  let notifyToMem : List String → MESGrpInterNotify := fun toId =>
    { grpId := notify.grpId, toId := toId, msgId := notify.msgId
      msgTime := if notify.msgTime = 0 then now else notify.msgTime, oprUserId := notify.oprUserId
      mnpledUserId := notify.mnpledUserId, content := notify.content
      notifyType := notify.notifyType, errcode := notify.errcode, extend := notify.extend }
  if notify.notifyType.isForUsers then
    (if notify.lsToId = [] then [] else [notifyToMem notify.lsToId], d)
  else
    let (grpmems, d) := getGrpMems d
    let grpmems :=
      if notify.notifyType = .grpmemRemove then withRemoved grpmems notify.mnpledUserId else grpmems
    (sendToMems grpmems (fun _ => false) notifyToMem, d)

section Receivers

variable {grpmems : Members} {skips : String → Bool} {userId : String}

theorem mem_toIds : userId ∈ toIds grpmems skips ↔
    skips userId = false ∧ ∃ status, grpmems.lookup userId = some status ∧ status.isActive = true := by
  simp only [toIds, List.mem_insertionSort, List.mem_map, List.mem_filter, Bool.and_eq_true,
    Bool.not_eq_true', Sigma.exists, AList.mem_lookup_iff.symm, Option.mem_def]
  constructor
  · rintro ⟨userId', status, ⟨hlookup, hskips, hactive⟩, rfl⟩
    exact ⟨hskips, status, hlookup, hactive⟩
  · rintro ⟨hskips, status, hlookup, hactive⟩
    exact ⟨userId, status, ⟨hlookup, hskips, hactive⟩, rfl⟩

theorem nodup_toIds (grpmems : Members) (skips : String → Bool) : (toIds grpmems skips).Nodup := by
  refine ((List.perm_insertionSort _ _).nodup_iff).mpr ?_
  exact (grpmems.nodupKeys.sublist List.filter_sublist)

theorem flatten_sendToMems {α : Type} (pdu : List String → α) (toId : α → List String)
    (hpdu : ∀ ids, toId (pdu ids) = ids) :
    ((sendToMems grpmems skips pdu).map toId).flatten = toIds grpmems skips := by
  simp only [sendToMems, List.map_map, Function.comp_def, hpdu, List.map_id', Batch.flatten_cut,
    List.nil_append]

end Receivers

/-- All active members but those who are left out get the message, each of them once, and nobody
who has quit does, unless he is named. The lists have at most 500 ids. -/
structure Exact (d : GroupData) (leftOut : String → Prop) (named : List String)
    (lists : List (List String)) : Prop where
  all : ∀ userId, d.IsActive userId → ¬ leftOut userId → userId ∈ lists.flatten
  once : lists.flatten.Nodup
  others : ∀ userId ∈ lists.flatten, ¬ leftOut userId
  noneQuit : ∀ userId ∈ lists.flatten, userId ∉ named → d.members.lookup userId ≠ some .quitMember
  size : ∀ toId ∈ lists, 0 < toId.length ∧ toId.length ≤ 500

/-- A member may chat. -/
def MayChat (d : GroupData) (userId : String) : Prop :=
  ∃ status, (getGrpMem d userId).1 = some status ∧ status.isActive = true

/-- The chats and cancels of members, and the notifications for all members. Those about removed
members go to them, too. -/
structure FansOut (d : GroupData) : Prop where
  chat : ∀ msg : GroupChat, MayChat d msg.fromId →
    Exact d (· = msg.fromId) []
      ((grpChatToMsg (getGrpMem d msg.fromId).2.memCache msg).map (·.toId))
  cancel : ∀ msg : GroupChatCancel, MayChat d msg.fromId →
    Exact d (· = msg.fromId) []
      ((grpChatCancelToMsg (getGrpMem d msg.fromId).2.memCache msg).map (·.toId))
  notify : ∀ now notify, notify.notifyType.isForUsers = false →
    Exact d (fun _ => False) (if notify.notifyType = .grpmemRemove then notify.mnpledUserId else [])
      ((sendNotify now d notify).1.map (·.toId))

/-- Every active member is in the hash, with a status that counts as active there too. -/
def Full (d : GroupData) (memCache : Members) : Prop :=
  ∀ userId, d.IsActive userId → ∃ status, memCache.lookup userId = some status ∧ status.isActive = true

/-- The hash is lost, or every active member is in it. -/
def Complete (d : GroupData) : Prop := d.memCache = ∅ ∨ Full d d.memCache

section FansOut

variable {d : GroupData} {grpmems : Members} {userId : String}

/-- The members that are fetched are all there if the hash is lost or complete. -/
theorem Complete.full_getGrpMems (h : Complete d) : Full d (getGrpMems d).1 := by
  unfold getGrpMems
  split
  · intro userId hactive
    obtain ⟨status, hlookup, hstatus⟩ := isActive_iff.mp hactive
    refine ⟨status, ?_, hstatus⟩
    dsimp only
    rw [Table.lookup_select, hlookup, Option.filter_some_pos hstatus]
  · next hkept =>
    refine h.resolve_left ?_
    intro hlost
    exact hkept (by rw [hlost]; rfl)

theorem Complete.full_getGrpMem (h : Complete d) (userId : String) :
    Full d (getGrpMem d userId).2.memCache := by
  have hfull := h.full_getGrpMems
  rw [← memCache_getGrpMems] at hfull
  obtain ⟨memCache, hframe⟩ := getGrpMems_frame d
  have hmems := memCache_getGrpMems d
  unfold getGrpMem
  cases hget : getGrpMems d with | mk grpmems d' =>
  rw [hget] at hframe hfull hmems
  subst hframe
  dsimp only at hfull hmems ⊢
  cases grpmems.lookup userId with
  | some status => exact hfull
  | none =>
    dsimp only
    cases hrow : d.members.lookup userId with
    | none => exact hfull
    | some status =>
      intro userId' hactive
      by_cases huser : userId' = userId
      · subst huser
        obtain ⟨status', hlookup, hstatus⟩ := isActive_iff.mp hactive
        obtain rfl := Option.some.inj (hrow.symm.trans hlookup)
        exact ⟨status, AList.lookup_insert _, hstatus⟩
      · dsimp only
        rw [AList.lookup_insert_ne huser]
        exact hfull userId' hactive

/-- Nobody who has quit is in the hash as an active member. -/
def NoneQuit (d : GroupData) (memCache : Members) : Prop :=
  ∀ userId status, memCache.lookup userId = some status → status.isActive = true →
    d.members.lookup userId ≠ some .quitMember

theorem Sound.noneQuit_getGrpMem (h : Sound d) (userId : String) :
    NoneQuit d (Group.getGrpMem d userId).2.memCache := by
  obtain ⟨memCache, hframe⟩ := getGrpMem_frame d userId
  have hcached := (h.getGrpMem userId).cached
  rw [hframe] at hcached ⊢
  exact hcached

theorem Sound.noneQuit_getGrpMems (h : Sound d) : NoneQuit d (getGrpMems d).1 := by
  intro userId status hlookup hactive hquit
  obtain hold | ⟨hrow, -⟩ := lookup_getGrpMems ((memCache_getGrpMems d).symm ▸ hlookup)
  · exact h.cached userId status hold hactive hquit
  · obtain rfl := Option.some.inj (hrow.symm.trans hquit)
    cases hactive

theorem lookup_withRemoved (grpmems : Members) (userIds : List String) (userId : String) :
    (withRemoved grpmems userIds).lookup userId =
      if grpmems.lookup userId = none ∧ userId ∈ userIds then some .applyMember
      else grpmems.lookup userId := by
  induction userIds generalizing grpmems with
  | nil => simp [withRemoved]
  | cons userId' userIds ih =>
    rw [withRemoved, List.foldl_cons, ← withRemoved, ih]
    by_cases huser : userId = userId'
    · subst huser
      cases hlookup : grpmems.lookup userId with
      | none =>
        have hnot : userId ∉ grpmems := AList.lookup_eq_none.mp hlookup
        simp [hnot]
      | some status =>
        have hmem : userId ∈ grpmems := AList.lookup_isSome.mp (hlookup ▸ rfl)
        simp [hmem, hlookup]
    · split
      · simp [huser]
      · simp [huser]

theorem Full.withRemoved (h : Full d grpmems) (userIds : List String) :
    Full d (withRemoved grpmems userIds) := by
  intro userId hactive
  obtain ⟨status, hlookup, hstatus⟩ := h userId hactive
  refine ⟨status, ?_, hstatus⟩
  rw [lookup_withRemoved, if_neg (by simp [hlookup])]
  exact hlookup

/-- Lists that are cut from the members are exact if all active ones are there, and only named
ones beside them. -/
theorem exact_sendToMems {α : Type} {leftOut : String → Bool} {named : List String}
    (hfull : Full d grpmems)
    (hquit : ∀ userId status, grpmems.lookup userId = some status → status.isActive = true →
      userId ∉ named → d.members.lookup userId ≠ some .quitMember)
    (pdu : List String → α) (toId : α → List String) (hpdu : ∀ ids, toId (pdu ids) = ids) :
    Exact d (fun userId => leftOut userId = true) named ((sendToMems grpmems leftOut pdu).map toId) := by
  have hflatten : ((sendToMems grpmems leftOut pdu).map toId).flatten = toIds grpmems leftOut :=
    flatten_sendToMems pdu toId hpdu
  constructor
  · intro userId hactive hkept
    rw [hflatten]
    exact mem_toIds.mpr ⟨Bool.eq_false_iff.mpr hkept, hfull userId hactive⟩
  · rw [hflatten]
    exact nodup_toIds grpmems leftOut
  · intro userId huser
    rw [hflatten] at huser
    exact Bool.eq_false_iff.mp (mem_toIds.mp huser).1
  · intro userId huser hnamed
    rw [hflatten] at huser
    obtain ⟨-, status, hlookup, hactive⟩ := mem_toIds.mp huser
    exact hquit userId status hlookup hactive hnamed
  · intro ids hids
    simp only [sendToMems, List.map_map, Function.comp_def, hpdu, List.map_id'] at hids
    exact Batch.length_of_mem_cut (by decide) hids

/-- In a group whose hash is lost or complete, everything reaches whom it should. -/
theorem Complete.fansOut (h : Complete d) (hsound : Sound d) : FansOut d := by
  have hchat : ∀ (userId : String) {α : Type} (pdu : List String → α) (toId : α → List String),
      (∀ ids, toId (pdu ids) = ids) → Exact d (· = userId) []
        ((sendToMems (getGrpMem d userId).2.memCache (· = userId) pdu).map toId) := by
    intro userId α pdu toId hpdu
    have hexact : Exact d (fun userId' => decide (userId' = userId) = true) []
        ((sendToMems (getGrpMem d userId).2.memCache (· = userId) pdu).map toId) := by
      refine exact_sendToMems (h.full_getGrpMem userId) ?_ pdu toId hpdu
      intro userId' status hlookup hactive _
      exact hsound.noneQuit_getGrpMem userId userId' status hlookup hactive
    simpa only [decide_eq_true_eq] using hexact
  constructor
  · intro msg _
    exact hchat msg.fromId _ MESGrpInterChat.toId fun _ => rfl
  · intro msg _
    exact hchat msg.fromId _ MESGrpInterChatCancel.toId fun _ => rfl
  · intro now notify hall
    have hmems := h.full_getGrpMems
    have hquit := hsound.noneQuit_getGrpMems
    simp only [sendNotify, hall, Bool.false_eq_true, if_false]
    have hnone : ∀ {leftOut : String → Prop} {named lists}, Exact d leftOut named lists →
        (∀ userId, ¬ leftOut userId) → Exact d (fun _ => False) named lists := by
      intro leftOut named lists hexact hnot
      exact ⟨fun userId hactive _ => hexact.all userId hactive (hnot userId), hexact.once,
        fun _ _ => id, hexact.noneQuit, hexact.size⟩
    split
    · refine hnone (exact_sendToMems (hmems.withRemoved _) ?_ _ _ fun _ => rfl) (by simp)
      intro userId status hlookup hactive hnamed
      rw [lookup_withRemoved, if_neg fun hinserted => hnamed hinserted.2] at hlookup
      exact hquit userId status hlookup hactive
    · refine hnone (exact_sendToMems hmems ?_ _ _ fun _ => rfl) (by simp)
      exact fun userId status hlookup hactive _ => hquit userId status hlookup hactive

end FansOut

/-- Whom a task puts into the hash first, when it has checked its request. -/
def Task.writes (env : Env) (number : Nat) (d : GroupData) : Task → List String
  | create msg =>
    if msg.inviteUserIds.length ≤ maxGroupmember ∧
        (∃ userCache ∈ env.userInfo msg.userId, number % 2 ^ 16 < userCache.nGroupLimit) ∧
        d.row = none then
      [msg.userId]
    else []
  | apply msg =>
    if verifyGroupApplyAuth env d msg.userId msg.applyType (getGroupInfo (env.junk 0) d) = .nonErr ∧
        env.userInfo msg.userId ≠ none ∧ mayJoin d msg.userId ∧
        (getGroupInfo (env.junk 1) d).bPermit = 0 then
      [msg.userId]
    else []
  | invite msg =>
    if verifyGroupInviteAuth (getGroupInfo (env.junk 0) d) msg.inviteeIds.length = .nonErr ∧
        env.userInfo msg.inviterId ≠ none then
      joining (parseInviteeList env d msg.inviteeIds)
    else []
  | permit msg =>
    if (getGroupInfo (env.junk 0) d).bStatus = .normalGroupstatus ∧
        ((isMember d msg.userId).1 = .errGroupMembernonexist ∨
          (isMember d msg.userId).2 = some .quitMember) then
      [msg.userId]
    else []
  | modify msg =>
    if isMaster d msg.userId = .errGroupMaster ∧ (isMember d msg.userId).1 = .errGroupMemberexist ∧
        (isMember d msg.userId).2 ≠ some .quitMember then
      [msg.userId, msg.involvedId]
    else []
  | quit _ | kickOut _ => []

/-- Beside the requests, the hash may get lost, and notifications are sent. -/
inductive FanOutEvent where
  | request (e : Event)
  | lose (groupId : String)
  | notify (now : Nat) (msg : InnerGrpNotify)

namespace FanOutEvent

def groupId : FanOutEvent → String
  | request e => e.groupId
  | lose groupId => groupId
  | notify _ msg => msg.grpId

/-- The data of the group of an event, after it. -/
def apply (s : State) : FanOutEvent → GroupData
  | request e => e.apply s
  | lose groupId => { s.data groupId with memCache := ∅ }
  | notify now msg => (sendNotify now (s.data msg.grpId) msg).2

def step (s : State) : FanOutEvent → Option State
  | request e => s.step e
  | e => some { s with data := Function.update s.data e.groupId (e.apply s) }

/-- The ids and texts of the event are plain. -/
def Plain : FanOutEvent → Prop
  | request e => e.Plain
  | lose _ => True
  | notify _ msg => Sql.NulFree msg.grpId

instance : (e : FanOutEvent) → Decidable e.Plain
  | request e => inferInstanceAs (Decidable e.Plain)
  | lose _ => .isTrue trivial
  | notify _ msg => inferInstanceAs (Decidable (Sql.NulFree msg.grpId))

/-- A task finds the hash there, or puts all active members into it. -/
def FindsHash (s : State) : FanOutEvent → Prop
  | request (.task env t) =>
    let d := s.data t.groupId
    let written := t.writes env (groupNumber env s t.creator) d
    t.checks = true → d.memCache = ∅ → written ≠ [] → ∀ userId, d.IsActive userId → userId ∈ written
  | _ => True

theorem active_subset_iff {d : GroupData} {written : List String} :
    (∀ mem ∈ d.members.entries, mem.2.isActive = true → mem.1 ∈ written) ↔
      ∀ userId, d.IsActive userId → userId ∈ written := by
  simp only [isActive_iff, AList.mem_lookup_iff.symm, Sigma.forall, Option.mem_def]
  constructor
  · rintro h userId ⟨status, hlookup, hactive⟩
    exact h userId status hlookup hactive
  · intro h userId status hlookup hactive
    exact h userId ⟨status, hlookup, hactive⟩

instance activeSubset.decidable (d : GroupData) (written : List String) :
    Decidable (∀ userId, d.IsActive userId → userId ∈ written) := decidable_of_iff _ active_subset_iff

instance empty.decidable (d : GroupData) : Decidable (d.memCache = ∅) :=
  decidable_of_iff (d.memCache.entries = (∅ : Members).entries) AList.ext_iff.symm

instance FindsHash.decidable (s : State) : (e : FanOutEvent) → Decidable (e.FindsHash s)
  | request (.task ..) => inferInstanceAs (Decidable (_ → _ → _ → ∀ _, _ → _))
  | request (.chat ..) | request (.chatCancel _) | lose _ | notify .. => .isTrue trivial

/-- An event after which the fan-out still finds its members: its ids and texts are plain, and it
finds the hash if it needs it. -/
def good (s : State) (e : FanOutEvent) : Prop := e.Plain ∧ e.FindsHash s

instance good.decidable (s : State) (e : FanOutEvent) : Decidable (e.good s) :=
  inferInstanceAs (Decidable (_ ∧ _))

end FanOutEvent

section Runs

variable {d d' : GroupData}

theorem Complete.of_members (h : Complete d) (hmembers : d'.members = d.members)
    (hcache : d'.memCache = d.memCache) : Complete d' := by
  simpa only [Complete, Full, GroupData.IsActive, hmembers, hcache] using h

/-- Users who are put into the table and the hash; if it was lost, all active ones are among them. -/
theorem Complete.withMembers (h : Complete d) {userIds : List String} {status : MemberStatus}
    (hstatus : status.isActive = true)
    (hall : d.memCache = ∅ → userIds ≠ [] → ∀ userId, d.IsActive userId → userId ∈ userIds) :
    Complete (withMembers d userIds status) := by
  by_cases hnone : userIds = []
  · subst hnone
    exact h
  · refine .inr ?_
    intro userId hactive
    obtain ⟨status', hlookup, hactive⟩ := isActive_iff.mp hactive
    simp only [Group.withMembers, Table.lookup_insertAll] at hlookup ⊢
    split
    · exact ⟨status, rfl, hstatus⟩
    · next hnot =>
      rw [if_neg hnot] at hlookup
      have hbefore : d.IsActive userId := isActive_iff.mpr ⟨status', hlookup, hactive⟩
      obtain hlost | hfull := h
      · exact absurd (hall hlost hnone userId hbefore) hnot
      · exact hfull userId hbefore

theorem Complete.joined (h : Complete d) {userIds : List String} {status : MemberStatus}
    (hstatus : status.isActive = true)
    (hall : d.memCache = ∅ → userIds ≠ [] → ∀ userId, d.IsActive userId → userId ∈ userIds) :
    Complete (joined d userIds status) :=
  (h.withMembers hstatus hall).of_members rfl rfl

theorem Complete.removeGroupMember (h : Complete d) (userId : String) :
    Complete (removeGroupMember userId d) := by
  by_cases hlast : d.memCache.entries.length ≤ 1
  · exact .inl (if_pos hlast)
  · refine .inr ?_
    intro userId' hactive
    obtain ⟨status, hlookup, hstatus⟩ := isActive_iff.mp hactive
    rw [lookup_removed] at hlookup
    have hcache : (Group.removeGroupMember userId d).memCache = d.memCache.erase userId := if_neg hlast
    split at hlookup
    · obtain ⟨old, -, rfl⟩ := Option.map_eq_some_iff.mp hlookup
      cases hstatus
    · next hne =>
      have hfull : Full d d.memCache := by
        refine h.resolve_left fun hlost => hlast ?_
        rw [hlost]
        exact Nat.zero_le 1
      rw [hcache, AList.lookup_erase_ne hne]
      exact hfull userId' (isActive_iff.mpr ⟨status, hlookup, hstatus⟩)

theorem Complete.setGroupMaster (h : Complete d) {userId involvedId : String}
    (hall : d.memCache = ∅ → ∀ userId', d.IsActive userId' → userId' ∈ [userId, involvedId]) :
    Complete (setGroupMaster userId involvedId d) := by
  refine .inr ?_
  intro userId' hactive
  obtain ⟨status, hlookup, hstatus⟩ := isActive_iff.mp hactive
  rw [lookup_setGroupMaster] at hlookup
  rw [lookup_setGroupMaster_memCache]
  split
  · exact ⟨_, rfl, rfl⟩
  · next hinv =>
    rw [if_neg hinv] at hlookup
    split
    · exact ⟨_, rfl, rfl⟩
    · next huser =>
      rw [if_neg huser] at hlookup
      have hbefore : d.IsActive userId' := isActive_iff.mpr ⟨status, hlookup, hstatus⟩
      obtain hlost | hfull := h
      · have hmem := hall hlost userId' hbefore
        simp only [List.mem_cons, huser, hinv, List.not_mem_nil, or_self] at hmem
      · exact hfull userId' hbefore

theorem Complete.getGrpMem (h : Complete d) (userId : String) : Complete (getGrpMem d userId).2 := by
  have hfull := h.full_getGrpMem userId
  obtain ⟨memCache, hframe⟩ := getGrpMem_frame d userId
  rw [hframe] at hfull ⊢
  exact .inr hfull

theorem Complete.insertGroup (h : Complete d) {env : Env} {msg : GroupCreate}
    (hall : d.memCache = ∅ → ∀ userId, d.IsActive userId → userId ∈ [msg.userId])
    (hinsert : insertGroup env msg d = some d') : Complete d' := by
  simp only [Group.insertGroup] at hinsert
  split at hinsert
  · cases hinsert
  · obtain rfl := Option.some.inj hinsert
    have hwith : Complete (Group.withMembers d [msg.userId] .masterMember) :=
      h.withMembers rfl fun hlost _ => hall hlost
    exact hwith.of_members rfl rfl

theorem memCache_ne_of_insertGroup {env : Env} {msg : GroupCreate}
    (hinsert : insertGroup env msg d = some d') : d'.memCache ≠ ∅ := by
  intro hlost
  simp only [insertGroup] at hinsert
  split at hinsert
  · cases hinsert
  · obtain rfl := Option.some.inj hinsert
    have hlookup : (d.memCache.insert msg.userId MemberStatus.masterMember).lookup msg.userId = none :=
      congrArg (AList.lookup msg.userId) hlost
    rw [AList.lookup_insert] at hlookup
    cases hlookup

/-- A task keeps the hash complete if it does not begin a new one beside other active members. -/
theorem Complete.run (h : Complete d) {env : Env} {number : Nat} {t : Task}
    (hall : d.memCache = ∅ → t.writes env number d ≠ [] →
      ∀ userId, d.IsActive userId → userId ∈ t.writes env number d) :
    Complete (t.run env number d).data := by
  cases t with
  | create msg =>
    simp only [Task.run, createGroupProc]
    split
    · exact h
    · next hsize =>
      cases huser : env.userInfo msg.userId with
      | none => exact h
      | some userCache =>
        dsimp only
        split
        · exact h
        · next hlimit =>
          cases hinsert : Group.insertGroup env msg d with
          | none => exact h
          | some d' =>
            have hwrites : (Task.create msg).writes env number d = [msg.userId] := by
              refine if_pos ⟨Nat.le_of_not_lt hsize, ⟨userCache, huser, ?_⟩, ?_⟩
              · exact Nat.lt_of_not_le hlimit
              · cases hrow : d.row with
                | none => rfl
                | some row => simp [Group.insertGroup, hrow] at hinsert
            rw [hwrites] at hall
            have hnew :=
              h.insertGroup (fun hlost => hall hlost (List.cons_ne_nil _ _)) hinsert
            dsimp only
            split
            · obtain hsame | hjoined := insertMultiGroupMember_cases
                (parseInviteeList env d' msg.inviteUserIds) .inviteMember d'
              · simp only [hsame]
                exact hnew
              · simp only [hjoined]
                exact hnew.joined rfl fun hlost =>
                  absurd hlost (memCache_ne_of_insertGroup hinsert)
            · exact hnew
  | apply msg =>
    by_cases huser : env.userInfo msg.userId = none
    · have hsame : (applyGroup env msg d).data = d := by
        simp only [applyGroup, huser, if_true]
        split
        · rfl
        · rfl
      rwa [Task.run, hsame]
    · have hjoined : (Task.apply msg).writes env number d = [msg.userId] →
          Complete (Group.joined d [msg.userId] .applyMember) := by
        intro hwrites
        exact h.joined rfl (hwrites ▸ hall)
      have houtcome := applyGroup_outcome env d msg
      rw [Task.run]
      generalize (applyGroup env msg d).data = d' at houtcome ⊢
      cases houtcome with
      | same => exact h
      | apply _ hauth hmay hpermit => exact hjoined (if_pos ⟨hauth, huser, hmay, hpermit⟩)
      | applyFirst _ hauth hmay hpermit hdeposit =>
        exact (hjoined (if_pos ⟨hauth, huser, hmay, hpermit⟩)).of_members rfl rfl
      | activate _ hauth hdeposit => exact h.of_members rfl rfl
  | invite msg =>
    by_cases huser : env.userInfo msg.inviterId = none
    · have hsame : (inviteGroup env msg d).data = d := by
        simp only [inviteGroup, huser, if_true]
        split
        · rfl
        · rfl
      rwa [Task.run, hsame]
    · have houtcome := inviteGroup_outcome env d msg
      rw [Task.run]
      generalize (inviteGroup env msg d).data = d' at houtcome ⊢
      cases houtcome with
      | same => exact h
      | invite _ hauth =>
        have hwrites : (Task.invite msg).writes env number d =
            joining (parseInviteeList env d msg.inviteeIds) := if_pos ⟨hauth, huser⟩
        exact h.joined rfl (hwrites ▸ hall)
  | permit msg =>
    have houtcome := joinDirectlyGroupProc_outcome env d msg
    rw [Task.run]
    generalize (joinDirectlyGroupProc env msg d).data = d' at houtcome ⊢
    cases houtcome with
    | same => exact h
    | permit _ status hnormal hnot hstatus =>
      have hwrites : (Task.permit msg).writes env number d = [msg.userId] := if_pos ⟨hnormal, hnot⟩
      exact h.joined (isActive_of_joins hstatus) (hwrites ▸ hall)
  | quit msg =>
    have houtcome := quitGroup_outcome env d msg
    rw [Task.run]
    generalize (quitGroup env msg d).data = d' at houtcome ⊢
    cases houtcome with
    | same => exact h
    | quit _ hmember hnormal hmaster => exact h.removeGroupMember msg.userId
  | kickOut msg =>
    have houtcome := kickoutGroup_outcome env d msg
    rw [Task.run]
    generalize (kickoutGroup msg d).data = d' at houtcome ⊢
    cases houtcome with
    | same => exact h
    | kickOut _ hmember hmaster => exact h.removeGroupMember msg.kickId
  | modify msg =>
    have houtcome := modifyGroupMaster_outcome env d msg
    rw [Task.run]
    generalize (modifyGroupMaster msg d).data = d' at houtcome ⊢
    cases houtcome with
    | same => exact h
    | modify _ hmaster hmember hquit =>
      have hwrites : (Task.modify msg).writes env number d = [msg.userId, msg.involvedId] :=
        if_pos ⟨hmaster, hmember, hquit⟩
      rw [hwrites] at hall
      exact h.setGroupMaster fun hlost => hall hlost (List.cons_ne_nil _ _)

theorem data_sendNotify (now : Nat) (d : GroupData) (msg : InnerGrpNotify) :
    (sendNotify now d msg).2 = d ∨ (sendNotify now d msg).2 = (getGrpMems d).2 := by
  simp only [sendNotify]
  split
  · exact .inl rfl
  · exact .inr rfl

/-- Events that find the hash keep the group that they are about sound and complete. -/
theorem complete_apply {s : State} (h : ∀ groupId, Sound (s.data groupId) ∧ Complete (s.data groupId))
    {e : FanOutEvent} (hfinds : e.FindsHash s) : Sound (e.apply s) ∧ Complete (e.apply s) := by
  have hsound : ∀ groupId, Sound (s.data groupId) := fun groupId => (h groupId).1
  cases e with
  | request e =>
    refine ⟨Sound.apply hsound e, ?_⟩
    cases e with
    | task env t =>
      simp only [FanOutEvent.apply, Event.apply, State.runTask]
      split
      · next hchecks => exact (h t.groupId).2.run (hfinds hchecks)
      · exact (h t.groupId).2
    | chat env msg =>
      obtain hsame | ⟨-, hdata⟩ := onChat_data env (s.data msg.grpId) s.grpStore msg
      · exact (congrArg Complete hsame).mpr (h msg.grpId).2
      · exact (congrArg Complete hdata).mpr ((h msg.grpId).2.getGrpMem _)
    | chatCancel msg =>
      obtain hsame | ⟨-, hdata⟩ := onChatCancel_data (s.data msg.groupId) msg
      · exact (congrArg Complete hsame).mpr (h msg.groupId).2
      · exact (congrArg Complete hdata).mpr ((h msg.groupId).2.getGrpMem _)
  | lose groupId =>
    refine ⟨⟨(hsound groupId).permit, ?_⟩, .inl rfl⟩
    intro userId status hlookup
    cases hlookup
  | notify now msg =>
    obtain hsame | hmems := data_sendNotify now (s.data msg.grpId) msg
    · simp only [FanOutEvent.apply, hsame]
      exact h msg.grpId
    · simp only [FanOutEvent.apply, hmems]
      obtain ⟨memCache, hframe⟩ := getGrpMems_frame (s.data msg.grpId)
      have hcache := memCache_getGrpMems (s.data msg.grpId)
      have hquit := (hsound msg.grpId).noneQuit_getGrpMems
      have hfull := (h msg.grpId).2.full_getGrpMems
      rw [← hcache, hframe] at hquit hfull
      rw [hframe]
      exact ⟨⟨(hsound msg.grpId).permit, hquit⟩, .inr hfull⟩

theorem FanOutEvent.forall_step {p : GroupData → Prop} {s s' : State} {e : FanOutEvent}
    (hbefore : ∀ groupId, p (s.data groupId)) (hafter : p (e.apply s)) (hstep : e.step s = some s') :
    ∀ groupId, p (s'.data groupId) := by
  have hupdate : ∀ groupId, p (Function.update s.data e.groupId (e.apply s) groupId) := by
    intro groupId
    by_cases hgroup : groupId = e.groupId
    · subst hgroup
      rwa [Function.update_self]
    · rw [Function.update_of_ne hgroup]
      exact hbefore groupId
  cases e with
  | request e => exact State.forall_step hbefore hafter hstep
  | lose groupId =>
    obtain rfl := Option.some.inj hstep
    exact hupdate
  | notify now msg =>
    obtain rfl := Option.some.inj hstep
    exact hupdate

end Runs

/-- As long as ids are plain and no task begins a new hash beside active members that are not in
it, the chats, cancels and notifications of every group reach whom they should, whatever is lost. -/
theorem fans_out {s : State}
    (h : Run.Reaches FanOutEvent.step FanOutEvent.good {} s) :
    ∀ groupId, FansOut (s.data groupId) := by
  suffices hboth : ∀ groupId, Sound (s.data groupId) ∧ Complete (s.data groupId) from
    fun groupId => (hboth groupId).2.fansOut (hboth groupId).1
  refine Run.Reaches.invariant
    (fun s => ∀ groupId, Sound (s.data groupId) ∧ Complete (s.data groupId)) ?_ ?_ h
  · intro groupId
    refine ⟨⟨?_, ?_⟩, .inl rfl⟩
    · intro row hrow
      cases hrow
    · intro userId status hlookup
      cases hlookup
  · intro s e s' hboth hgood hstep
    exact FanOutEvent.forall_step (p := fun d => Sound d ∧ Complete d) hboth
      (complete_apply hboth hgood.2) hstep

/-- Ann makes a group with Bob and the hash is lost. Bob's chat fills it before Carl applies. -/
def refilledRun : List FanOutEvent :=
  [.request (.task {} (.create { userId := "ann", groupId := grp, inviteUserIds := ["bob"] })),
    .lose grp, .request (.chat {} ⟨"bob", grp, "1", "hi", 0⟩),
    .request (.task {} (.apply { userId := "carl", groupId := grp }))]

theorem fans_out_refilled :
    ∃ s, Run.run FanOutEvent.step {} refilledRun = some s ∧
      (s.data grp).active = 3 ∧ FansOut (s.data grp) := by
  have hrun : (Run.runGood FanOutEvent.step FanOutEvent.good {} refilledRun).map
      (fun s => (s.data grp).active) = some 3 := by
    decide +kernel
  obtain ⟨s, hgood, hactive⟩ := Option.map_eq_some_iff.mp hrun
  exact ⟨s, Run.run_of_runGood hgood, hactive, fans_out (Run.reaches_of_runGood hgood) grp⟩

/-- Carl applies while the hash is lost, and is alone in it. -/
def lostRun : List FanOutEvent :=
  [.request (.task {} (.create { userId := "ann", groupId := grp, inviteUserIds := ["bob"] })),
    .lose grp, .request (.task {} (.apply { userId := "carl", groupId := grp }))]

theorem not_fans_out :
    ∃ s, Run.run FanOutEvent.step {} lostRun = some s ∧ ¬ FansOut (s.data grp) := by
  have hrun : (Run.run FanOutEvent.step {} lostRun).map (fun s =>
      (decide ((s.data grp).IsActive "ann"), toIds (getGrpMems (s.data grp)).1 fun _ => false)) =
        some (true, ["carl"]) := by
    decide +kernel
  obtain ⟨s, hrun, heq⟩ := Option.map_eq_some_iff.mp hrun
  obtain ⟨hactive, hcarl⟩ := Prod.mk.inj heq
  refine ⟨s, hrun, ?_⟩
  intro hfans
  have hann := (hfans.notify 0 { grpId := grp, notifyType := .grpInfoChanged } rfl).all "ann"
    (of_decide_eq_true hactive) id
  have hflatten : ((sendNotify 0 (s.data grp) { grpId := grp, notifyType := .grpInfoChanged }).1.map
      (·.toId)).flatten = toIds (getGrpMems (s.data grp)).1 fun _ => false :=
    flatten_sendToMems _ _ fun _ => rfl
  rw [hflatten, hcarl] at hann
  exact absurd hann (by decide)

end Group

end ImServer
