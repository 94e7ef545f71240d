import ImServer.Group.InStep

/-!
# What holds whatever is sent

Whatever the clients send, and however far the counts and the members of a group are from its
caches, the permission that is cached is that of the group, and nobody who has quit is cached as
an active member.
-/

namespace ImServer

namespace Group

/-- The permission in redis is that of the row, and nobody who has quit is cached as active. -/
structure Sound (d : GroupData) : Prop where
  permit : ∀ row ∈ d.row, ∀ permit ∈ d.cache.permit, permit = row.permission
  cached : ∀ userId status, d.memCache.lookup userId = some status → status.isActive = true →
    d.members.lookup userId ≠ some .quitMember

/-- The permission is not changed, nor cached anew. -/
structure PermitKept (d d' : GroupData) : Prop where
  row : d'.row.map GroupRow.permission = d.row.map GroupRow.permission
  cache : ∀ permit ∈ d'.cache.permit, permit ∈ d.cache.permit

section Writing

variable {d d' d'' : GroupData}

theorem PermitKept.trans (h : PermitKept d d') (h' : PermitKept d' d'') : PermitKept d d'' :=
  ⟨h'.row.trans h.row, fun permit hpermit => h.cache permit (h'.cache permit hpermit)⟩

theorem permitKept_updateGroupStatus (status : GroupStatus) (d : GroupData) :
    PermitKept d (updateGroupStatus status d) := by
  refine ⟨?_, fun _ => id⟩
  simp only [updateGroupStatus, Option.map_map]
  refine congrArg (Option.map · d.row) (funext fun row => ?_)
  simp only [Function.comp_apply]
  split
  · rfl
  · rfl

theorem permitKept_updateGroupCount (nCount : Nat) (dec : Bool) (d : GroupData) :
    PermitKept d (updateGroupCount nCount dec d) := by
  refine PermitKept.trans ⟨?_, ?_⟩ (permitKept_updateGroupStatus _ _)
  · exact Option.map_map ..
  · intro permit
    dsimp only [Redis.updateGroupCount]
    split
    · exact id
    · next count _ =>
      generalize (if dec = true then count - nCount else count + nCount) = nGroupCount
      split
      · exact nofun
      · exact id

theorem permitKept_activated (d : GroupData) : PermitKept d (activated d) :=
  (permitKept_updateGroupStatus .normalGroupstatus d).trans ⟨rfl, fun _ => id⟩

theorem permitKept_joined (d : GroupData) (userIds : List String) (status : MemberStatus) :
    PermitKept d (joined d userIds status) := by
  have hwith : PermitKept d (withMembers d userIds status) := ⟨rfl, fun _ => id⟩
  exact hwith.trans (permitKept_updateGroupCount _ _ _)

theorem permitKept_removeGroupMember (userId : String) (d : GroupData) :
    PermitKept d (removeGroupMember userId d) := by
  have hwithout : PermitKept d (withoutMember d userId) := ⟨rfl, fun _ => id⟩
  exact hwithout.trans (permitKept_updateGroupCount _ _ _)

theorem permitKept_setGroupMaster (userId involvedId : String) (d : GroupData) :
    PermitKept d (setGroupMaster userId involvedId d) :=
  ⟨Option.map_map .., fun _ => id⟩

theorem permitKept_getGrpMem (d : GroupData) (userId : String) :
    PermitKept d (getGrpMem d userId).2 := by
  obtain ⟨memCache, hframe⟩ := getGrpMem_frame d userId
  rw [hframe]
  exact ⟨rfl, fun _ => id⟩

theorem Outcome.permitKept {env : Env} {t : Task} (houtcome : Outcome env d t d')
    (hrow : d.row ≠ none) : PermitKept d d' := by
  have hthere : ∀ msg d', insertGroup env msg d ≠ some d' := by
    intro msg d' hinsert
    unfold Group.insertGroup at hinsert
    split at hinsert
    · cases hinsert
    · next hnone => exact hrow hnone
  cases houtcome with
  | same t => exact ⟨rfl, fun _ => id⟩
  | create msg d' hinsert => exact absurd hinsert (hthere msg d')
  | createInvited msg d' hinsert => exact absurd hinsert (hthere msg d')
  | apply msg => exact permitKept_joined _ _ _
  | applyFirst msg => exact (permitKept_joined _ _ _).trans (permitKept_activated _)
  | activate msg => exact permitKept_activated _
  | invite msg => exact permitKept_joined _ _ _
  | permit msg => exact permitKept_joined _ _ _
  | quit msg => exact permitKept_removeGroupMember _ _
  | kickOut msg => exact permitKept_removeGroupMember _ _
  | modify msg => exact permitKept_setGroupMaster _ _ _

theorem Sound.of_permitKept (h : Sound d) (hkept : PermitKept d d')
    (hcached : ∀ userId status, d'.memCache.lookup userId = some status → status.isActive = true →
      d'.members.lookup userId ≠ some .quitMember) : Sound d' := by
  refine ⟨?_, hcached⟩
  intro row' hrow' permit hpermit
  have hmap := hkept.row
  rw [hrow', Option.map_some] at hmap
  obtain ⟨row, hrow, heq⟩ := Option.map_eq_some_iff.mp hmap.symm
  exact (h.permit row hrow permit (hkept.cache permit hpermit)).trans heq

theorem Sound.joined (h : Sound d) (userIds : List String) {status : MemberStatus}
    (hstatus : status.isActive = true) : Sound (joined d userIds status) := by
  refine h.of_permitKept (permitKept_joined _ _ _) ?_
  intro userId status'
  simp only [Group.joined, updateGroupCount, updateGroupStatus, withMembers, Table.lookup_insertAll]
  split
  · intro _ _ hquit
    rw [Option.some.inj hquit] at hstatus
    cases hstatus
  · exact h.cached userId status'

theorem Sound.activated (h : Sound d) : Sound (activated d) :=
  h.of_permitKept (permitKept_activated d) h.cached

theorem Sound.removeGroupMember (h : Sound d) (userId : String) :
    Sound (removeGroupMember userId d) := by
  refine h.of_permitKept (permitKept_removeGroupMember _ _) ?_
  intro userId' status hlookup hactive
  obtain ⟨hne, hlookup⟩ := lookup_removeGroupMember hlookup
  simp only [Group.removeGroupMember, updateGroupCount, updateGroupStatus, Table.lookup_update,
    if_neg hne]
  exact h.cached userId' status hlookup hactive

theorem Sound.setGroupMaster (h : Sound d) (userId involvedId : String) :
    Sound (setGroupMaster userId involvedId d) := by
  refine h.of_permitKept (permitKept_setGroupMaster _ _ _) ?_
  intro userId' status
  rw [lookup_setGroupMaster, lookup_setGroupMaster_memCache]
  split
  · intro _ _
    cases d.members.lookup involvedId with
    | none => exact nofun
    | some status => exact nofun
  · split
    · intro _ _
      cases d.members.lookup userId with
      | none => exact nofun
      | some status => exact nofun
    · exact h.cached userId' status

theorem Sound.insertGroup (h : Sound d) {env : Env} {msg : GroupCreate}
    (hinsert : insertGroup env msg d = some d') : Sound d' := by
  unfold Group.insertGroup at hinsert
  split at hinsert
  · cases hinsert
  · obtain rfl := Option.some.inj hinsert
    constructor
    · intro row hrow permit hpermit
      obtain rfl := Option.some.inj hrow
      exact (Option.some.inj hpermit).symm
    · intro userId status
      simp only [insertGroupMember]
      by_cases huser : userId = msg.userId
      · rw [huser, AList.lookup_insert, AList.lookup_insert]
        exact fun _ _ => nofun
      · rw [AList.lookup_insert_ne huser, AList.lookup_insert_ne huser]
        exact h.cached userId status

theorem Sound.getGrpMem (h : Sound d) (userId : String) : Sound (getGrpMem d userId).2 := by
  obtain ⟨memCache, hframe⟩ := getGrpMem_frame d userId
  refine h.of_permitKept (permitKept_getGrpMem d userId) ?_
  intro userId' status hlookup hactive
  have hrow : (Group.getGrpMem d userId).2.members = d.members := by rw [hframe]
  rw [hrow]
  obtain hold | ⟨hnew, -⟩ := lookup_getGrpMem hlookup
  · exact h.cached userId' status hold hactive
  · intro hquit
    obtain rfl := Option.some.inj (hnew.symm.trans hquit)
    cases hactive

theorem Outcome.sound {env : Env} {t : Task} (h : Sound d) (houtcome : Outcome env d t d') :
    Sound d' := by
  cases houtcome with
  | same t => exact h
  | create msg d' hinsert => exact h.insertGroup hinsert
  | createInvited msg d' hinsert => exact (h.insertGroup hinsert).joined _ rfl
  | apply msg => exact h.joined _ rfl
  | applyFirst msg => exact (h.joined _ rfl).activated
  | activate msg => exact h.activated
  | invite msg => exact h.joined _ rfl
  | permit msg status hnormal hnot hstatus => exact h.joined _ (isActive_of_joins hstatus)
  | quit msg => exact h.removeGroupMember _
  | kickOut msg => exact h.removeGroupMember _
  | modify msg => exact h.setGroupMaster _ _

/-- The permission that is read for a group that is there is its own. -/
theorem Sound.bPermit_eq (h : Sound d) {row : GroupRow} (hrow : d.row = some row) (junk : GroupInfo) :
    (getGroupInfo junk d).bPermit = row.permission := by
  unfold getGroupInfo
  cases hredis : Redis.getGroupInfo d.cache with
  | none => simp only [Option.getD_none, hrow, mysqlGetGroupInfo]
  | some info =>
    simp only [Redis.getGroupInfo, Option.bind_eq_bind, Option.bind_eq_some_iff] at hredis
    obtain ⟨masterId, -, count, -, status, -, permit, hpermit, createTime, -, heq⟩ := hredis
    obtain rfl := Option.some.inj heq
    exact h.permit row hrow permit hpermit

end Writing

theorem Sound.apply {s : State} (h : ∀ groupId, Sound (s.data groupId)) (e : Event) :
    Sound (e.apply s) := by
  cases e with
  | task env t => exact (Event.outcome env s t).sound (h t.groupId)
  | chat env msg =>
    obtain hsame | ⟨-, hdata⟩ := onChat_data env (s.data msg.grpId) s.grpStore msg
    · exact (congrArg Sound hsame).mpr (h msg.grpId)
    · exact (congrArg Sound hdata).mpr ((h msg.grpId).getGrpMem _)
  | chatCancel msg =>
    obtain hsame | ⟨-, hdata⟩ := onChatCancel_data (s.data msg.groupId) msg
    · exact (congrArg Sound hsame).mpr (h msg.groupId)
    · exact (congrArg Sound hdata).mpr ((h msg.groupId).getGrpMem _)

end Group

end ImServer
