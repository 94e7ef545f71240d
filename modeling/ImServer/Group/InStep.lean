import ImServer.Group.TaskOutcomes

/-!
# Groups in step with their caches

As long as no former member is cached, the hashes of a group in redis are images of its rows:
the count that is added to is the count that is taken anew, and whoever is cached as a member is
one. Here is what that gives for reading, and which changes of the members keep it so.
-/

namespace ImServer

namespace Group

/-- What redis has of a group: nothing once it has no members. -/
def GroupRow.cache (row : GroupRow) : GroupCache :=
  if row.count = 0 then {}
  else ⟨some row.masterId, some row.count, some row.status, some row.permission, some row.createTime⟩

def GroupRow.info (row : GroupRow) : GroupInfo :=
  ⟨row.masterId, row.count, row.status, row.permission, row.createTime⟩

/-- Whoever is cached is an active member, with his status. -/
def Cached (d : GroupData) : Prop :=
  ∀ userId status, d.memCache.lookup userId = some status →
    status.isActive = true ∧ d.members.lookup userId = some status

structure InStep (d : GroupData) (row : GroupRow) : Prop where
  stored : d.row = some row
  count : row.count = d.active
  bound : d.active < 2 ^ 16
  cache : d.cache = row.cache
  dismissed : row.count = 0 → row.status = .dismissGroupstatus
  cached : Cached d

/-- A group that is in step and of which `p` holds, or none. -/
def Synced (p : GroupData → GroupRow → Prop) (d : GroupData) : Prop :=
  d = {} ∨ ∃ row, InStep d row ∧ p d row

section Reading

variable {d : GroupData} {row : GroupRow} {userId : String}

theorem InStep.getGroupInfo (h : InStep d row) (junk : GroupInfo) :
    getGroupInfo junk d = row.info := by
  have hcount : row.count % 2 ^ 16 = row.count := Nat.mod_eq_of_lt (h.count ▸ h.bound)
  rw [Group.getGroupInfo, h.cache, GroupRow.cache]
  split
  · simp only [Redis.getGroupInfo, mysqlGetGroupInfo, h.stored, hcount]
    rfl
  · simp only [Redis.getGroupInfo, Option.bind_eq_bind, Option.bind_some, hcount]
    rfl

theorem InStep.isMaster (h : InStep d row) :
    isMaster d userId = .errGroupMaster ↔ userId = row.masterId := by
  unfold Group.isMaster
  rw [h.getGroupInfo]
  split
  · next heq => exact iff_of_true rfl heq
  · next hne => exact iff_of_false (by decide) hne

theorem isMember_of_cached (h : Cached d) :
    ((isMember d userId).1 = .errGroupMemberexist ↔ d.IsActive userId) ∧
      (mayJoin d userId = true ↔ ¬ d.IsActive userId) ∧
      ((isMember d userId).2 = some .quitMember → ¬ d.IsActive userId) := by
  unfold mayJoin GroupData.IsActive isMember
  cases hcache : d.memCache.lookup userId with
  | none =>
    cases d.members.lookup userId with
    | none => simp
    | some status => cases status <;> simp [MemberStatus.isActive]
  | some status =>
    obtain ⟨hactive, hrow⟩ := h userId status hcache
    rw [hrow]
    cases status with
    | quitMember => cases hactive
    | _ => simp [MemberStatus.isActive]

end Reading

section Writing

variable {d : GroupData} {row : GroupRow}

/-- The counts stay in step if what is added to the one is how the other has changed. -/
theorem InStep.updateGroupCount (nCount : Nat) (dec : Bool) (hrow : d.row = some row)
    (hcache : d.cache = row.cache) (hpos : row.count ≠ 0) (hcached : Cached d)
    (hbound : d.active < 2 ^ 16)
    (hcount : (if dec then row.count - nCount else row.count + nCount) = d.active) :
    InStep (updateGroupCount nCount dec d)
      { row with
        count := d.active
        status := if d.active = 0 then .dismissGroupstatus else row.status } := by
  have hmod : d.active % 2 ^ 16 = d.active := Nat.mod_eq_of_lt hbound
  constructor
  · simp only [Group.updateGroupCount, updateGroupStatus, hrow, Option.map_some, hmod]
    by_cases hzero : d.active = 0
    · simp [hzero]
    · simp [hzero]
  · rfl
  · exact hbound
  · simp only [Group.updateGroupCount, updateGroupStatus, Redis.updateGroupCount, hcache,
      GroupRow.cache, if_neg hpos, hcount]
    by_cases hzero : d.active = 0
    · simp [hzero]
    · simp [hzero]
  · intro hzero
    exact if_pos hzero
  · exact hcached

theorem Cached.withMembers (h : Cached d) (userIds : List String) {status : MemberStatus}
    (hstatus : status.isActive = true) : Cached (withMembers d userIds status) := by
  intro userId status' hlookup
  simp only [Group.withMembers, Table.lookup_insertAll] at hlookup ⊢
  split at hlookup
  · next hmem =>
    obtain rfl := Option.some.inj hlookup
    exact ⟨hstatus, if_pos hmem⟩
  · next hmem =>
    rw [if_neg hmem]
    exact h userId status' hlookup

theorem active_withMembers {userIds : List String} {status : MemberStatus} (hnodup : userIds.Nodup)
    (hstatus : status.isActive = true) (hnew : ∀ userId ∈ userIds, ¬ d.IsActive userId) :
    (withMembers d userIds status).active = d.active + userIds.length :=
  Table.count_insertAll hnodup hstatus fun userId hmem => Bool.eq_false_iff.mpr (hnew userId hmem)

theorem InStep.join (h : InStep d row) {userIds : List String} {status : MemberStatus}
    (hnodup : userIds.Nodup) (hstatus : status.isActive = true)
    (hnew : ∀ userId ∈ userIds, ¬ d.IsActive userId) (hpos : row.count ≠ 0)
    (hbound : d.active + userIds.length < 2 ^ 16) :
    InStep (Group.updateGroupCount userIds.length false (withMembers d userIds status))
      { row with count := row.count + userIds.length } := by
  have hactive := active_withMembers hnodup hstatus hnew
  have hstep := InStep.updateGroupCount (d := withMembers d userIds status) userIds.length false
    h.stored h.cache hpos (h.cached.withMembers userIds hstatus) (by rw [hactive]; exact hbound)
    (by rw [hactive, h.count]; rfl)
  have hne : d.active + userIds.length ≠ 0 := by
    rw [← h.count]
    omega
  rwa [hactive, if_neg hne, ← h.count] at hstep

/-- A change of the status in the table counts by whether the old and the new one are active. -/
theorem count_update {userId : String} {old : MemberStatus} (members : Members)
    (h : members.lookup userId = some old) (new : MemberStatus) :
    Table.count MemberStatus.isActive (members.update userId new) +
        (if old.isActive then 1 else 0) =
      Table.count MemberStatus.isActive members + if new.isActive then 1 else 0 := by
  rw [Table.update_of_lookup h]
  have hcount := Table.count_insert MemberStatus.isActive members userId new
  rwa [h, Option.any_some] at hcount

theorem isActive_iff {userId : String} :
    d.IsActive userId ↔ ∃ status, d.members.lookup userId = some status ∧ status.isActive = true := by
  unfold GroupData.IsActive
  cases d.members.lookup userId with
  | none => simp
  | some status => simp

theorem count_pos_of_isActive {userId : String} (h : d.IsActive userId) : 0 < d.active := by
  obtain ⟨status, hlookup, hactive⟩ := isActive_iff.mp h
  exact Table.count_pos hlookup hactive

theorem lookup_removeGroupMember {memCache : Members} {userId userId' : String} {status : MemberStatus}
    (h : (Redis.removeGroupMember userId memCache).lookup userId' = some status) :
    userId' ≠ userId ∧ memCache.lookup userId' = some status := by
  unfold Redis.removeGroupMember at h
  split at h
  · cases h
  · by_cases heq : userId' = userId
    · subst heq
      rw [AList.lookup_erase] at h
      cases h
    · rw [AList.lookup_erase_ne heq] at h
      exact ⟨heq, h⟩

/-- The data after a member has been removed from the table and from redis. -/
def withoutMember (d : GroupData) (userId : String) : GroupData :=
  { d with
    members := d.members.update userId .quitMember
    memCache := Redis.removeGroupMember userId d.memCache }

theorem Cached.withoutMember (h : Cached d) (userId : String) : Cached (withoutMember d userId) := by
  intro userId' status hlookup
  obtain ⟨hne, hlookup⟩ := lookup_removeGroupMember hlookup
  simp only [Group.withoutMember, Table.lookup_update, if_neg hne]
  exact h userId' status hlookup

theorem active_withoutMember {userId : String} (h : d.IsActive userId) :
    (withoutMember d userId).active + 1 = d.active := by
  obtain ⟨status, hlookup, hactive⟩ := isActive_iff.mp h
  have hcount := count_update d.members hlookup .quitMember
  rwa [if_pos hactive] at hcount

theorem InStep.remove (h : InStep d row) {userId : String} (hactive : d.IsActive userId) :
    InStep (removeGroupMember userId d)
      { row with
        count := row.count - 1
        status := if row.count - 1 = 0 then .dismissGroupstatus else row.status } := by
  have hcount := active_withoutMember hactive
  have hrow := h.count
  have hbound := h.bound
  have hleft : (withoutMember d userId).active = row.count - 1 := by omega
  have hstep := InStep.updateGroupCount (d := withoutMember d userId) 1 true h.stored h.cache
    (by omega) (h.cached.withoutMember userId) (by omega) (by simp only [if_true, hleft])
  rwa [hleft] at hstep

theorem lookup_setGroupMaster (d : GroupData) (userId involvedId userId' : String) :
    (setGroupMaster userId involvedId d).members.lookup userId' =
      if userId' = involvedId then (d.members.lookup involvedId).map fun _ => .masterMember
      else if userId' = userId then (d.members.lookup userId).map fun _ => .applyMember
      else d.members.lookup userId' := by
  simp only [Group.setGroupMaster, Table.lookup_update]
  by_cases hinv : userId' = involvedId
  · rw [if_pos hinv, if_pos hinv]
    split
    · next heq =>
      rw [heq, Option.map_map]
      rfl
    · rfl
  · rw [if_neg hinv, if_neg hinv]

theorem lookup_setGroupMaster_memCache (d : GroupData) (userId involvedId userId' : String) :
    (setGroupMaster userId involvedId d).memCache.lookup userId' =
      if userId' = involvedId then some .masterMember
      else if userId' = userId then some .applyMember
      else d.memCache.lookup userId' := by
  simp only [Group.setGroupMaster]
  by_cases hinv : userId' = involvedId
  · rw [if_pos hinv, hinv, AList.lookup_insert]
  · rw [if_neg hinv, AList.lookup_insert_ne hinv]
    by_cases huser : userId' = userId
    · rw [if_pos huser, huser, AList.lookup_insert]
    · rw [if_neg huser, AList.lookup_insert_ne huser]

theorem InStep.setGroupMaster (h : InStep d row) {userId involvedId : String}
    (hactive : d.IsActive userId) (hinvolved : d.IsActive involvedId) :
    InStep (setGroupMaster userId involvedId d) { row with masterId := involvedId } := by
  obtain ⟨old, hold, holdActive⟩ := isActive_iff.mp hactive
  obtain ⟨old', hold', holdActive'⟩ := isActive_iff.mp hinvolved
  have hpos : row.count ≠ 0 := by
    have := count_pos_of_isActive hactive
    have := h.count
    omega
  have hfirst := count_update d.members hold .applyMember
  have hlookup : ∃ status, (d.members.update userId .applyMember).lookup involvedId = some status ∧
      status.isActive = true := by
    rw [Table.lookup_update, hold]
    split
    · exact ⟨_, rfl, rfl⟩
    · exact ⟨old', hold', holdActive'⟩
  obtain ⟨status, hlookup, hstatus⟩ := hlookup
  have hsecond := count_update (d.members.update userId .applyMember) hlookup .masterMember
  have hcount : (Group.setGroupMaster userId involvedId d).active = d.active := by
    rw [if_pos holdActive] at hfirst
    rw [if_pos hstatus] at hsecond
    exact Nat.add_right_cancel (hsecond.trans hfirst)
  refine ⟨?_, ?_, ?_, ?_, ?_, ?_⟩
  · simp only [Group.setGroupMaster, h.stored, Option.map_some]
  · rw [hcount]
    exact h.count
  · rw [hcount]
    exact h.bound
  · simp only [Group.setGroupMaster, h.cache, Redis.updateGroupMaster, GroupRow.cache, if_neg hpos]
  · exact h.dismissed
  · intro userId' status' hcached
    rw [lookup_setGroupMaster_memCache] at hcached
    rw [lookup_setGroupMaster, hold, hold']
    by_cases hinv : userId' = involvedId
    · rw [if_pos hinv] at hcached ⊢
      obtain rfl := Option.some.inj hcached
      exact ⟨rfl, rfl⟩
    · rw [if_neg hinv] at hcached ⊢
      by_cases huser : userId' = userId
      · rw [if_pos huser] at hcached ⊢
        obtain rfl := Option.some.inj hcached
        exact ⟨rfl, rfl⟩
      · rw [if_neg huser] at hcached ⊢
        exact h.cached userId' status' hcached

theorem InStep.activate (h : InStep d row) (hpos : row.count ≠ 0) :
    InStep
      { updateGroupStatus .normalGroupstatus d with
        cache := Redis.updateGroupStatus .normalGroupstatus d.cache }
      { row with status := .normalGroupstatus } := by
  refine ⟨?_, h.count, h.bound, ?_, fun hzero => absurd hzero hpos, h.cached⟩
  · simp [updateGroupStatus, h.stored]
  · simp [Redis.updateGroupStatus, h.cache, GroupRow.cache, hpos]

theorem getGrpMems_frame (d : GroupData) :
    ∃ memCache, (getGrpMems d).2 = { d with memCache := memCache } := by
  unfold getGrpMems
  split
  · exact ⟨_, rfl⟩
  · exact ⟨_, rfl⟩

theorem memCache_getGrpMems (d : GroupData) : (getGrpMems d).2.memCache = (getGrpMems d).1 := by
  unfold getGrpMems
  split
  · rfl
  · rfl

/-- Looking at the members changes nothing but what is cached of them. -/
theorem getGrpMem_frame (d : GroupData) (userId : String) :
    ∃ memCache, (getGrpMem d userId).2 = { d with memCache := memCache } := by
  obtain ⟨memCache, hframe⟩ := getGrpMems_frame d
  unfold getGrpMem
  cases hmems : getGrpMems d with | mk grpmems d' =>
  rw [hmems] at hframe
  subst hframe
  dsimp only
  split
  · exact ⟨_, rfl⟩
  · split
    · exact ⟨_, rfl⟩
    · exact ⟨_, rfl⟩

/-- What is cached when the members are looked at was cached before or is an active member. -/
theorem lookup_getGrpMems {userId : String} {status : MemberStatus}
    (h : (getGrpMems d).2.memCache.lookup userId = some status) :
    d.memCache.lookup userId = some status ∨
      d.members.lookup userId = some status ∧ status.isActive = true := by
  unfold getGrpMems at h
  split at h
  · exact .inr (Option.filter_eq_some_iff.mp (Table.lookup_select.symm.trans h))
  · exact .inl h

/-- One who is looked for is cached, too, whatever his status is. -/
theorem lookup_getGrpMem {userId userId' : String} {status : MemberStatus}
    (h : (getGrpMem d userId).2.memCache.lookup userId' = some status) :
    d.memCache.lookup userId' = some status ∨
      d.members.lookup userId' = some status ∧ (status.isActive = true ∨ userId' = userId) := by
  obtain ⟨memCache, hframe⟩ := getGrpMems_frame d
  have hbefore : memCache.lookup userId' = some status → d.memCache.lookup userId' = some status ∨
      d.members.lookup userId' = some status ∧ (status.isActive = true ∨ userId' = userId) := by
    intro hlookup
    exact (lookup_getGrpMems (hframe ▸ hlookup)).imp_right (And.imp_right .inl)
  unfold getGrpMem at h
  cases hmems : getGrpMems d with | mk grpmems d' =>
  rw [hmems] at hframe h
  subst hframe
  dsimp only at h
  split at h
  · exact hbefore h
  · split at h
    · exact hbefore h
    · next row hrow =>
      by_cases huser : userId' = userId
      · subst huser
        rw [AList.lookup_insert] at h
        exact .inr ⟨hrow.trans h, .inr rfl⟩
      · rw [AList.lookup_insert_ne huser] at h
        exact hbefore h

/-- Looking for a user caches active members only, unless he is a former one. -/
theorem Cached.getGrpMem (h : Cached d) {userId : String}
    (hnot : d.members.lookup userId ≠ some .quitMember) : Cached (getGrpMem d userId).2 := by
  obtain ⟨memCache, hframe⟩ := getGrpMem_frame d userId
  intro userId' status hlookup
  have hrow : (Group.getGrpMem d userId).2.members = d.members := by rw [hframe]
  rw [hrow]
  obtain hold | ⟨hnew, hactive | rfl⟩ := lookup_getGrpMem hlookup
  · exact h userId' status hold
  · exact ⟨hactive, hnew⟩
  · refine ⟨?_, hnew⟩
    simp only [MemberStatus.isActive, decide_eq_true_eq]
    rintro rfl
    exact hnot hnew

end Writing

end Group

end ImServer
