import Mathlib.Data.List.Dedup
import ImServer.Group.GroupTasks

/-!
# What the tasks write

A task leaves the data of its group as they are, or writes them in one of a few ways, for each
of which it has checked something. Whatever is proved of tasks is proved of these outcomes.
-/

namespace ImServer

namespace Group

section Invitees

variable {env : Env} {d : GroupData} {userIds : List String} {userId : String}

theorem lookup_parseInviteeList (env : Env) (d : GroupData) (userIds : List String)
    (userId : String) :
    (parseInviteeList env d userIds).lookup userId =
      if userId ∈ userIds ∧ mayJoin d userId = true then verifyGroupUserPermission env userId
      else none := by
  induction userIds using List.reverseRecOn with
  | nil => rfl
  | append_singleton userIds invitee ih =>
    simp only [parseInviteeList, List.foldl_append, List.foldl_cons, List.foldl_nil] at ih ⊢
    by_cases huser : userId = invitee
    · subst huser
      cases hjoin : mayJoin d userId with
      | false => simpa [hjoin] using ih
      | true =>
        cases hpermit : verifyGroupUserPermission env userId with
        | none => simpa [hjoin, hpermit] using ih
        | some bPermit => simp
    · have hother : ∀ bPermit (map : InviteeUserMap),
          (map.insert invitee bPermit).lookup userId = map.lookup userId :=
        fun _ _ => AList.lookup_insert_ne huser
      have hmem : userId ∈ userIds ++ [invitee] ∧ mayJoin d userId = true ↔
          userId ∈ userIds ∧ mayJoin d userId = true := by simp [huser]
      refine Eq.trans ?_ (if_congr hmem rfl rfl).symm
      rw [← ih]
      split
      · split
        · exact hother _ _
        · rfl
      · rfl

/-- Those who join need not be asked, and are no members yet. -/
theorem mem_joining : userId ∈ joining (parseInviteeList env d userIds) ↔
    userId ∈ userIds ∧ mayJoin d userId = true ∧ verifyGroupUserPermission env userId = some 0 := by
  unfold joining
  rw [← AList.mem_keys, ← AList.lookup_isSome, Table.lookup_select, lookup_parseInviteeList]
  by_cases h : userId ∈ userIds ∧ mayJoin d userId = true
  · rw [if_pos h]
    cases verifyGroupUserPermission env userId with
    | none => simp
    | some bPermit => simp [h, Option.filter]
  · rw [if_neg h]
    refine iff_of_false Bool.false_ne_true ?_
    rintro ⟨hmem, hjoin, -⟩
    exact h ⟨hmem, hjoin⟩

theorem joining_nodup (map : InviteeUserMap) : (joining map).Nodup := AList.keys_nodup _

theorem length_joining_le (env : Env) (d : GroupData) (userIds : List String) :
    (joining (parseInviteeList env d userIds)).length ≤ userIds.length :=
  (List.subperm_of_subset (joining_nodup _) fun _ h => (mem_joining.mp h).1).length_le

end Invitees

/-- The data after users have got a status in the table and in redis. -/
def withMembers (d : GroupData) (userIds : List String) (status : MemberStatus) : GroupData :=
  { d with
    members := d.members.insertAll userIds status
    memCache := d.memCache.insertAll userIds status }

/-- The data after users have joined. The number that is added to the count of the group has 16
bits. -/
def joined (d : GroupData) (userIds : List String) (status : MemberStatus) : GroupData :=
  updateGroupCount (userIds.length % 2 ^ 16) false (withMembers d userIds status)

theorem insertGroupMember_eq (userId : String) (status : MemberStatus) (d : GroupData) :
    insertGroupMember userId status .commonInsertMember d = joined d [userId] status := rfl

theorem insertMultiGroupMember_cases (map : InviteeUserMap) (status : MemberStatus) (d : GroupData) :
    (insertMultiGroupMember map status d).2 = d ∨
      (insertMultiGroupMember map status d).2 = joined d (joining map) status := by
  unfold insertMultiGroupMember
  dsimp only
  split
  · exact .inl rfl
  · exact .inr rfl

theorem lookup_joined (d : GroupData) (userIds : List String) (status : MemberStatus)
    (userId : String) : (joined d userIds status).members.lookup userId =
      if userId ∈ userIds then some status else d.members.lookup userId :=
  Table.lookup_insertAll userIds status d.members

theorem lookup_removed (d : GroupData) (userId userId' : String) :
    (removeGroupMember userId d).members.lookup userId' =
      if userId' = userId then (d.members.lookup userId).map fun _ => .quitMember
      else d.members.lookup userId' :=
  Table.lookup_update

def activated (d : GroupData) : GroupData :=
  { updateGroupStatus .normalGroupstatus d with
    cache := Redis.updateGroupStatus .normalGroupstatus d.cache }

theorem nonErr_of_inviteAuth {info : GroupInfo} {nJoinNum : Nat}
    (h : verifyGroupInviteAuth info nJoinNum = .nonErr) :
    info.bStatus = .normalGroupstatus ∧ info.nGroupNumber + nJoinNum % 2 ^ 16 < maxGroupmember := by
  unfold verifyGroupInviteAuth at h
  split at h
  · cases h
  · next hnormal =>
    split at h
    · cases h
    · next hlimit => exact ⟨hnormal, Nat.lt_of_not_le hlimit⟩
  · cases h

theorem nonErr_of_applyAuth {env : Env} {d : GroupData} {userId : String} {applyType : ApplyType}
    {info : GroupInfo} (h : verifyGroupApplyAuth env d userId applyType info = .nonErr) :
    (info.bStatus = .normalGroupstatus ∨ info.bStatus = .depositGroupstatus) ∧
      info.nGroupNumber + 1 < maxGroupmember := by
  unfold verifyGroupApplyAuth at h
  split at h
  · cases h
  · split at h
    · next hstatus =>
      split at h
      · cases h
      · split at h
        · cases h
        · split at h
          · cases h
          · next hlimit => exact ⟨hstatus, Nat.lt_of_not_le hlimit⟩
    · cases h

/-- What a task may make of the data, and what it has checked for it. -/
inductive Outcome (env : Env) (d : GroupData) : Task → GroupData → Prop where
  | same (t : Task) : Outcome env d t d
  | create (msg : GroupCreate) (d' : GroupData) : insertGroup env msg d = some d' →
      Outcome env d (.create msg) d'
  | createInvited (msg : GroupCreate) (d' : GroupData) : insertGroup env msg d = some d' →
      msg.Invites → msg.inviteUserIds.length ≤ maxGroupmember →
      Outcome env d (.create msg)
        (joined d' (joining (parseInviteeList env d' msg.inviteUserIds)) .inviteMember)
  | apply (msg : GroupApply) :
      verifyGroupApplyAuth env d msg.userId msg.applyType (getGroupInfo (env.junk 0) d) = .nonErr →
      mayJoin d msg.userId = true → (getGroupInfo (env.junk 1) d).bPermit = 0 →
      Outcome env d (.apply msg) (joined d [msg.userId] .applyMember)
  | applyFirst (msg : GroupApply) :
      verifyGroupApplyAuth env d msg.userId msg.applyType (getGroupInfo (env.junk 0) d) = .nonErr →
      mayJoin d msg.userId = true → (getGroupInfo (env.junk 1) d).bPermit = 0 →
      (getGroupInfo (env.junk 1) d).bStatus = .depositGroupstatus →
      Outcome env d (.apply msg) (activated (joined d [msg.userId] .applyMember))
  | activate (msg : GroupApply) :
      verifyGroupApplyAuth env d msg.userId msg.applyType (getGroupInfo (env.junk 0) d) = .nonErr →
      (getGroupInfo (env.junk 1) d).bStatus = .depositGroupstatus →
      Outcome env d (.apply msg) (activated d)
  | invite (msg : GroupInvite) :
      verifyGroupInviteAuth (getGroupInfo (env.junk 0) d) msg.inviteeIds.length = .nonErr →
      Outcome env d (.invite msg)
        (joined d (joining (parseInviteeList env d msg.inviteeIds)) .inviteMember)
  | permit (msg : GroupPermit) (status : MemberStatus) :
      (getGroupInfo (env.junk 0) d).bStatus = .normalGroupstatus →
      (isMember d msg.userId).1 = .errGroupMembernonexist ∨
        (isMember d msg.userId).2 = some .quitMember →
      status = .applyMember ∨ status = .inviteMember →
      Outcome env d (.permit msg) (joined d [msg.userId] status)
  | quit (msg : GroupQuit) : (isMember d msg.userId).1 = .errGroupMemberexist →
      (getGroupInfo (env.junk 0) d).bStatus = .normalGroupstatus →
      ((getGroupInfo (env.junk 0) d).masterId = msg.userId →
        (getGroupInfo (env.junk 0) d).nGroupNumber ≤ 1) →
      Outcome env d (.quit msg) (removeGroupMember msg.userId d)
  | kickOut (msg : GroupKickOut) : (isMember d msg.kickId).1 = .errGroupMemberexist →
      isMaster d msg.userId = .errGroupMaster →
      Outcome env d (.kickOut msg) (removeGroupMember msg.kickId d)
  | modify (msg : GroupModify) : isMaster d msg.userId = .errGroupMaster →
      (isMember d msg.userId).1 = .errGroupMemberexist →
      (isMember d msg.userId).2 ≠ some .quitMember →
      Outcome env d (.modify msg) (setGroupMaster msg.userId msg.involvedId d)

theorem isActive_of_joins {status : MemberStatus}
    (h : status = .applyMember ∨ status = .inviteMember) : status.isActive = true := by
  obtain rfl | rfl := h
  · rfl
  · rfl

section Outcomes

variable (env : Env) (d : GroupData)

theorem createGroupProc_outcome (number : Nat) (msg : GroupCreate) :
    Outcome env d (.create msg) (createGroupProc env number msg d).data := by
  unfold createGroupProc
  split
  · exact .same _
  · next hsize =>
    split
    · exact .same _
    · split
      · exact .same _
      · cases hinsert : insertGroup env msg d with
        | none => exact .same _
        | some d' =>
          dsimp only
          split
          · next hinvites =>
            obtain hsame | hjoined := insertMultiGroupMember_cases
              (parseInviteeList env d' msg.inviteUserIds) .inviteMember d'
            · simp only [hsame]
              exact .create msg d' hinsert
            · simp only [hjoined]
              exact .createInvited msg d' hinsert hinvites (Nat.le_of_not_lt hsize)
          · exact .create msg d' hinsert

theorem applyGroup_outcome (msg : GroupApply) :
    Outcome env d (.apply msg) (applyGroup env msg d).data := by
  unfold applyGroup
  dsimp only
  split
  · exact .same _
  · next hauth =>
    have hauth := not_not.mp hauth
    split
    · exact .same _
    · split
      · next hjoin =>
        split
        · by_cases hpermit : (getGroupInfo (env.junk 1) d).bPermit = 0
          · simp only [if_pos hpermit, true_and, insertGroupMember_eq]
            split
            · next hdeposit => exact .applyFirst msg hauth hjoin hpermit hdeposit
            · exact .apply msg hauth hjoin hpermit
          · simp only [if_neg hpermit]
            split
            · next hcode => exact .activate msg hauth hcode.2
            · exact .same _
        · exact .same _
      · exact .same _

theorem inviteGroup_outcome (msg : GroupInvite) :
    Outcome env d (.invite msg) (inviteGroup env msg d).data := by
  unfold inviteGroup
  dsimp only
  split
  · exact .same _
  · next hauth =>
    split
    · exact .same _
    · obtain hsame | hjoined := insertMultiGroupMember_cases
        (parseInviteeList env d msg.inviteeIds) .inviteMember d
      · rw [hsame]
        exact .same _
      · rw [hjoined]
        exact .invite msg (not_not.mp hauth)

theorem joinDirectlyGroupProc_outcome (msg : GroupPermit) :
    Outcome env d (.permit msg) (joinDirectlyGroupProc env msg d).data := by
  unfold joinDirectlyGroupProc
  split
  · next hnormal =>
    split
    · next hnot =>
      refine .permit msg _ hnormal hnot ?_
      split
      · exact .inl rfl
      · exact .inr rfl
    · exact .same _
  · exact .same _

theorem quitGroup_outcome (msg : GroupQuit) :
    Outcome env d (.quit msg) (quitGroup env msg d).data := by
  unfold quitGroup
  dsimp only
  split
  · exact .same _
  · next hmember =>
    split
    · exact .same _
    · next hnormal =>
      split
      · exact .same _
      · next hmaster =>
        refine .quit msg (not_not.mp hmember) (not_not.mp hnormal) ?_
        intro heq
        exact Nat.le_of_not_lt fun hlt => hmaster ⟨heq, hlt⟩

theorem kickoutGroup_outcome (msg : GroupKickOut) :
    Outcome env d (.kickOut msg) (kickoutGroup msg d).data := by
  unfold kickoutGroup
  split
  · next hmember =>
    split
    · next hmaster => exact .kickOut msg hmember hmaster
    · exact .same _
  · exact .same _

theorem modifyGroupMaster_outcome (msg : GroupModify) :
    Outcome env d (.modify msg) (modifyGroupMaster msg d).data := by
  unfold modifyGroupMaster
  split
  · next hmaster =>
    split
    · exact .same _
    · next hmember =>
      push Not at hmember
      exact .modify msg hmaster hmember.1 hmember.2
  · exact .same _

theorem Task.run_outcome (number : Nat) (t : Task) : Outcome env d t (t.run env number d).data := by
  cases t with
  | create msg => exact createGroupProc_outcome env d number msg
  | apply msg => exact applyGroup_outcome env d msg
  | invite msg => exact inviteGroup_outcome env d msg
  | permit msg => exact joinDirectlyGroupProc_outcome env d msg
  | quit msg => exact quitGroup_outcome env d msg
  | kickOut msg => exact kickoutGroup_outcome env d msg
  | modify msg => exact modifyGroupMaster_outcome env d msg

theorem Event.outcome (s : State) (t : Task) :
    Outcome env (s.data t.groupId) t ((Event.task env t).apply s) := by
  simp only [Event.apply, State.runTask]
  split
  · exact t.run_outcome env _ _
  · exact .same t

end Outcomes

end Group

end ImServer
