import ImServer.Group.TaskEffects

/-!
# The size of a group

Applies and invitations look at the limit, a permit does not, and a creation looks only at the
length of its list, without the creator.
-/

namespace ImServer

namespace Group

/-- Tasks that are regular but for the number of members, and leave room for those who join
without a look at the limit. -/
def Task.LeavesRoom (env : Env) (d : GroupData) : Task → Prop
  | create msg =>
    d.row = none → msg.Invites → msg.inviteUserIds.length ≤ maxGroupmember →
      (admitted env (· = msg.userId) msg.inviteUserIds).length < maxGroupmember
  | apply _ => d.row = none → NoJunk env
  | invite msg =>
    (d.row = none → NoJunk env) ∧
      (2 ^ 16 ≤ msg.inviteeIds.length →
        d.active + msg.inviteeIds.length % 2 ^ 16 < maxGroupmember →
        d.active + (admitted env d.IsActive msg.inviteeIds).length ≤ maxGroupmember)
  | permit msg =>
    (d.row = none → NoJunk env) ∧ (¬ d.IsActive msg.userId → d.active < maxGroupmember)
  | modify msg =>
    isMaster d msg.userId = .errGroupMaster → d.IsActive msg.userId → d.IsActive msg.involvedId
  | _ => True

instance (env : Env) (d : GroupData) : (t : Task) → Decidable (t.LeavesRoom env d)
  | .create _ => inferInstanceAs (Decidable (_ → _ → _ → _))
  | .apply _ => inferInstanceAs (Decidable (_ → _))
  | .invite _ => inferInstanceAs (Decidable (_ ∧ (_ → _ → _)))
  | .permit _ => inferInstanceAs (Decidable (_ ∧ (_ → _)))
  | .modify _ => inferInstanceAs (Decidable (_ → _ → _))
  | .quit _ | .kickOut _ => .isTrue trivial

section Tasks

variable {env : Env} {d d' : GroupData} {row row' : GroupRow}

theorem Task.LeavesRoom.regular {t : Task} (h : t.LeavesRoom env d) : t.Regular env d := by
  have hmax : maxGroupmember < 2 ^ 16 := by decide
  cases t with
  | create msg => trivial
  | apply msg => exact h
  | invite msg => exact ⟨h.1, fun hlarge hlimit => (h.2 hlarge hlimit).trans_lt hmax⟩
  | permit msg => exact ⟨h.1, fun hactive => Nat.lt_of_le_of_lt (h.2 hactive) hmax⟩
  | quit msg => trivial
  | kickOut msg => trivial
  | modify msg => exact h

theorem Created.fits {msg : GroupCreate} (h : Created env msg d row)
    (hroom : msg.Invites → msg.inviteUserIds.length ≤ maxGroupmember →
      (admitted env (· = msg.userId) msg.inviteUserIds).length < maxGroupmember) :
    row.count ≤ maxGroupmember := by
  cases h with
  | alone d row hnew => exact hnew.count.trans_le (by decide)
  | invited d row hnew hinvites hsize =>
    have hothers : ∀ userId ∈ joining (parseInviteeList env d msg.inviteUserIds),
        userId ≠ msg.userId :=
      fun userId hmem heq =>
        not_isActive_of_mem_joining hnew.inStep userId hmem (hnew.isActive.mpr heq)
    have hle := length_joining_le_admitted (· = msg.userId) hothers
    have hfits := hroom hinvites hsize
    have hone := hnew.count
    dsimp only
    omega

/-- A task that leaves room keeps a group within the limit. -/
theorem InStep.effect_fits (hstep : InStep d row) (h : row.count ≤ maxGroupmember) {t : Task}
    (hroom : t.LeavesRoom env d) (heffect : Effect env d row t d' row') :
    row'.count ≤ maxGroupmember := by
  cases heffect with
  | same => exact h
  | apply msg hactive hpermit hstatus hlimit => exact hlimit.le
  | applyFirst msg hactive hpermit hdeposit hlimit => exact hlimit.le
  | activate msg hdeposit => exact h
  | invite msg hnormal hlimit =>
    by_cases hlarge : 2 ^ 16 ≤ msg.inviteeIds.length
    · have hadmitted : (joining (parseInviteeList env d msg.inviteeIds)).length ≤
          (admitted env d.IsActive msg.inviteeIds).length :=
        length_joining_le_admitted d.IsActive (not_isActive_of_mem_joining hstep)
      have hcount := hstep.count
      have hfits := hroom.2 hlarge (hcount ▸ hlimit)
      dsimp only
      omega
    · have hle := length_joining_le env d msg.inviteeIds
      rw [Nat.mod_eq_of_lt (Nat.lt_of_not_le hlarge)] at hlimit
      dsimp only
      omega
  | permit msg status hactive hnormal hstatus =>
    have hfits := hroom.2 hactive
    rw [← hstep.count] at hfits
    exact hfits
  | quit msg hactive hnormal hlast => exact (Nat.sub_le _ _).trans h
  | kickOut msg hactive hmaster => exact (Nat.sub_le _ _).trans h
  | modify msg hmaster hactive => exact h

end Tasks

/-- As long as ids are plain and permits and creations leave room, no group outgrows the limit. -/
theorem size_limited {s : State}
    (h : Run.Reaches State.taskStep (State.taskGood Task.LeavesRoom) {} s) :
    ∀ groupId, (s.data groupId).active ≤ maxGroupmember := by
  have hsynced : ∀ groupId, Synced (fun _ row => row.count ≤ maxGroupmember) (s.data groupId) := by
    refine synced_of_reaches ?_ ?_ ?_ h
    · exact fun _ _ _ _ hroom => hroom.regular
    · exact fun _ _ _ _ hroom hnew => hnew.fits (hroom rfl)
    · exact fun _ _ _ _ _ _ hstep hfits hroom heffect => hstep.effect_fits hfits hroom heffect
  intro groupId
  obtain hnone | ⟨row, hstep, hfits⟩ := hsynced groupId
  · rw [hnone]
    exact Nat.zero_le _
  · exact hstep.count ▸ hfits

/-- Dan makes a group with Ann, who invites Bob, Bob and Carl; Eve joins by a permit, Carl
leaves and Ann is kicked out. -/
def sizeTasks : List (Env × Task) :=
  [({}, .create { userId := "dan", groupId := grp, inviteUserIds := ["ann", "dan"] }),
    ({}, .invite ⟨"ann", grp, ["bob", "bob", "carl", "dan"]⟩),
    ({}, .permit { fromId := "dan", toId := "eve", grpId := grp, rspType := 0 }),
    ({}, .quit ⟨"carl", grp⟩), ({}, .kickOut ⟨"dan", "ann", grp⟩),
    ({}, .apply { userId := "carl", groupId := grp })]

theorem size_limited_example :
    ∃ s, Run.run State.taskStep {} sizeTasks = some s ∧ (s.data grp).active = 4 ∧
      (s.data grp).active ≤ maxGroupmember := by
  have hrun : (Run.runGood State.taskStep (State.taskGood Task.LeavesRoom) {} sizeTasks).map
      (fun s => (s.data grp).active) = some 4 := by
    decide +kernel
  obtain ⟨s, hgood, hactive⟩ := Option.map_eq_some_iff.mp hrun
  exact ⟨s, Run.run_of_runGood hgood, hactive, size_limited (Run.reaches_of_runGood hgood) grp⟩

/-- A creation may invite as many users as the limit, and its creator is one more. -/
theorem active_createGroupProc {env : Env} {number : Nat} {msg : GroupCreate} {userCache : UserCache}
    (huser : env.userInfo msg.userId = some userCache) (hnumber : number % 2 ^ 16 < userCache.nGroupLimit)
    (hinvites : msg.Invites) (hsize : msg.inviteUserIds.length ≤ maxGroupmember)
    (hsome : msg.inviteUserIds ≠ []) (hnodup : msg.inviteUserIds.Nodup)
    (hothers : msg.userId ∉ msg.inviteUserIds)
    (hallow : ∀ userId ∈ msg.inviteUserIds, env.inGroupAllow userId = some 0) :
    (createGroupProc env number msg {}).data.active = 1 + msg.inviteUserIds.length := by
  obtain ⟨d, hinsert⟩ : ∃ d, insertGroup env msg {} = some d := ⟨_, rfl⟩
  obtain ⟨row, hnew⟩ := newGroup_of_insertGroup hinsert
  have hnotActive : ∀ userId ∈ msg.inviteUserIds, ¬ d.IsActive userId := by
    intro userId hmem hactive
    exact hothers (hnew.isActive.mp hactive ▸ hmem)
  have hmem : ∀ userId, userId ∈ joining (parseInviteeList env d msg.inviteUserIds) ↔
      userId ∈ msg.inviteUserIds := by
    intro userId
    refine mem_joining.trans ⟨fun h => h.1, fun h => ⟨h, ?_, ?_⟩⟩
    · exact (isMember_of_cached hnew.inStep.cached).2.1.mpr (hnotActive userId h)
    · simp [verifyGroupUserPermission, hallow userId h]
  have hlength : (joining (parseInviteeList env d msg.inviteUserIds)).length =
      msg.inviteUserIds.length :=
    ((List.perm_ext_iff_of_nodup (joining_nodup _) hnodup).mpr hmem).length_eq
  have hjoin : (insertMultiGroupMember (parseInviteeList env d msg.inviteUserIds) .inviteMember
      d).2 = joined d (joining (parseInviteeList env d msg.inviteUserIds)) .inviteMember := by
    unfold insertMultiGroupMember
    dsimp only
    rw [if_neg]
    · rfl
    · have hpos := List.length_pos_of_ne_nil hsome
      simp only [maxGroupmember] at hsize
      omega
  unfold createGroupProc
  rw [if_neg (Nat.not_lt.mpr hsize), huser]
  dsimp only
  rw [if_neg (Nat.not_le.mpr hnumber), hinsert]
  dsimp only
  rw [if_pos hinvites]
  refine (congrArg GroupData.active hjoin).trans ?_
  refine (active_withMembers (joining_nodup _) rfl ?_).trans ?_
  · exact fun userId h => hnotActive userId ((hmem userId).mp h)
  · rw [hlength, ← hnew.inStep.count, hnew.count]

/-- Ann makes a group with as many others as the limit allows members. -/
theorem size_exceeded {userIds : List String} (hlength : userIds.length = maxGroupmember)
    (hnodup : userIds.Nodup) (hothers : "ann" ∉ userIds) :
    ∃ s, Run.run State.taskStep {}
        [({}, .create { userId := "ann", groupId := grp, inviteUserIds := userIds })] = some s ∧
      maxGroupmember < (s.data grp).active := by
  have hsome : userIds ≠ [] := by
    rintro rfl
    cases hlength
  have hactive : (createGroupProc {} 0 { userId := "ann", groupId := grp, inviteUserIds := userIds }
      {}).data.active = 1 + userIds.length := by
    refine active_createGroupProc rfl (by decide) (.inl rfl) hlength.le hsome hnodup hothers ?_
    exact fun _ _ => rfl
  obtain ⟨s, hstep⟩ : ∃ s, State.taskStep {} ({}, .create
      { userId := "ann", groupId := grp, inviteUserIds := userIds }) = some s := ⟨_, rfl⟩
  have hdata : s.data grp = (createGroupProc {} 0
      { userId := "ann", groupId := grp, inviteUserIds := userIds } {}).data := State.step_data hstep
  refine ⟨s, Run.run_cons.mpr ⟨s, hstep, rfl⟩, ?_⟩
  rw [hdata, hactive, hlength]
  decide

/-- As many users as the limit. -/
def crowd : List String :=
  (List.range maxGroupmember).map fun n => String.ofList (List.replicate (n + 1) 'b')

theorem crowd_nodup : crowd.Nodup := by
  refine List.Nodup.map ?_ List.nodup_range
  intro m n h
  exact Nat.succ_injective (List.replicate_left_injective 'b' (String.ofList_injective h))

theorem ann_not_mem_crowd : "ann" ∉ crowd := by
  intro hmem
  obtain ⟨n, -, hn⟩ := List.mem_map.mp hmem
  have hchars := congrArg String.toList hn
  rw [String.toList_ofList, List.replicate_succ] at hchars
  exact absurd (List.cons.inj hchars).1 (by decide)

theorem length_crowd : crowd.length = maxGroupmember := by
  unfold crowd
  rw [List.length_map, List.length_range]

theorem size_exceeded_crowd :
    ∃ s, Run.run State.taskStep {}
        [({}, .create { userId := "ann", groupId := grp, inviteUserIds := crowd })] = some s ∧
      maxGroupmember < (s.data grp).active :=
  size_exceeded length_crowd crowd_nodup ann_not_mem_crowd

end Group

end ImServer
