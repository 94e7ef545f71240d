import ImServer.Group.InStep
import ImServer.Group.PlainIds

/-!
# What the tasks do to a group

The outcomes of a task for a group that is in step, with its new row, and which tasks keep it in
step. A group that is not there changes only when it is created, unless a task takes the
leftovers in its record for a group.
-/

namespace ImServer

namespace Group

/-- The row after a member has been removed. -/
def GroupRow.removed (row : GroupRow) : GroupRow :=
  { row with
    count := row.count - 1
    status := if row.count - 1 = 0 then .dismissGroupstatus else row.status }

/-- What a task may do to a group that is in step and to its row, and what it has checked for
it. -/
inductive Effect (env : Env) (d : GroupData) (row : GroupRow) :
    Task → GroupData → GroupRow → Prop where
  | same (t : Task) : Effect env d row t d row
  | apply (msg : GroupApply) : ¬ d.IsActive msg.userId → row.permission = 0 →
      row.status ≠ .dismissGroupstatus → row.count + 1 < maxGroupmember →
      Effect env d row (.apply msg) (joined d [msg.userId] .applyMember)
        { row with count := row.count + 1 }
  | applyFirst (msg : GroupApply) : ¬ d.IsActive msg.userId → row.permission = 0 →
      row.status = .depositGroupstatus → row.count + 1 < maxGroupmember →
      Effect env d row (.apply msg) (activated (joined d [msg.userId] .applyMember))
        { row with count := row.count + 1, status := .normalGroupstatus }
  | activate (msg : GroupApply) : row.status = .depositGroupstatus →
      Effect env d row (.apply msg) (activated d) { row with status := .normalGroupstatus }
  | invite (msg : GroupInvite) : row.status = .normalGroupstatus →
      row.count + msg.inviteeIds.length % 2 ^ 16 < maxGroupmember →
      Effect env d row (.invite msg)
        (joined d (joining (parseInviteeList env d msg.inviteeIds)) .inviteMember)
        { row with count := row.count + (joining (parseInviteeList env d msg.inviteeIds)).length }
  | permit (msg : GroupPermit) (status : MemberStatus) : ¬ d.IsActive msg.userId →
      row.status = .normalGroupstatus → status = .applyMember ∨ status = .inviteMember →
      Effect env d row (.permit msg) (joined d [msg.userId] status)
        { row with count := row.count + 1 }
  | quit (msg : GroupQuit) : d.IsActive msg.userId → row.status = .normalGroupstatus →
      (row.masterId = msg.userId → row.count ≤ 1) →
      Effect env d row (.quit msg) (removeGroupMember msg.userId d) row.removed
  | kickOut (msg : GroupKickOut) : d.IsActive msg.kickId → msg.userId = row.masterId →
      Effect env d row (.kickOut msg) (removeGroupMember msg.kickId d) row.removed
  | modify (msg : GroupModify) : msg.userId = row.masterId → d.IsActive msg.userId →
      Effect env d row (.modify msg) (setGroupMaster msg.userId msg.involvedId d)
        { row with masterId := msg.involvedId }

theorem Outcome.effect {env : Env} {d d' : GroupData} {row : GroupRow} {t : Task} (h : InStep d row)
    (houtcome : Outcome env d t d') : ∃ row', Effect env d row t d' row' := by
  have hcached := fun userId => @isMember_of_cached d userId h.cached
  cases houtcome with
  | same t => exact ⟨_, .same t⟩
  | create msg d' hinsert => simp [insertGroup, h.stored] at hinsert
  | createInvited msg d' hinsert => simp [insertGroup, h.stored] at hinsert
  | apply msg hauth hjoin hpermit =>
    rw [h.getGroupInfo] at hauth hpermit
    obtain ⟨hstatus, hlimit⟩ := nonErr_of_applyAuth hauth
    refine ⟨_, .apply msg ((hcached _).2.1.mp hjoin) hpermit ?_ hlimit⟩
    intro hdismiss
    obtain hnormal | hdeposit := hstatus
    · cases hdismiss.symm.trans hnormal
    · cases hdismiss.symm.trans hdeposit
  | applyFirst msg hauth hjoin hpermit hdeposit =>
    rw [h.getGroupInfo] at hauth hpermit hdeposit
    exact ⟨_, .applyFirst msg ((hcached _).2.1.mp hjoin) hpermit hdeposit
      (nonErr_of_applyAuth hauth).2⟩
  | activate msg hauth hdeposit =>
    rw [h.getGroupInfo] at hdeposit
    exact ⟨_, .activate msg hdeposit⟩
  | invite msg hauth =>
    rw [h.getGroupInfo] at hauth
    exact ⟨_, .invite msg (nonErr_of_inviteAuth hauth).1 (nonErr_of_inviteAuth hauth).2⟩
  | permit msg status hnormal hnot hstatus =>
    rw [h.getGroupInfo] at hnormal
    refine ⟨_, .permit msg status ?_ hnormal hstatus⟩
    obtain hcode | hquit := hnot
    · intro hactive
      cases hcode.symm.trans ((hcached _).1.mpr hactive)
    · exact (hcached _).2.2 hquit
  | quit msg hmember hnormal hmaster =>
    rw [h.getGroupInfo] at hnormal hmaster
    exact ⟨_, .quit msg ((hcached _).1.mp hmember) hnormal hmaster⟩
  | kickOut msg hmember hmaster =>
    exact ⟨_, .kickOut msg ((hcached _).1.mp hmember) (h.isMaster.mp hmaster)⟩
  | modify msg hmaster hmember hquit =>
    exact ⟨_, .modify msg (h.isMaster.mp hmaster) ((hcached _).1.mp hmember)⟩

/-- What a task finds in its first record, if the group is not there, is no status of a group
that may be joined. -/
def NoJunk (env : Env) : Prop :=
  (env.junk 0).bStatus ≠ .normalGroupstatus ∧ (env.junk 0).bStatus ≠ .depositGroupstatus

theorem NoJunk.not_joinable {env : Env} (h : NoJunk env) :
    ¬ ((env.junk 0).bStatus = .normalGroupstatus ∨ (env.junk 0).bStatus = .depositGroupstatus) :=
  not_or.mpr h

/-- A new group has its master for a member. -/
structure NewGroup (msg : GroupCreate) (d : GroupData) (row : GroupRow) : Prop where
  inStep : InStep d row
  count : row.count = 1
  masterId : row.masterId = msg.userId
  members : d.members = AList.insert msg.userId MemberStatus.masterMember (∅ : Members)

theorem newGroup_of_insertGroup {env : Env} {msg : GroupCreate} {d : GroupData}
    (h : insertGroup env msg {} = some d) : ∃ row, NewGroup msg d row := by
  obtain rfl := Option.some.inj h
  have hone : Table.count MemberStatus.isActive
      (AList.insert msg.userId MemberStatus.masterMember (∅ : Members)) = 1 :=
    Table.count_insert MemberStatus.isActive ∅ msg.userId .masterMember
  refine ⟨_, ⟨rfl, hone.symm, ?_, rfl, fun hzero => absurd hzero Nat.one_ne_zero, ?_⟩, rfl, rfl, rfl⟩
  · exact hone.trans_lt (by decide)
  · intro userId status hcached
    refine ⟨?_, hcached⟩
    have hlookup : AList.lookup userId (AList.insert msg.userId MemberStatus.masterMember
        (∅ : Members)) = some status := hcached
    by_cases huser : userId = msg.userId
    · rw [huser, AList.lookup_insert] at hlookup
      obtain rfl := Option.some.inj hlookup
      rfl
    · rw [AList.lookup_insert_ne huser] at hlookup
      cases hlookup

theorem NewGroup.isActive {msg : GroupCreate} {d : GroupData} {row : GroupRow}
    (h : NewGroup msg d row) {userId : String} : d.IsActive userId ↔ userId = msg.userId := by
  unfold GroupData.IsActive
  rw [h.members]
  by_cases huser : userId = msg.userId
  · rw [huser, AList.lookup_insert]
    exact iff_of_true rfl rfl
  · rw [AList.lookup_insert_ne huser]
    exact iff_of_false nofun huser

/-- A new group, with the invitees who need not be asked. -/
inductive Created (env : Env) (msg : GroupCreate) : GroupData → GroupRow → Prop where
  | alone (d : GroupData) (row : GroupRow) : NewGroup msg d row → Created env msg d row
  | invited (d : GroupData) (row : GroupRow) : NewGroup msg d row → msg.Invites →
      msg.inviteUserIds.length ≤ maxGroupmember →
      Created env msg (joined d (joining (parseInviteeList env d msg.inviteUserIds)) .inviteMember)
        { row with
          count := row.count + (joining (parseInviteeList env d msg.inviteUserIds)).length }

/-- Those of a list who are not in the group yet and need not be asked. -/
def admitted (env : Env) (inside : String → Prop) [DecidablePred inside] (userIds : List String) :
    List String :=
  (userIds.filter fun userId => ¬ inside userId ∧ env.inGroupAllow userId = some 0).dedup

/-- Tasks that keep the group in step: those that join a group find it, 16 bits are enough for
the members, and the master changes to an active member. -/
def Task.Regular (env : Env) (d : GroupData) : Task → Prop
  | apply _ => d.row = none → NoJunk env
  | invite msg =>
    (d.row = none → NoJunk env) ∧
      (2 ^ 16 ≤ msg.inviteeIds.length →
        d.active + msg.inviteeIds.length % 2 ^ 16 < maxGroupmember →
        d.active + (admitted env d.IsActive msg.inviteeIds).length < 2 ^ 16)
  | permit msg =>
    (d.row = none → NoJunk env) ∧ (¬ d.IsActive msg.userId → d.active + 1 < 2 ^ 16)
  | modify msg =>
    isMaster d msg.userId = .errGroupMaster → d.IsActive msg.userId → d.IsActive msg.involvedId
  | _ => True

instance (env : Env) : Decidable (NoJunk env) := inferInstanceAs (Decidable (_ ∧ _))

instance (env : Env) (d : GroupData) : (t : Task) → Decidable (t.Regular env d)
  | .apply _ => inferInstanceAs (Decidable (_ → _))
  | .invite _ => inferInstanceAs (Decidable (_ ∧ (_ → _ → _)))
  | .permit _ => inferInstanceAs (Decidable (_ ∧ (_ → _)))
  | .modify _ => inferInstanceAs (Decidable (_ → _ → _))
  | .create _ | .quit _ | .kickOut _ => .isTrue trivial

section Steps

variable {env : Env} {d : GroupData} {row : GroupRow}

theorem length_joining_le_admitted (inside : String → Prop) [DecidablePred inside]
    {userIds : List String}
    (h : ∀ userId ∈ joining (parseInviteeList env d userIds), ¬ inside userId) :
    (joining (parseInviteeList env d userIds)).length ≤ (admitted env inside userIds).length := by
  refine (List.subperm_of_subset (joining_nodup _) ?_).length_le
  intro userId hmem
  obtain ⟨huser, -, hpermit⟩ := mem_joining.mp hmem
  have hallow : env.inGroupAllow userId = some 0 := by
    unfold verifyGroupUserPermission at hpermit
    split at hpermit
    · cases hpermit
    · next bPermit hallow =>
      split at hpermit
      · cases hpermit
      · rw [hallow, hpermit]
  simp [admitted, huser, hallow, h userId hmem]

theorem InStep.joined (h : InStep d row) {userIds : List String} {status : MemberStatus}
    (hnodup : userIds.Nodup) (hstatus : status.isActive = true)
    (hnew : ∀ userId ∈ userIds, ¬ d.IsActive userId) (hpos : row.count ≠ 0)
    (hbound : d.active + userIds.length < 2 ^ 16) :
    InStep (joined d userIds status) { row with count := row.count + userIds.length } := by
  have hmod : userIds.length % 2 ^ 16 = userIds.length := Nat.mod_eq_of_lt (by omega)
  unfold Group.joined
  rw [hmod]
  exact h.join hnodup hstatus hnew hpos hbound

theorem InStep.joinedOne (h : InStep d row) {userId : String} {status : MemberStatus}
    (hactive : ¬ d.IsActive userId) (hstatus : status.isActive = true) (hpos : row.count ≠ 0)
    (hbound : d.active + 1 < 2 ^ 16) :
    InStep (Group.joined d [userId] status) { row with count := row.count + 1 } := by
  refine h.joined (List.nodup_singleton _) hstatus ?_ hpos hbound
  rintro userId (_ | ⟨_, ⟨⟩⟩)
  exact hactive

theorem InStep.lt_of_limit (h : InStep d row) (hlimit : row.count + 1 < maxGroupmember) :
    d.active + 1 < 2 ^ 16 := by
  rw [← h.count]
  exact hlimit.trans (by decide)

theorem InStep.pos (h : InStep d row) (hstatus : row.status ≠ .dismissGroupstatus) : row.count ≠ 0 :=
  fun hzero => hstatus (h.dismissed hzero)

theorem not_isActive_of_mem_joining (h : InStep d row) {userIds : List String} :
    ∀ userId ∈ joining (parseInviteeList env d userIds), ¬ d.IsActive userId :=
  fun _ hmem => (isMember_of_cached h.cached).2.1.mp (mem_joining.mp hmem).2.1

/-- Those who join by an invitation are few enough to be counted in 16 bits. -/
theorem InStep.fits (h : InStep d row) {userIds : List String}
    (hlimit : row.count + userIds.length % 2 ^ 16 < maxGroupmember)
    (hlarge : 2 ^ 16 ≤ userIds.length → d.active + userIds.length % 2 ^ 16 < maxGroupmember →
      d.active + (admitted env d.IsActive userIds).length < 2 ^ 16) :
    d.active + (joining (parseInviteeList env d userIds)).length < 2 ^ 16 := by
  rw [h.count] at hlimit
  by_cases hlength : 2 ^ 16 ≤ userIds.length
  · have hadmitted : (joining (parseInviteeList env d userIds)).length ≤
        (admitted env d.IsActive userIds).length :=
      length_joining_le_admitted d.IsActive (not_isActive_of_mem_joining h)
    have := hlarge hlength hlimit
    omega
  · have hle := length_joining_le env d userIds
    have hmax : maxGroupmember < 2 ^ 16 := by decide
    rw [Nat.mod_eq_of_lt (Nat.lt_of_not_le hlength)] at hlimit
    omega

theorem InStep.effect (h : InStep d row) {t : Task} (hregular : t.Regular env d) {d' : GroupData}
    {row' : GroupRow} (heffect : Effect env d row t d' row') : InStep d' row' := by
  cases heffect with
  | same => exact h
  | apply msg hactive hpermit hstatus hlimit =>
    exact h.joinedOne hactive rfl (h.pos hstatus) (h.lt_of_limit hlimit)
  | applyFirst msg hactive hpermit hdeposit hlimit =>
    have hpos := h.pos (by rw [hdeposit]; decide)
    exact (h.joinedOne hactive rfl hpos (h.lt_of_limit hlimit)).activate (Nat.succ_ne_zero _)
  | activate msg hdeposit => exact h.activate (h.pos (by rw [hdeposit]; decide))
  | invite msg hnormal hlimit =>
    exact h.joined (joining_nodup _) rfl (not_isActive_of_mem_joining h)
      (h.pos (by rw [hnormal]; decide)) (h.fits hlimit hregular.2)
  | permit msg status hactive hnormal hstatus =>
    exact h.joinedOne hactive (isActive_of_joins hstatus) (h.pos (by rw [hnormal]; decide))
      (hregular.2 hactive)
  | quit msg hactive hnormal hmaster => exact h.remove hactive
  | kickOut msg hactive hmaster => exact h.remove hactive
  | modify msg hmaster hactive =>
    exact h.setGroupMaster hactive (hregular (h.isMaster.mpr hmaster) hactive)

theorem Created.inStep {msg : GroupCreate} (h : Created env msg d row) : InStep d row := by
  cases h with
  | alone d row hnew => exact hnew.inStep
  | invited d row hnew hinvites hsize =>
    refine hnew.inStep.joined (joining_nodup _) rfl (not_isActive_of_mem_joining hnew.inStep)
      (hnew.count ▸ Nat.one_ne_zero) ?_
    have hlength := length_joining_le env d msg.inviteUserIds
    rw [← hnew.inStep.count, hnew.count]
    simp only [maxGroupmember] at hsize
    omega

theorem Outcome.missing {t : Task} (hregular : t.Regular env {}) (houtcome : Outcome env {} t d) :
    d = {} ∨ ∃ msg row, t = .create msg ∧ Created env msg d row := by
  cases houtcome with
  | same t => exact .inl rfl
  | create msg d hinsert =>
    obtain ⟨row, hnew⟩ := newGroup_of_insertGroup hinsert
    exact .inr ⟨msg, row, rfl, .alone d row hnew⟩
  | createInvited msg d hinsert hinvites hsize =>
    obtain ⟨row, hnew⟩ := newGroup_of_insertGroup hinsert
    exact .inr ⟨msg, _, rfl, .invited d row hnew hinvites hsize⟩
  | apply msg hauth => exact absurd (nonErr_of_applyAuth hauth).1 (hregular rfl).not_joinable
  | applyFirst msg hauth => exact absurd (nonErr_of_applyAuth hauth).1 (hregular rfl).not_joinable
  | activate msg hauth => exact absurd (nonErr_of_applyAuth hauth).1 (hregular rfl).not_joinable
  | invite msg hauth => exact absurd (nonErr_of_inviteAuth hauth).1 (hregular.1 rfl).1
  | permit msg status hnormal => exact absurd hnormal (hregular.1 rfl).1
  | quit msg hmember => cases hmember
  | kickOut msg hmember => cases hmember
  | modify msg hmaster hmember => cases hmember

/-- What new groups have and the effects of a regular task keep is kept by the task. -/
theorem Synced.run {p : GroupData → GroupRow → Prop} (h : Synced p d) {t : Task}
    (hregular : t.Regular env d)
    (hcreated : ∀ msg d' row', d = {} → t = .create msg → Created env msg d' row' → p d' row')
    (heffect : ∀ row d' row', InStep d row → p d row → Effect env d row t d' row' → p d' row')
    (number : Nat) : Synced p (t.run env number d).data := by
  obtain rfl | ⟨row, hstep, hp⟩ := h
  · obtain hsame | ⟨msg, row, ht, hnew⟩ := (t.run_outcome env {} number).missing hregular
    · exact .inl hsame
    · exact .inr ⟨row, hnew.inStep, hcreated msg _ row rfl ht hnew⟩
  · obtain ⟨row', hrun⟩ := (t.run_outcome env d number).effect hstep
    exact .inr ⟨row', hstep.effect hregular hrun, heffect row _ row' hstep hp hrun⟩

/-- A task as a step, with what it finds outside. -/
def State.taskStep (s : State) (e : Env × Task) : Option State := s.step (.task e.1 e.2)

/-- A condition on the tasks that are started, which put plain texts into their statements. -/
def State.taskGood (cond : Env → GroupData → Task → Prop) (s : State) (e : Env × Task) : Prop :=
  e.2.checks = true → e.2.Plain ∧ cond e.1 (s.data e.2.groupId) e.2

instance (cond : Env → GroupData → Task → Prop) [∀ env d t, Decidable (cond env d t)] (s : State)
    (e : Env × Task) : Decidable (s.taskGood cond e) :=
  inferInstanceAs (Decidable (_ → _))

/-- What new groups have and the effects of regular tasks keep holds of all groups in every
run of such tasks. -/
theorem synced_of_reaches {p : GroupData → GroupRow → Prop} {cond : Env → GroupData → Task → Prop}
    (hregular : ∀ env d t, Synced p d → cond env d t → t.Regular env d)
    (hcreated : ∀ env msg d row, cond env {} (.create msg) → Created env msg d row → p d row)
    (heffect : ∀ env d row t d' row', InStep d row → p d row → cond env d t →
      Effect env d row t d' row' → p d' row')
    {s : State} (h : Run.Reaches State.taskStep (State.taskGood cond) {} s) :
    ∀ groupId, Synced p (s.data groupId) := by
  refine Run.Reaches.invariant (fun s => ∀ groupId, Synced p (s.data groupId)) ?_ ?_ h
  · exact fun _ => .inl rfl
  · rintro s ⟨env, t⟩ s' hsynced hgood hstep
    refine State.forall_step hsynced ?_ hstep
    simp only [Event.apply, State.runTask]
    split
    · next hchecks =>
      have hcond : cond env (s.data t.groupId) t := (hgood hchecks).2
      refine (hsynced t.groupId).run (hregular env _ t (hsynced t.groupId) hcond) ?_ ?_ _
      · intro msg d' row' hmissing ht hnew
        subst ht
        exact hcreated env msg d' row' (hmissing ▸ hcond) hnew
      · exact fun row d' row' hstep hp hrun => heffect env _ row t d' row' hstep hp hcond hrun
    · exact hsynced t.groupId

end Steps

end Group

end ImServer
