import ImServer.Group.TaskEffects

/-!
# The master of a group

The master is named in the row of the group, and his row among the members has the status of a
master. Leaving and changing the master look after this unless the master kicks out himself or
hands the group to somebody outside.
-/

namespace ImServer

namespace Group

/-- The user has the status of a master, and he alone. -/
def HasMaster (d : GroupData) (masterId : String) : Prop :=
  ∀ userId, d.members.lookup userId = some .masterMember ↔ userId = masterId

/-- A group in use has its master among the members. -/
def MasterKept (d : GroupData) (row : GroupRow) : Prop :=
  row.status ≠ .dismissGroupstatus → HasMaster d row.masterId

/-- No master kicks out himself while others are left. -/
def Task.SparesMaster (d : GroupData) : Task → Prop
  | kickOut msg => msg.kickId = msg.userId → isMaster d msg.userId = .errGroupMaster → d.active ≤ 1
  | _ => True

instance (d : GroupData) : (t : Task) → Decidable (t.SparesMaster d)
  | .kickOut _ => inferInstanceAs (Decidable (_ → _ → _))
  | .create _ | .apply _ | .invite _ | .permit _ | .quit _ | .modify _ => .isTrue trivial

def Task.KeepsMaster (env : Env) (d : GroupData) (t : Task) : Prop :=
  t.Regular env d ∧ t.SparesMaster d

instance (env : Env) (d : GroupData) (t : Task) : Decidable (t.KeepsMaster env d) :=
  inferInstanceAs (Decidable (_ ∧ _))

section Changes

variable {d : GroupData} {masterId userId : String}

theorem HasMaster.isActive (h : HasMaster d masterId) : d.IsActive masterId :=
  isActive_iff.mpr ⟨_, (h masterId).mpr rfl, rfl⟩

theorem HasMaster.ne (h : HasMaster d masterId)
    (hactive : ¬ d.IsActive userId) : userId ≠ masterId := by
  rintro rfl
  exact hactive h.isActive

theorem HasMaster.joined (h : HasMaster d masterId) {userIds : List String} {status : MemberStatus}
    (hnew : ∀ userId ∈ userIds, ¬ d.IsActive userId) (hstatus : status ≠ .masterMember) :
    HasMaster (joined d userIds status) masterId := by
  intro userId
  rw [lookup_joined]
  split
  · next hmem =>
    refine iff_of_false ?_ (h.ne (hnew userId hmem))
    exact fun heq => hstatus (Option.some.inj heq)
  · exact h userId

theorem HasMaster.removeGroupMember (h : HasMaster d masterId) (hne : userId ≠ masterId) :
    HasMaster (removeGroupMember userId d) masterId := by
  intro userId'
  rw [lookup_removed]
  split
  · next heq =>
    refine iff_of_false ?_ (heq ▸ hne)
    cases d.members.lookup userId with
    | none => exact nofun
    | some status => exact nofun
  · exact h userId'

theorem HasMaster.setGroupMaster (h : HasMaster d masterId) {involvedId : String}
    (hinvolved : d.IsActive involvedId) :
    HasMaster (setGroupMaster masterId involvedId d) involvedId := by
  obtain ⟨status, hstatus, -⟩ := isActive_iff.mp hinvolved
  intro userId
  rw [lookup_setGroupMaster, hstatus, (h masterId).mpr rfl]
  by_cases hinv : userId = involvedId
  · rw [if_pos hinv]
    exact iff_of_true rfl hinv
  · rw [if_neg hinv, iff_false_right hinv]
    by_cases huser : userId = masterId
    · rw [if_pos huser]
      exact nofun
    · rw [if_neg huser]
      exact fun heq => huser ((h userId).mp heq)

end Changes

section Tasks

variable {env : Env} {d d' : GroupData} {row row' : GroupRow}

theorem MasterKept.remove (h : MasterKept d row) {userId : String}
    (hlast : userId = row.masterId → row.count ≤ 1) :
    MasterKept (removeGroupMember userId d) row.removed := by
  intro hused
  have hleft : row.count - 1 ≠ 0 := fun hzero => hused (if_pos hzero)
  have hstatus : row.status ≠ .dismissGroupstatus := by
    have heq : row.removed.status = row.status := if_neg hleft
    rwa [heq] at hused
  refine (h hstatus).removeGroupMember ?_
  intro hmaster
  have := hlast hmaster
  omega

theorem MasterKept.effect (h : MasterKept d row) (hstep : InStep d row) {t : Task}
    (hkeeps : t.KeepsMaster env d) (heffect : Effect env d row t d' row') : MasterKept d' row' := by
  cases heffect with
  | same => exact h
  | apply msg hactive hpermit hstatus hlimit =>
    exact fun _ => (h hstatus).joined (by simpa using hactive) (by decide)
  | applyFirst msg hactive hpermit hdeposit hlimit =>
    have hmaster := h (by rw [hdeposit]; decide)
    exact fun _ => hmaster.joined (by simpa using hactive) (by decide)
  | activate msg hdeposit => exact fun _ => h (by rw [hdeposit]; decide)
  | invite msg hnormal hlimit =>
    have hmaster := h (by rw [hnormal]; decide)
    exact fun _ => hmaster.joined (not_isActive_of_mem_joining hstep) (by decide)
  | permit msg status hactive hnormal hstatus =>
    have hmaster := h (by rw [hnormal]; decide)
    refine fun _ => hmaster.joined (by simpa using hactive) ?_
    obtain rfl | rfl := hstatus
    · decide
    · decide
  | quit msg hactive hnormal hlast => exact h.remove fun heq => hlast heq.symm
  | kickOut msg hactive hmaster =>
    refine h.remove fun heq => ?_
    rw [hstep.count]
    exact hkeeps.2 (heq.trans hmaster.symm) (hstep.isMaster.mpr hmaster)
  | modify msg hmaster hactive =>
    intro hstatus
    have hold : HasMaster d msg.userId := hmaster ▸ h hstatus
    exact hold.setGroupMaster (hkeeps.1 (hstep.isMaster.mpr hmaster) hactive)

theorem Created.masterKept {msg : GroupCreate} (h : Created env msg d row) : MasterKept d row := by
  suffices hnew : ∀ d row, NewGroup msg d row → HasMaster d row.masterId by
    cases h with
    | alone d row hgroup => exact fun _ => hnew d row hgroup
    | invited d row hgroup hinvites hsize =>
      exact fun _ => (hnew d row hgroup).joined (not_isActive_of_mem_joining hgroup.inStep) (by decide)
  intro d row hgroup userId
  rw [hgroup.members, hgroup.masterId]
  by_cases huser : userId = msg.userId
  · rw [huser, AList.lookup_insert]
    exact iff_of_true rfl rfl
  · rw [AList.lookup_insert_ne huser]
    exact iff_of_false nofun huser

end Tasks

/-- Every normal group has its master among the members, and no other member is one. -/
def MasterOk (d : GroupData) : Prop :=
  ∀ row ∈ d.row, row.status = .normalGroupstatus → HasMaster d row.masterId

/-- As long as ids are plain, tasks are regular and no master kicks out himself, all normal groups
have their master. -/
theorem master_kept {s : State}
    (h : Run.Reaches State.taskStep (State.taskGood Task.KeepsMaster) {} s) :
    ∀ groupId, MasterOk (s.data groupId) := by
  have hsynced : ∀ groupId, Synced MasterKept (s.data groupId) := by
    refine synced_of_reaches ?_ ?_ ?_ h
    · exact fun _ _ _ _ hkeeps => hkeeps.1
    · exact fun _ _ _ _ _ hnew => hnew.masterKept
    · exact fun _ _ _ _ _ _ hstep hkept hkeeps heffect => hkept.effect hstep hkeeps heffect
  intro groupId row hrow hnormal
  obtain hnone | ⟨row', hstep, hkept⟩ := hsynced groupId
  · rw [hnone] at hrow
    cases hrow
  · obtain rfl := Option.some.inj (hstep.stored.symm.trans hrow)
    exact hkept (by rw [hnormal]; decide)

/-- Ann makes a group and hands it to Bob, who kicks her out and may not leave; Carl leaves,
and Ann comes back and is kicked out again. -/
def masterTasks : List (Env × Task) :=
  [({}, .create { userId := "ann", groupId := grp, inviteUserIds := ["bob", "carl"] }),
    ({}, .modify ⟨"ann", grp, "bob"⟩), ({}, .kickOut ⟨"bob", "ann", grp⟩),
    ({}, .quit ⟨"bob", grp⟩), ({}, .quit ⟨"carl", grp⟩),
    ({}, .apply { userId := "ann", groupId := grp }), ({}, .kickOut ⟨"bob", "ann", grp⟩)]

theorem master_kept_handed :
    ∃ s, Run.run State.taskStep {} masterTasks = some s ∧
      (s.data grp).row = some ⟨1, 0, .normalGroupstatus, "bob", 0⟩ ∧ MasterOk (s.data grp) := by
  have hrun : (Run.runGood State.taskStep (State.taskGood Task.KeepsMaster) {} masterTasks).map
      (fun s => (s.data grp).row) = some (some ⟨1, 0, .normalGroupstatus, "bob", 0⟩) := by
    decide +kernel
  obtain ⟨s, hgood, hrow⟩ := Option.map_eq_some_iff.mp hrun
  exact ⟨s, Run.run_of_runGood hgood, hrow, master_kept (Run.reaches_of_runGood hgood) grp⟩

/-- Ann kicks out herself, and the group goes on under her name. -/
theorem master_gone_kicked :
    ∃ s, Run.run State.taskStep {}
        [({}, .create { userId := "ann", groupId := grp, inviteUserIds := ["bob"] }),
          ({}, .kickOut ⟨"ann", "ann", grp⟩)] = some s ∧
      (s.data grp).row = some ⟨1, 0, .normalGroupstatus, "ann", 0⟩ ∧
      (s.data grp).members.lookup "ann" = some .quitMember ∧ ¬ MasterOk (s.data grp) := by
  have hrun : (Run.run State.taskStep {}
      [({}, .create { userId := "ann", groupId := grp, inviteUserIds := ["bob"] }),
        ({}, .kickOut ⟨"ann", "ann", grp⟩)]).map
      (fun s => ((s.data grp).row, (s.data grp).members.lookup "ann")) =
        some (some ⟨1, 0, .normalGroupstatus, "ann", 0⟩, some .quitMember) := by
    decide +kernel
  obtain ⟨s, hrun, heq⟩ := Option.map_eq_some_iff.mp hrun
  obtain ⟨hrow, hquit⟩ := Prod.mk.inj heq
  refine ⟨s, hrun, hrow, hquit, ?_⟩
  intro hok
  have hmaster := (hok _ hrow rfl "ann").mpr rfl
  cases hquit.symm.trans hmaster

end Group

end ImServer
