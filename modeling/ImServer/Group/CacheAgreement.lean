import ImServer.Group.TaskEffects

/-!
# The caches agree with the tables

Tasks keep the groups in step where they look at the right user and where 16 bits are enough
for the count, and chats do so unless they come from former members.
-/

namespace ImServer

namespace Group

/-- The count of the group is that of its active members, the record in redis has the same
count, master and status, and those who count as members are the active ones. -/
structure Agrees (d : GroupData) : Prop where
  count : ∀ row ∈ d.row, row.count = d.active
  cache : ∀ row ∈ d.row, (∀ n ∈ d.cache.count, n = row.count) ∧
    (∀ masterId ∈ d.cache.master, masterId = row.masterId) ∧
    ∀ status ∈ d.cache.status, status = row.status
  member : ∀ userId, (isMember d userId).1 = .errGroupMemberexist ↔ d.IsActive userId

/-- Regular tasks, and chats and cancels that are not from former members. -/
def Event.Regular (s : State) : Event → Prop
  | task env t => t.checks = true → t.Regular env (s.data t.groupId)
  | chat _ msg =>
    checkChat msg = none → (s.data msg.grpId).members.lookup msg.fromId ≠ some .quitMember
  | chatCancel msg =>
    checkChatCancel msg = true →
      (s.data msg.groupId).members.lookup msg.fromId ≠ some .quitMember

instance (s : State) : (e : Event) → Decidable (e.Regular s)
  | .task .. | .chat .. | .chatCancel _ => inferInstanceAs (Decidable (_ → _))

/-- A regular event with plain ids and texts. -/
def Event.good (s : State) (e : Event) : Prop := e.Plain ∧ e.Regular s

instance (s : State) (e : Event) : Decidable (e.good s) := inferInstanceAs (Decidable (_ ∧ _))

/-- A group that is in step, or none. -/
abbrev Coherent (d : GroupData) : Prop := Synced (fun _ _ => True) d

/-- Looking for a user who is no former member keeps a group in step. -/
theorem Coherent.getGrpMem {d : GroupData} (h : Coherent d) {userId : String}
    (hnot : d.members.lookup userId ≠ some .quitMember) :
    Coherent (getGrpMem d userId).2 := by
  obtain rfl | ⟨row, hstep, -⟩ := h
  · exact .inl rfl
  · have hcached := hstep.cached.getGrpMem hnot
    obtain ⟨memCache, hframe⟩ := getGrpMem_frame d userId
    rw [hframe] at hcached ⊢
    exact .inr ⟨row,
      ⟨hstep.stored, hstep.count, hstep.bound, hstep.cache, hstep.dismissed, hcached⟩, trivial⟩

/-- Regular events keep the group that they are about in step. -/
theorem Coherent.apply {s : State} (h : ∀ groupId, Coherent (s.data groupId)) {e : Event}
    (hregular : e.Regular s) : Coherent (e.apply s) := by
  cases e with
  | task env t =>
    simp only [Event.apply, State.runTask]
    split
    · next hchecks =>
      refine (h t.groupId).run (hregular hchecks) ?_ ?_ _
      · exact fun _ _ _ _ _ _ => trivial
      · exact fun _ _ _ _ _ _ => trivial
    · exact h t.groupId
  | chat env msg =>
    obtain hsame | ⟨hcheck, hdata⟩ := onChat_data env (s.data msg.grpId) s.grpStore msg
    · exact (congrArg Coherent hsame).mpr (h msg.grpId)
    · exact (congrArg Coherent hdata).mpr ((h msg.grpId).getGrpMem (hregular hcheck))
  | chatCancel msg =>
    obtain hsame | ⟨hcheck, hdata⟩ := onChatCancel_data (s.data msg.groupId) msg
    · exact (congrArg Coherent hsame).mpr (h msg.groupId)
    · exact (congrArg Coherent hdata).mpr ((h msg.groupId).getGrpMem (hregular hcheck))

theorem Coherent.agrees {d : GroupData} (h : Coherent d) : Agrees d := by
  obtain rfl | ⟨row, hstep, -⟩ := h
  · exact ⟨fun _ h => (by cases h), fun _ h => (by cases h),
      fun _ => iff_of_false (by simp [isMember]) (by simp [GroupData.IsActive])⟩
  · refine ⟨?_, ?_, fun _ => (isMember_of_cached hstep.cached).1⟩
    · intro row' hrow'
      obtain rfl := Option.some.inj (hstep.stored.symm.trans hrow')
      exact hstep.count
    · intro row' hrow'
      obtain rfl := Option.some.inj (hstep.stored.symm.trans hrow')
      rw [hstep.cache, GroupRow.cache]
      split
      · exact ⟨fun _ h => (by cases h), fun _ h => (by cases h), fun _ h => (by cases h)⟩
      · exact ⟨fun _ h => (Option.some.inj h).symm, fun _ h => (Option.some.inj h).symm,
          fun _ h => (Option.some.inj h).symm⟩

/-- As long as former members do not chat, ids are plain and tasks are regular, the caches of all
groups agree with the tables. -/
theorem caches_agree {s : State} (h : Run.Reaches State.step (fun s e => e.good s) {} s) :
    ∀ groupId, Agrees (s.data groupId) := by
  suffices hsynced : ∀ groupId, Coherent (s.data groupId) from
    fun groupId => (hsynced groupId).agrees
  refine Run.Reaches.invariant (fun s => ∀ groupId, Coherent (s.data groupId)) ?_ ?_ h
  · exact fun _ => .inl rfl
  · intro s e s' hsynced hgood hstep
    exact State.forall_step hsynced (Coherent.apply hsynced hgood.2) hstep

/-- Ann makes a group with Bob, Carl applies, Bob quits and is invited again, Carl becomes the
master and kicks out Ann, and the members chat. -/
def exampleTasks : List Event :=
  [.task {} (.create { userId := "ann", groupId := grp, inviteUserIds := ["bob", "bob"] }),
    .task {} (.apply { userId := "carl", groupId := grp }),
    .task {} (.quit ⟨"bob", grp⟩),
    .task {} (.invite ⟨"ann", grp, ["bob", "carl"]⟩),
    .chat {} ⟨"bob", grp, "1", "hi", 0⟩,
    .task {} (.modify ⟨"ann", grp, "carl"⟩),
    .task {} (.kickOut ⟨"carl", "ann", grp⟩),
    .chatCancel ⟨"bob", grp, "1", 0⟩]

theorem caches_agree_example :
    ∃ s, Run.run State.step {} exampleTasks = some s ∧
      (s.data grp).row = some ⟨2, 0, .normalGroupstatus, "carl", 0⟩ ∧ Agrees (s.data grp) := by
  have hrun : (Run.runGood State.step (fun s e => e.good s) {} exampleTasks).map
      (fun s => (s.data grp).row) = some (some ⟨2, 0, .normalGroupstatus, "carl", 0⟩) := by
    decide +kernel
  obtain ⟨s, hgood, hrow⟩ := Option.map_eq_some_iff.mp hrun
  exact ⟨s, Run.run_of_runGood hgood, hrow, caches_agree (Run.reaches_of_runGood hgood) grp⟩

/-- Bob quits and chats, and counts as a member again; when he quits once more, the count in
redis falls behind that in the table. -/
def formerMemberChats : List Event :=
  [.task {} (.create { userId := "ann", groupId := grp, inviteUserIds := ["bob", "carl"] }),
    .task {} (.quit ⟨"bob", grp⟩),
    .chat {} ⟨"bob", grp, "1", "hi", 0⟩]

theorem caches_disagree_former :
    ∃ s, Run.run State.step {} formerMemberChats = some s ∧
      (s.data grp).members.lookup "bob" = some .quitMember ∧
      (isMember (s.data grp) "bob").1 = .errGroupMemberexist ∧ ¬ Agrees (s.data grp) ∧
      ∃ s', Run.run State.step s [.task {} (.quit ⟨"bob", grp⟩)] = some s' ∧
        ((s'.data grp).row.map (·.count), (s'.data grp).cache.count) = (some 2, some 1) := by
  have hrun : (Run.run State.step {} formerMemberChats).map (fun s =>
      ((s.data grp).members.lookup "bob", (isMember (s.data grp) "bob").1)) =
        some (some .quitMember, .errGroupMemberexist) := by
    decide +kernel
  have hagain : (Run.run State.step {} (formerMemberChats ++ [.task {} (.quit ⟨"bob", grp⟩)])).map
      (fun s => ((s.data grp).row.map (·.count), (s.data grp).cache.count)) =
        some (some 2, some 1) := by
    decide +kernel
  obtain ⟨s, hrun, heq⟩ := Option.map_eq_some_iff.mp hrun
  obtain ⟨hrow, hmember⟩ := Prod.mk.inj heq
  obtain ⟨s', hagain, hcounts⟩ := Option.map_eq_some_iff.mp hagain
  obtain ⟨s₁, hrun', hquit⟩ := Run.run_append.mp hagain
  obtain rfl := Option.some.inj (hrun.symm.trans hrun')
  refine ⟨s, hrun, hrow, hmember, ?_, s', hquit, hcounts⟩
  intro hagrees
  have hactive := (hagrees.member "bob").mp hmember
  rw [GroupData.IsActive, hrow] at hactive
  cases hactive

end Group

end ImServer
