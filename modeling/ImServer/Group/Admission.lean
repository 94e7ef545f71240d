import ImServer.Group.PlainIds
import ImServer.Group.SoundCache

/-!
# Who is admitted to a group

A user joins a group by his own apply, by the invitation of a member, or by a permit that
answers a join request. The server sends the join requests and forgets them, and it knows the
sender of a request only by the field that he fills in. A run here keeps both: the client that
a request comes from, and the join requests that were sent.
-/

namespace ImServer

namespace Group

inductive JoinMode where
  | applyJoinMode
  | inviteJoinMode
  deriving DecidableEq, Repr

/-- `MESJoinGrp`, with the client whose request it comes from and whether he was an active
member then. -/
structure JoinReq where
  fromId : String
  toId : String
  grpId : String
  reqType : JoinMode
  client : String
  member : Bool
  deriving DecidableEq, Repr

/-- The invitees who are asked. -/
def asked (map : InviteeUserMap) : List String := (Table.select (· != 0) map).keys

/-- What `OnCreateStartup` and `OnJoinStartup` send after a task. -/
def Task.joinReqs (client : String) (d : GroupData) (result : TaskResult) : Task → List JoinReq
  | create msg =>
    if msg.Invites ∧ (result.err = .errGroupInviteexception ∨ result.err = .errGroupInvitesuccess) then
      (asked result.inviteeUserMap).map fun userId =>
        ⟨msg.userId, userId, msg.groupId, .inviteJoinMode, client, decide (result.data.IsActive client)⟩
    else []
  | apply msg =>
    if result.err = .errGroupInterpermission then
      [⟨msg.userId, result.masterId, msg.groupId, .applyJoinMode, client, decide (d.IsActive client)⟩]
    else []
  | invite msg =>
    (asked result.inviteeUserMap).map fun userId =>
      ⟨msg.inviterId, userId, msg.groupId, .inviteJoinMode, client, decide (d.IsActive client)⟩
  | _ => []

/-- The server with the join requests that it has sent. -/
structure Sessions where
  state : State := {}
  joinReqs : List JoinReq := []

/-- An event, with the client that it comes from. -/
structure Request where
  client : String
  event : Event

/-- The join requests of a request. -/
def Request.joinReqs (s : State) (r : Request) : List JoinReq :=
  match r.event with
  | .task env t =>
    match s.runTask env t with
    | some result => t.joinReqs r.client (s.data t.groupId) result
    | none => []
  | _ => []

def Sessions.step (s : Sessions) (r : Request) : Option Sessions := do
  let state ← s.state.step r.event
  return ⟨state, s.joinReqs ++ r.joinReqs s.state⟩

/-- The ways into a group that are there: an own apply to a group that is open, the invitation
of a member for those who need not be asked, the answer of the master to an own apply, and the
own answer to the invitation of a member. -/
inductive Authorised (s : Sessions) (client : String) : Event → String → Prop where
  | apply (env : Env) (msg : GroupApply) (row : GroupRow) :
      (s.state.data msg.groupId).row = some row → row.permission = 0 → msg.userId = client →
      Authorised s client (.task env (.apply msg)) client
  | invite (env : Env) (msg : GroupInvite) (userId : String) :
      (s.state.data msg.groupId).IsActive client → userId ∈ msg.inviteeIds →
      env.inGroupAllow userId = some 0 → Authorised s client (.task env (.invite msg)) userId
  | permitApply (env : Env) (msg : GroupPermit) (row : GroupRow) (joinReq : JoinReq) :
      (s.state.data msg.grpId).row = some row → row.masterId = client → joinReq ∈ s.joinReqs →
      joinReq.reqType = .applyJoinMode → joinReq.grpId = msg.grpId →
      joinReq.client = joinReq.fromId →
      Authorised s client (.task env (.permit msg)) joinReq.fromId
  | permitInvite (env : Env) (msg : GroupPermit) (joinReq : JoinReq) : joinReq ∈ s.joinReqs →
      joinReq.reqType = .inviteJoinMode → joinReq.grpId = msg.grpId → joinReq.toId = client →
      joinReq.member = true → Authorised s client (.task env (.permit msg)) client

/-- The client may answer a join request with the permit: as the master an apply of the one whom
he permits, and as the invitee himself an invitation. -/
def Sessions.Answers (s : Sessions) (client : String) (msg : GroupPermit) : Prop :=
  (msg.rspType = 0 ∧ (∃ row ∈ (s.state.data msg.grpId).row, row.masterId = client) ∧
    ∃ joinReq ∈ s.joinReqs, joinReq.reqType = .applyJoinMode ∧ joinReq.grpId = msg.grpId ∧
      joinReq.fromId = msg.toId) ∨
  (msg.rspType ≠ 0 ∧ msg.fromId = client ∧
    ∃ joinReq ∈ s.joinReqs, joinReq.reqType = .inviteJoinMode ∧ joinReq.grpId = msg.grpId ∧
      joinReq.toId = client)

/-- Clients create groups and apply in their own names, those who invite are members, permits
answer join requests, and the master does not change to a former member. -/
def Sessions.Honest (s : Sessions) (client : String) (env : Env) (d : GroupData) : Task → Prop
  | .create msg => msg.userId = client
  | .apply msg => msg.userId = client
  | .invite msg =>
    verifyGroupInviteAuth (getGroupInfo (env.junk 0) d) msg.inviteeIds.length = .nonErr →
      d.IsActive client
  | .permit msg =>
    (getGroupInfo (env.junk 0) d).bStatus = .normalGroupstatus → ¬ d.IsActive msg.userId →
      s.Answers client msg
  | .modify msg =>
    isMaster d msg.userId = .errGroupMaster → d.members.lookup msg.involvedId ≠ some .quitMember
  | _ => True

/-- An event with plain ids and texts, and a task of an honest client. -/
def Sessions.good (s : Sessions) (r : Request) : Prop :=
  r.event.Plain ∧
    match r.event with
    | .task env t => t.checks = true → s.Honest r.client env (s.state.data t.groupId) t
    | _ => True

instance (s : Sessions) (client : String) (msg : GroupPermit) : Decidable (s.Answers client msg) :=
  inferInstanceAs (Decidable (_ ∨ _))

instance (s : Sessions) (client : String) (env : Env) (d : GroupData) :
    (t : Task) → Decidable (s.Honest client env d t)
  | .create _ | .apply _ => inferInstanceAs (Decidable (_ = _))
  | .invite _ | .modify _ => inferInstanceAs (Decidable (_ → _))
  | .permit _ => inferInstanceAs (Decidable (_ → _ → _))
  | .quit _ | .kickOut _ => .isTrue trivial

instance decidableSessionsGood (s : Sessions) : (r : Request) → Decidable (s.good r)
  | ⟨_, .task ..⟩ => inferInstanceAs (Decidable (_ ∧ (_ → _)))
  | ⟨_, .chat ..⟩ | ⟨_, .chatCancel _⟩ => inferInstanceAs (Decidable (_ ∧ True))

section Admitting

variable {env : Env} {d d' : GroupData} {userId : String}

theorem isActive_joined {userIds : List String} {status : MemberStatus} :
    (joined d userIds status).IsActive userId ↔
      if userId ∈ userIds then status.isActive = true else d.IsActive userId := by
  unfold GroupData.IsActive
  rw [lookup_joined]
  split
  · rfl
  · rfl

end Admitting

/-- Applies come from the applicants, and invitations from active members. -/
def JoinReq.Genuine (joinReq : JoinReq) : Prop :=
  (joinReq.reqType = .applyJoinMode → joinReq.client = joinReq.fromId) ∧
    (joinReq.reqType = .inviteJoinMode → joinReq.member = true)

theorem createGroupProc_asked (env : Env) (d : GroupData) (number : Nat) (msg : GroupCreate) :
    (createGroupProc env number msg d).inviteeUserMap = ∅ ∨
      (createGroupProc env number msg d).data.IsActive msg.userId := by
  unfold createGroupProc
  split
  · exact .inl rfl
  · split
    · exact .inl rfl
    · split
      · exact .inl rfl
      · cases hinsert : insertGroup env msg d with
        | none => exact .inl rfl
        | some d' =>
          dsimp only
          split
          · have hcreator : d'.IsActive msg.userId := by
              unfold insertGroup at hinsert
              split at hinsert
              · cases hinsert
              · obtain rfl := Option.some.inj hinsert
                simp [GroupData.IsActive, insertGroupMember, MemberStatus.isActive]
            refine .inr ?_
            obtain hsame | hjoined := insertMultiGroupMember_cases
              (parseInviteeList env d' msg.inviteUserIds) .inviteMember d'
            · simp only [hsame]
              exact hcreator
            · simp only [hjoined, isActive_joined]
              split
              · rfl
              · exact hcreator
          · exact .inl rfl

theorem inviteGroup_asked (env : Env) (d : GroupData) (msg : GroupInvite) :
    (inviteGroup env msg d).inviteeUserMap = ∅ ∨
      verifyGroupInviteAuth (getGroupInfo (env.junk 0) d) msg.inviteeIds.length = .nonErr := by
  unfold inviteGroup
  dsimp only
  split
  · exact .inl rfl
  · next hauth => exact .inr (not_not.mp hauth)

theorem Sessions.Honest.genuine {s : Sessions} {client : String} {env : Env} {d : GroupData}
    {t : Task} (h : s.Honest client env d t) (number : Nat) :
    ∀ joinReq ∈ t.joinReqs client d (t.run env number d), joinReq.Genuine := by
  intro joinReq hmem
  cases t with
  | create msg =>
    simp only [Task.joinReqs, List.mem_ite_nil_right, List.mem_map] at hmem
    obtain ⟨-, userId, hasked, rfl⟩ := hmem
    have hasked : userId ∈ asked (createGroupProc env number msg d).inviteeUserMap := hasked
    refine ⟨nofun, fun _ => decide_eq_true ?_⟩
    obtain hnone | hactive := createGroupProc_asked env d number msg
    · rw [hnone] at hasked
      cases hasked
    · rwa [show client = msg.userId from h.symm]
  | apply msg =>
    simp only [Task.joinReqs, List.mem_ite_nil_right, List.mem_singleton] at hmem
    obtain ⟨-, rfl⟩ := hmem
    exact ⟨fun _ => h.symm, nofun⟩
  | invite msg =>
    simp only [Task.joinReqs, Task.run] at hmem
    obtain ⟨userId, hasked, rfl⟩ := List.mem_map.mp hmem
    refine ⟨nofun, fun _ => decide_eq_true ?_⟩
    obtain hnone | hauth := inviteGroup_asked env d msg
    · rw [hnone] at hasked
      cases hasked
    · exact h hauth
  | permit msg => cases hmem
  | quit msg => cases hmem
  | kickOut msg => cases hmem
  | modify msg => cases hmem

/-- What good runs keep: the data are sound, and the join requests that were sent are genuine. -/
structure Sessions.Inv (s : Sessions) : Prop where
  sound : ∀ groupId, Sound (s.state.data groupId)
  genuine : ∀ joinReq ∈ s.joinReqs, joinReq.Genuine

namespace Sessions

variable {s s' : Sessions} {r : Request}

theorem step_eq_some : s.step r = some s' ↔
    ∃ state, s.state.step r.event = some state ∧ s' = ⟨state, s.joinReqs ++ r.joinReqs s.state⟩ := by
  unfold step
  rw [Option.bind_eq_bind, Option.bind_eq_some_iff]
  exact exists_congr fun state => and_congr_right fun _ => Option.some_inj.trans eq_comm

theorem Inv.step (hinv : s.Inv) (hgood : s.good r) (hstep : s.step r = some s') : s'.Inv := by
  obtain ⟨state, hstate, rfl⟩ := step_eq_some.mp hstep
  refine ⟨State.forall_step hinv.sound (Sound.apply hinv.sound r.event) hstate, ?_⟩
  intro joinReq hmem
  obtain hold | hnew := List.mem_append.mp hmem
  · exact hinv.genuine joinReq hold
  · obtain ⟨client, event⟩ := r
    cases event with
    | task env t =>
      simp only [Request.joinReqs, State.runTask] at hnew
      split at hnew
      · next result hrun =>
        obtain ⟨hchecks, rfl⟩ := Option.ite_some_none_eq_some.mp hrun
        exact (hgood.2 hchecks).genuine _ joinReq hnew
      · cases hnew
    | chat env msg => cases hnew
    | chatCancel msg => cases hnew

end Sessions

end Group

end ImServer
