import ImServer.Group.TaskOutcomes
import ImServer.Lib.Threads

/-!
# The commands of the tasks that change members

The threads of the pool each run a task (group/dbhelper.cpp), and the statements and commands of
their tasks interleave. A task looks at the group first and decides whether members join or leave;
what it does then to the rows, the hashes and the counts are single statements and commands. A task
that nothing interrupts does what it does in the sequential model.
-/

namespace ImServer

namespace Group

open Threads (Alone)

/-- Users who join at once. -/
structure Joining where
  userIds : List String
  nodup : userIds.Nodup
  status : MemberStatus
  active : status.isActive = true

inductive Change where
  | join (joining : Joining)
  | remove (userId : String)

namespace Change

/-- The number that goes to `UpdateGroupCount`, in 16 bits. -/
def nCount : Change → Nat
  | join joining => joining.userIds.length % 2 ^ 16
  | remove _ => 1

def dec : Change → Bool
  | join _ => false
  | remove _ => true

/-- The count in redis that follows on another; what is not positive in the source is 0 here. -/
def newCount (c : Change) (count : Nat) : Nat := if c.dec then count - c.nCount else count + c.nCount

end Change

/-- How a task goes on after its change: its code, and whether a group that was only deposited
becomes a normal one. -/
structure Ending where
  err : ErrCode
  activates : Bool := false

/-- What a task decides after its checks. -/
inductive Verdict where
  | answer (err : ErrCode)
  | change (c : Change) (ending : Ending)
  | activate (err : ErrCode)

/-- Where a thread is: the command that it does next. Between two commands other threads may change
the group. -/
inductive Place where
  | checks (next : GroupData → Look GroupData Verdict)
  /-- The rows of groupmember_t. -/
  | rows (c : Change) (ending : Ending)
  /-- The hash `GRPM_`; for a removal its length is asked for first. -/
  | hash (c : Change) (ending : Ending)
  | hdel (userId : String) (ending : Ending) (len : Nat)
  /-- `select count(*)`. -/
  | select (c : Change) (ending : Ending)
  /-- `update group_t set group_count`. -/
  | update (c : Change) (ending : Ending) (nNumber : Nat)
  /-- The field of the hash `GRP_`. -/
  | hmget (c : Change) (ending : Ending)
  | store (c : Change) (ending : Ending) (count : Nat)
  /-- `UpdateGroupStatus`, for a group without members. -/
  | dismiss (ending : Ending)
  | activateRow (err : ErrCode)
  | activateCache (err : ErrCode)
  | done (err : ErrCode)

def Ending.place (ending : Ending) : Place :=
  if ending.activates then .activateRow ending.err else .done ending.err

def Verdict.place : Verdict → Place
  | answer err => .done err
  | change c ending => .rows c ending
  | activate err => .activateRow err

/-- The place of a thread that has these looks ahead of it. -/
def Place.ofLook : Look GroupData Verdict → Place
  | .done verdict => verdict.place
  | .look next => .checks next

/-- One command of a thread, on the data as the other threads have left it. -/
def Place.turn : Place → GroupData → Option (Place × GroupData)
  | checks next, d => some (ofLook (next d), d)
  | rows (.join j) ending, d =>
    some (hash (.join j) ending, { d with members := d.members.insertAll j.userIds j.status })
  | rows (.remove userId) ending, d =>
    some (hash (.remove userId) ending, { d with members := d.members.update userId .quitMember })
  | hash (.join j) ending, d =>
    some (select (.join j) ending, { d with memCache := d.memCache.insertAll j.userIds j.status })
  | hash (.remove userId) ending, d => some (hdel userId ending d.memCache.entries.length, d)
  | hdel userId ending len, d =>
    some (select (.remove userId) ending,
      { d with memCache := if len ≤ 1 then ∅ else d.memCache.erase userId })
  | select c ending, d => some (update c ending (d.active % 2 ^ 16), d)
  | update c ending nNumber, d =>
    some (hmget c ending, { d with row := d.row.map fun row => { row with count := nNumber } })
  | hmget c ending, d =>
    match d.cache.count with
    | none => some (dismiss ending, d)
    | some count => some (store c ending count, d)
  | store c ending count, d =>
    some (dismiss ending,
      { d with
        cache := if c.newCount count = 0 then {} else { d.cache with count := some (c.newCount count) } })
  | dismiss ending, d => some (ending.place, updateGroupStatus .dismissGroupstatus d)
  | activateRow err, d => some (activateCache err, updateGroupStatus .normalGroupstatus d)
  | activateCache err, d =>
    some (done err, { d with cache := Redis.updateGroupStatus .normalGroupstatus d.cache })
  | done _, _ => none

def lookGroupInfo (junk : GroupInfo) : Look GroupData GroupInfo :=
  .look fun d =>
    match Redis.getGroupInfo d.cache with
    | some info => .done info
    | none => .look fun d => .done (mysqlGetGroupInfo d.row junk)

def lookMember (userId : String) : Look GroupData (ErrCode × Option MemberStatus) :=
  .look fun d =>
    match d.memCache.lookup userId with
    | some status => .done (.errGroupMemberexist, some status)
    | none => .look fun d =>
      match d.members.lookup userId with
      | none => .done (.errGroupMembernonexist, none)
      | some .quitMember => .done (.errGroupMembernonexist, some .quitMember)
      | some status => .done (.errGroupMemberexist, some status)

def lookMaster (userId : String) : Look GroupData ErrCode :=
  (lookGroupInfo {}).bind fun info =>
    .done (if userId = info.masterId then .errGroupMaster else .errGroupNotmaster)

/-- Whether one who was found like this may join. -/
def joins (member : ErrCode × Option MemberStatus) : Bool :=
  member.1 = .errGroupMembernonexist || (member.1 = .errGroupMemberexist && member.2 = some .quitMember)

def lookApplyAuth (env : Env) (msg : GroupApply) : Look GroupData ErrCode :=
  (lookGroupInfo (env.junk 0)).bind fun info =>
    let limit : ErrCode := if maxGroupmember ≤ info.nGroupNumber + 1 then .errGroupOverjoin else .nonErr
    if info.bStatus = .dismissGroupstatus then .done .errGroupDismissed
    else if info.bStatus = .normalGroupstatus ∨ info.bStatus = .depositGroupstatus then
      if msg.applyType = .face2faceAppy then
        if isLate env.now info.createTime then .done .errGroupForbidden
        else (lookMaster msg.userId).bind fun master =>
          .done (if master = .errGroupMaster ∧ info.bStatus = .depositGroupstatus then .errGroupMaster
            else limit)
      else .done limit
    else .done .errGroupNetworkexception

def one (userId : String) (status : MemberStatus) (active : status.isActive = true) : Change :=
  .join ⟨[userId], List.nodup_singleton _, status, active⟩

def applyChecks (env : Env) (msg : GroupApply) : Look GroupData Verdict :=
  (lookApplyAuth env msg).bind fun err =>
    if err ≠ .nonErr then .done (.answer err)
    else if env.userInfo msg.userId = none then .done (.answer .errGroupForbidden)
    else (lookMember msg.userId).bind fun member =>
      if joins member then
        (lookGroupInfo (env.junk 1)).bind fun info =>
          let code := groupPermissionCode env info.bPermit
          if info.bStatus = .normalGroupstatus ∨ info.bStatus = .depositGroupstatus then
            if info.bPermit = 0 then
              .done (.change (one msg.userId .applyMember rfl)
                ⟨.nonErr, info.bStatus = .depositGroupstatus⟩)
            else if code = .nonErr ∧ info.bStatus = .depositGroupstatus then .done (.activate .nonErr)
            else .done (.answer code)
          else .done (.answer code)
      else .done (.answer .errGroupMemberexist)

/-- `ParseInviteeList`. -/
def lookInvitees (env : Env) : List String → InviteeUserMap → Look GroupData InviteeUserMap
  | [], map => .done map
  | userId :: userIds, map =>
    (lookMember userId).bind fun member =>
      lookInvitees env userIds
        (if joins member then
          match verifyGroupUserPermission env userId with
          | some bGroupPermit => map.insert userId bGroupPermit
          | none => map
        else map)

def inviteChecks (env : Env) (msg : GroupInvite) : Look GroupData Verdict :=
  (lookGroupInfo (env.junk 0)).bind fun info =>
    let err := verifyGroupInviteAuth info msg.inviteeIds.length
    if err ≠ .nonErr then .done (.answer err)
    else if env.userInfo msg.inviterId = none then .done (.answer .errGroupForbidden)
    else (lookInvitees env msg.inviteeIds ∅).bind fun map =>
      if (joining map).length % 2 ^ 16 = 0 then .done (.answer .errGroupInviteexception)
      else
        .done (.change (.join ⟨joining map, AList.keys_nodup _, .inviteMember, rfl⟩)
          { err := .errGroupInvitesuccess })

def permitChecks (env : Env) (msg : GroupPermit) : Look GroupData Verdict :=
  (lookGroupInfo (env.junk 0)).bind fun info =>
    if info.bStatus = .normalGroupstatus then
      (lookMember msg.userId).bind fun member =>
        if member.1 = .errGroupMembernonexist ∨ member.2 = some .quitMember then
          .done (.change
            (if msg.rspType = 0 then one msg.userId .applyMember rfl
              else one msg.userId .inviteMember rfl)
            { err := .nonErr })
        else .done (.answer .errGroupMemberexist)
    else .done (.answer .errGroupDismissed)

def quitChecks (env : Env) (msg : GroupQuit) : Look GroupData Verdict :=
  (lookMember msg.userId).bind fun member =>
    if member.1 ≠ .errGroupMemberexist then .done (.answer .errGroupMembernonexist)
    else (lookGroupInfo (env.junk 0)).bind fun info =>
      if info.bStatus ≠ .normalGroupstatus then .done (.answer .errGroupForbidden)
      else if info.masterId = msg.userId ∧
        1 < info.nGroupNumber then .done (.answer .errGroupMasterQuit)
      else .done (.change (.remove msg.userId) { err := .nonErr })

def kickOutChecks (msg : GroupKickOut) : Look GroupData Verdict :=
  (lookMember msg.kickId).bind fun member =>
    if member.1 = .errGroupMemberexist then
      (lookMaster msg.userId).bind fun master =>
        if master = .errGroupMaster then .done (.change (.remove msg.kickId) { err := .nonErr })
        else .done (.answer .errGroupForbidden)
    else .done (.answer .errGroupMembernonexist)

/-- A task that lets members join or leave, with the message that it handles. -/
inductive MemberTask where
  | apply (msg : GroupApply)
  | invite (msg : GroupInvite)
  | permit (msg : GroupPermit)
  | quit (msg : GroupQuit)
  | kickOut (msg : GroupKickOut)
  deriving DecidableEq, Repr

namespace MemberTask

def task : MemberTask → Task
  | apply msg => .apply msg
  | invite msg => .invite msg
  | permit msg => .permit msg
  | quit msg => .quit msg
  | kickOut msg => .kickOut msg

def checks (env : Env) : MemberTask → Look GroupData Verdict
  | apply msg => applyChecks env msg
  | invite msg => inviteChecks env msg
  | permit msg => permitChecks env msg
  | quit msg => quitChecks env msg
  | kickOut msg => kickOutChecks msg

/-- Where the thread of a task starts: at its first check, or at the answer if that needs no look at
the data. -/
def start (env : Env) (t : MemberTask) : Place := .ofLook (t.checks env)

end MemberTask

section Alone

variable {env : Env} {d : GroupData} {junk : GroupInfo} {userId : String}

@[simp] theorem eval_lookGroupInfo : (lookGroupInfo junk).eval d = getGroupInfo junk d := by
  rw [lookGroupInfo, Look.eval_look, getGroupInfo]
  cases Redis.getGroupInfo d.cache with
  | none => rfl
  | some info => rfl

@[simp] theorem eval_lookMember : (lookMember userId).eval d = isMember d userId := by
  rw [lookMember, Look.eval_look, isMember]
  cases d.memCache.lookup userId with
  | some status => rfl
  | none =>
    simp only [Look.eval_look]
    cases d.members.lookup userId with
    | none => rfl
    | some status => cases status <;> rfl

@[simp] theorem eval_lookMaster : (lookMaster userId).eval d = isMaster d userId := by
  rw [lookMaster, Look.eval_bind, eval_lookGroupInfo]
  rfl

theorem eval_lookApplyAuth (msg : GroupApply) : (lookApplyAuth env msg).eval d =
    verifyGroupApplyAuth env d msg.userId msg.applyType (getGroupInfo (env.junk 0) d) := by
  rw [lookApplyAuth, Look.eval_bind, eval_lookGroupInfo, verifyGroupApplyAuth]
  generalize getGroupInfo (env.junk 0) d = info
  by_cases hdismissed : info.bStatus = .dismissGroupstatus
  · simp [hdismissed]
  · by_cases hstatus : info.bStatus = .normalGroupstatus ∨ info.bStatus = .depositGroupstatus
    · by_cases hface : msg.applyType = .face2faceAppy
      · by_cases hlate : isLate env.now info.createTime = true
        · simp [hdismissed, hstatus, hface, hlate]
        · simp [hdismissed, hstatus, hface, hlate]
      · simp [hdismissed, hstatus, hface]
    · simp [hdismissed, hstatus]

theorem eval_lookInvitees (userIds : List String) (map : InviteeUserMap) :
    (lookInvitees env userIds map).eval d =
      userIds.foldl
        (fun map userId =>
          if mayJoin d userId then
            match verifyGroupUserPermission env userId with
            | some bGroupPermit => map.insert userId bGroupPermit
            | none => map
          else map) map := by
  induction userIds generalizing map with
  | nil => rfl
  | cons userId userIds ih =>
    rw [lookInvitees, Look.eval_bind, eval_lookMember, ih, List.foldl_cons]
    rfl

namespace Change

/-- What the change does to a group, if nothing interrupts. -/
def apply : Change → GroupData → GroupData
  | join j, d => joined d j.userIds j.status
  | remove userId, d => removeGroupMember userId d

end Change

/-- What a verdict leads to, if nothing interrupts: the code that is answered, and the data after
all commands. -/
def Verdict.result (d : GroupData) : Verdict → ErrCode × GroupData
  | answer err => (err, d)
  | change c ending => (ending.err, if ending.activates then activated (c.apply d) else c.apply d)
  | activate err => (err, activated d)

theorem alone_activate (d : GroupData) (err : ErrCode) :
    Alone Place.turn (.activateRow err, d) (.done err, activated d) := by
  refine .head rfl (.head rfl ?_)
  exact .refl

theorem alone_ending (ending : Ending) (d : GroupData) : Alone Place.turn (ending.place, d)
    (.done ending.err, if ending.activates then activated d else d) := by
  unfold Ending.place
  split
  · exact alone_activate d ending.err
  · exact .refl

theorem turn_hmget_of_none {c : Change} {ending : Ending} (h : d.cache.count = none) :
    Place.turn (.hmget c ending) d = some (.dismiss ending, d) := by
  simp only [Place.turn, h]

theorem turn_hmget_of_some {c : Change} {ending : Ending} {count : Nat}
    (h : d.cache.count = some count) :
    Place.turn (.hmget c ending) d = some (.store c ending count, d) := by
  simp only [Place.turn, h]

theorem alone_select (c : Change) (ending : Ending) (d : GroupData) :
    Alone Place.turn (.select c ending, d)
      (.done ending.err,
        if ending.activates then activated (updateGroupCount c.nCount c.dec d)
        else updateGroupCount c.nCount c.dec d) := by
  refine .trans (.head rfl (.head rfl ?_)) (alone_ending ending _)
  cases hcount : d.cache.count with
  | none =>
    have hcache : Redis.updateGroupCount c.nCount c.dec d.cache = d.cache := by
      rw [Redis.updateGroupCount, hcount]
    refine .head (turn_hmget_of_none hcount) (.head rfl ?_)
    rw [updateGroupCount, hcache]
    exact .refl
  | some count =>
    have hcache : Redis.updateGroupCount c.nCount c.dec d.cache =
        if c.newCount count = 0 then {} else { d.cache with count := some (c.newCount count) } := by
      rw [Redis.updateGroupCount, hcount]
      rfl
    refine .head (turn_hmget_of_some hcount) (.head rfl (.head rfl ?_))
    rw [updateGroupCount, hcache]
    exact .refl

theorem alone_rows (c : Change) (ending : Ending) (d : GroupData) : Alone Place.turn (.rows c ending, d)
    (.done ending.err, if ending.activates then activated (c.apply d) else c.apply d) := by
  cases c with
  | join j => exact .head rfl (.head rfl (alone_select (.join j) ending _))
  | remove userId => exact .head rfl (.head rfl (.head rfl (alone_select (.remove userId) ending _)))

theorem alone_verdict (d : GroupData) (verdict : Verdict) :
    Alone Place.turn (verdict.place, d) (.done (verdict.result d).1, (verdict.result d).2) := by
  cases verdict with
  | answer err => exact .refl
  | change c ending => exact alone_rows c ending d
  | activate err => exact alone_activate d err

theorem alone_look (p : Look GroupData Verdict) (d : GroupData) :
    Alone Place.turn (.ofLook p, d) ((p.eval d).place, d) := by
  induction p with
  | done verdict => exact .refl
  | look next ih => exact .head rfl (ih d)

theorem joins_isMember (d : GroupData)
    (userId : String) : joins (isMember d userId) = mayJoin d userId :=
  rfl

theorem result_applyChecks (msg : GroupApply) : ((applyChecks env msg).eval d).result d =
    ((applyGroup env msg d).err, (applyGroup env msg d).data) := by
  rw [applyChecks, Look.eval_bind, eval_lookApplyAuth]
  unfold applyGroup
  by_cases hauth : verifyGroupApplyAuth env d msg.userId msg.applyType
      (getGroupInfo (env.junk 0) d) = .nonErr
  · by_cases huser : env.userInfo msg.userId = none
    · simp [hauth, huser, Verdict.result]
    · by_cases hjoin : mayJoin d msg.userId = true
      · simp only [hauth, huser, hjoin, ne_eq, not_true, if_false, if_true, Look.eval_bind,
          eval_lookMember,
          joins_isMember, eval_lookGroupInfo]
        generalize getGroupInfo (env.junk 1) d = info
        by_cases hstatus : info.bStatus = .normalGroupstatus ∨ info.bStatus = .depositGroupstatus
        · by_cases hpermit : info.bPermit = 0
          · by_cases hdeposit : info.bStatus = .depositGroupstatus
            · simp [hpermit, hdeposit, Verdict.result, Change.apply, one, activated,
                insertGroupMember_eq]
              rfl
            · have hnormal := hstatus.resolve_right hdeposit
              simp [hnormal, hpermit, Verdict.result, Change.apply, one, insertGroupMember_eq]
          · by_cases hactivate : groupPermissionCode env info.bPermit = .nonErr ∧
                info.bStatus = .depositGroupstatus
            · simp [hpermit, hactivate, Verdict.result, activated]
              rfl
            · simp [hstatus, hpermit, hactivate, Verdict.result]
        · simp [hstatus, Verdict.result]
      · simp [hauth, huser, hjoin, joins_isMember, Verdict.result]
  · simp [hauth, Verdict.result]

theorem result_inviteChecks (msg : GroupInvite) : ((inviteChecks env msg).eval d).result d =
    ((inviteGroup env msg d).err, (inviteGroup env msg d).data) := by
  rw [inviteChecks, Look.eval_bind, eval_lookGroupInfo]
  unfold inviteGroup
  by_cases hauth : verifyGroupInviteAuth (getGroupInfo (env.junk 0) d) msg.inviteeIds.length = .nonErr
  · by_cases huser : env.userInfo msg.inviterId = none
    · simp [hauth, huser, Verdict.result]
    · have hmap : (lookInvitees env msg.inviteeIds ∅).eval d = parseInviteeList env d msg.inviteeIds :=
        eval_lookInvitees msg.inviteeIds ∅
      simp only [hauth, huser, ne_eq, not_true, if_false, Look.eval_bind, hmap, insertMultiGroupMember]
      by_cases hnone : (joining (parseInviteeList env d msg.inviteeIds)).length % 2 ^ 16 = 0
      · simp only [if_pos hnone, Look.eval_done, Verdict.result]
      · simp only [hnone, if_false, Look.eval_done, Verdict.result]
        rfl
  · simp [hauth, Verdict.result]

theorem result_permitChecks (msg : GroupPermit) : ((permitChecks env msg).eval d).result d =
    ((joinDirectlyGroupProc env msg d).err, (joinDirectlyGroupProc env msg d).data) := by
  rw [permitChecks, Look.eval_bind, eval_lookGroupInfo]
  unfold joinDirectlyGroupProc
  split
  · rw [Look.eval_bind, eval_lookMember]
    split
    · rw [Look.eval_done]
      split
      · rfl
      · rfl
    · rfl
  · rfl

theorem result_quitChecks (msg : GroupQuit) : ((quitChecks env msg).eval d).result d =
    ((quitGroup env msg d).err, (quitGroup env msg d).data) := by
  rw [quitChecks, Look.eval_bind, eval_lookMember]
  unfold quitGroup
  split
  · rfl
  · rw [Look.eval_bind, eval_lookGroupInfo]
    dsimp only
    split
    · rfl
    · split
      · rfl
      · rfl

theorem result_kickOutChecks (msg : GroupKickOut) : ((kickOutChecks msg).eval d).result d =
    ((kickoutGroup msg d).err, (kickoutGroup msg d).data) := by
  rw [kickOutChecks, Look.eval_bind, eval_lookMember]
  unfold kickoutGroup
  split
  · rw [Look.eval_bind, eval_lookMaster]
    split
    · rfl
    · rfl
  · rfl

/-- The checks decide what the sequential model of the task decides. -/
theorem result_checks (env : Env) (number : Nat) (d : GroupData) (t : MemberTask) :
    ((t.checks env).eval d).result d =
      ((t.task.run env number d).err, (t.task.run env number d).data) := by
  cases t with
  | apply msg => exact result_applyChecks msg
  | invite msg => exact result_inviteChecks msg
  | permit msg => exact result_permitChecks msg
  | quit msg => exact result_quitChecks msg
  | kickOut msg => exact result_kickOutChecks msg

/-- A task that nothing interrupts does what it does in the sequential model. -/
theorem alone_task (env : Env) (number : Nat) (d : GroupData) (t : MemberTask) :
    Alone Place.turn (t.start env, d)
      (.done (t.task.run env number d).err, (t.task.run env number d).data) := by
  have hverdict := alone_verdict d ((t.checks env).eval d)
  rw [result_checks env number] at hverdict
  exact (alone_look (t.checks env) d).trans hverdict

end Alone

end Group

end ImServer
