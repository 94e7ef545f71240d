import ImServer.Lib.Run
import ImServer.Group.GroupChat

/-!
# Tasks of the group server

Requests about groups become tasks of a pool (group/groupcreate.cpp, group/groupjoin.cpp,
group/groupleave.cpp, group/groupmodify.cpp, group/dbhelper.cpp). They run one after another
here, with chats between them. Each of them is about one group.

What the other servers write is given with each task: the record of the user in redis and
what he allows. The changes of names, pictures and remarks are left out, and so are the
answers but for their codes. The tables are looked at by whole ids, as the statements of the
source do when the ids are plain texts (`Task.Plain`).
-/

namespace ImServer

namespace Group

inductive CreateType where
  | normalCreation
  | normalCreationwithhide
  | twobarcodeCreation
  | twobarcodeCreationwithhide
  deriving DecidableEq, Repr

/-- The request to create a group, with the id that the server gives it. In the source the id is
the MD5 of the message id behind the id of the app; it is taken as given here, since the buffer
for the digest has no room for its terminator and stays unset for an empty message id. The three
texts go into the row and are not looked at again. -/
structure GroupCreate where
  userId : String
  groupId : String
  permission : UInt8 := 0
  createType : CreateType := .normalCreation
  inviteUserIds : List String := []
  name : String := ""
  grpAvatar : String := ""
  remarks : String := ""
  deriving DecidableEq, Repr

inductive ApplyType where
  | normalAppy
  | face2faceAppy
  deriving DecidableEq, Repr

structure GroupApply where
  userId : String
  groupId : String
  applyType : ApplyType := .normalAppy
  deriving DecidableEq, Repr

structure GroupInvite where
  inviterId : String
  groupId : String
  inviteeIds : List String
  deriving DecidableEq, Repr

/-- The byte of the type is 0 for the answer to an apply. -/
structure GroupPermit where
  fromId : String
  toId : String
  grpId : String
  rspType : UInt8
  errcode : ErrCode := .nonErr
  deriving DecidableEq, Repr

structure GroupQuit where
  userId : String
  groupId : String
  deriving DecidableEq, Repr

structure GroupKickOut where
  userId : String
  kickId : String
  groupId : String
  deriving DecidableEq, Repr

/-- Creations that invite users at once. -/
def GroupCreate.Invites (msg : GroupCreate) : Prop :=
  msg.createType = .normalCreation ∨ msg.createType = .normalCreationwithhide

instance (msg : GroupCreate) : Decidable msg.Invites := inferInstanceAs (Decidable (_ ∨ _))

/-- A request to change the master. -/
structure GroupModify where
  userId : String
  groupId : String
  involvedId : String
  deriving DecidableEq, Repr

structure UserCache where
  nGroupLimit : Nat := 500
  deriving DecidableEq, Repr

structure Env where
  /-- The time in seconds. -/
  now : Nat := 0
  /-- The records `CM_` in redis. -/
  userInfo : String → Option UserCache := fun _ => some {}
  /-- `in_group_allow` of the table of users. -/
  inGroupAllow : String → Option UInt8 := fun _ => some 0
  /-- What the records for the group hold before they are filled, in their order. -/
  junk : Nat → GroupInfo := fun _ => {}
  /-- What is read behind the table of permissions. -/
  beyond : UInt8 → ErrCode := fun _ => .errGroupForbidden

def groupPermissionCode (env : Env) (bPermit : UInt8) : ErrCode :=
  if bPermit = 0 then .errGroupNonpermission
  else if bPermit = 1 then .errGroupInterpermission
  else if bPermit = 2 then .errGroupForbidden
  else env.beyond bPermit

/-- The permission of a user, and none if he is not found. -/
def verifyGroupUserPermission (env : Env) (userId : String) : Option UInt8 :=
  match env.inGroupAllow userId with
  | none => none
  | some bPermit => if bPermit = 0xff then none else some bPermit

/-- The number of invitees is passed in 16 bits. -/
def verifyGroupInviteAuth (info : GroupInfo) (nJoinNum : Nat) : ErrCode :=
  match info.bStatus with
  | .dismissGroupstatus => .errGroupDismissed
  | .normalGroupstatus =>
    if maxGroupmember ≤ info.nGroupNumber + nJoinNum % 2 ^ 16 then .errGroupOverjoin else .nonErr
  | _ => .errGroupNetworkexception

/-- Whether ten minutes have passed since the creation, in unsigned arithmetic. -/
def isLate (now createTime : Nat) : Bool := now < createTime || 10 * 60 ≤ now - createTime

def verifyGroupApplyAuth (env : Env) (d : GroupData) (userId : String) (applyType : ApplyType)
    (info : GroupInfo) : ErrCode :=
  if info.bStatus = .dismissGroupstatus then .errGroupDismissed
  else if info.bStatus = .normalGroupstatus ∨ info.bStatus = .depositGroupstatus then
    if applyType = .face2faceAppy ∧ isLate env.now info.createTime then .errGroupForbidden
    else if applyType = .face2faceAppy ∧ isMaster d userId = .errGroupMaster ∧
        info.bStatus = .depositGroupstatus then .errGroupMaster
    else if maxGroupmember ≤ info.nGroupNumber + 1 then .errGroupOverjoin
    else .nonErr
  else .errGroupNetworkexception

/-- `ParseInviteeList` and `ParseCreateInvitee`: those who may join, with what they allow. -/
def parseInviteeList (env : Env) (d : GroupData) (userIds : List String) : InviteeUserMap :=
  userIds.foldl
    (fun map userId =>
      if mayJoin d userId then
        match verifyGroupUserPermission env userId with
        | some bGroupPermit => map.insert userId bGroupPermit
        | none => map
      else map)
    ∅

/-- What a task leaves in `AccessUserPara_t`, with the code and the data. -/
structure TaskResult where
  err : ErrCode
  data : GroupData
  masterId : String := ""
  inviteeUserMap : InviteeUserMap := ∅

def insertGroup (env : Env) (msg : GroupCreate) (d : GroupData) : Option GroupData :=
  match d.row with
  | some _ => none
  | none =>
    let status : GroupStatus :=
      if msg.createType = .twobarcodeCreation ∨ msg.createType = .twobarcodeCreationwithhide then
        .depositGroupstatus
      else .normalGroupstatus
    let d := { d with row := some ⟨1, msg.permission, status, msg.userId, env.now⟩ }
    let d := insertGroupMember msg.userId .masterMember .createInsertMember d
    some { d with cache := ⟨some msg.userId, some 1, some status, some msg.permission, some env.now⟩ }

/-- `number` is how many groups the user has already. -/
def createGroupProc (env : Env) (number : Nat) (msg : GroupCreate) (d : GroupData) : TaskResult :=
  if maxGroupmember < msg.inviteUserIds.length then { err := .errGroupOverjoin, data := d }
  else
    match env.userInfo msg.userId with
    | none => { err := .errGroupForbidden, data := d }
    | some userCache =>
      if userCache.nGroupLimit ≤ number % 2 ^ 16 then { err := .errGroupOvercreation, data := d }
      else
        match insertGroup env msg d with
        | none => { err := .errGroupNetworkexception, data := d }
        | some d =>
          if msg.Invites then
            let map := parseInviteeList env d msg.inviteUserIds
            let (err, d) := insertMultiGroupMember map .inviteMember d
            { err := err, data := d, inviteeUserMap := map }
          else { err := .nonErr, data := d }

def applyGroup (env : Env) (msg : GroupApply) (d : GroupData) : TaskResult :=
  let err := verifyGroupApplyAuth env d msg.userId msg.applyType (getGroupInfo (env.junk 0) d)
  if err ≠ .nonErr then { err := err, data := d }
  else if env.userInfo msg.userId = none then { err := .errGroupForbidden, data := d }
  else if mayJoin d msg.userId then
    let info := getGroupInfo (env.junk 1) d
    if info.bStatus = .normalGroupstatus ∨ info.bStatus = .depositGroupstatus then
      let (err, d) :=
        if info.bPermit = 0 then
          (ErrCode.nonErr, insertGroupMember msg.userId .applyMember .commonInsertMember d)
        else (groupPermissionCode env info.bPermit, d)
      if err = .nonErr ∧ info.bStatus = .depositGroupstatus then
        let d := updateGroupStatus .normalGroupstatus d
        { err := .nonErr, masterId := info.masterId
          data := { d with cache := Redis.updateGroupStatus .normalGroupstatus d.cache } }
      else { err := err, data := d, masterId := info.masterId }
    else { err := groupPermissionCode env info.bPermit, data := d, masterId := info.masterId }
  else { err := .errGroupMemberexist, data := d }

def inviteGroup (env : Env) (msg : GroupInvite) (d : GroupData) : TaskResult :=
  let err := verifyGroupInviteAuth (getGroupInfo (env.junk 0) d) msg.inviteeIds.length
  if err ≠ .nonErr then { err := err, data := d }
  else if env.userInfo msg.inviterId = none then { err := .errGroupForbidden, data := d }
  else
    let map := parseInviteeList env d msg.inviteeIds
    let (err, d) := insertMultiGroupMember map .inviteMember d
    { err := err, data := d, inviteeUserMap := map }

/-- Who joins by a permit: the one who is answered, or the one who answers an invitation. -/
def GroupPermit.userId (msg : GroupPermit) : String := if msg.rspType = 0 then msg.toId else msg.fromId

def joinDirectlyGroupProc (env : Env) (msg : GroupPermit) (d : GroupData) : TaskResult :=
  if (getGroupInfo (env.junk 0) d).bStatus = .normalGroupstatus then
    if (isMember d msg.userId).1 = .errGroupMembernonexist ∨
        (isMember d msg.userId).2 = some .quitMember then
      let status : MemberStatus := if msg.rspType = 0 then .applyMember else .inviteMember
      { err := .nonErr, data := insertGroupMember msg.userId status .commonInsertMember d }
    else { err := .errGroupMemberexist, data := d }
  else { err := .errGroupDismissed, data := d }

def quitGroup (env : Env) (msg : GroupQuit) (d : GroupData) : TaskResult :=
  if (isMember d msg.userId).1 ≠ .errGroupMemberexist then
    { err := .errGroupMembernonexist, data := d }
  else
    let info := getGroupInfo (env.junk 0) d
    if info.bStatus ≠ .normalGroupstatus then { err := .errGroupForbidden, data := d }
    else if info.masterId = msg.userId ∧ 1 < info.nGroupNumber then
      { err := .errGroupMasterQuit, data := d }
    else { err := .nonErr, data := removeGroupMember msg.userId d }

def kickoutGroup (msg : GroupKickOut) (d : GroupData) : TaskResult :=
  if (isMember d msg.kickId).1 = .errGroupMemberexist then
    if isMaster d msg.userId = .errGroupMaster then
      { err := .nonErr, data := removeGroupMember msg.kickId d }
    else { err := .errGroupForbidden, data := d }
  else { err := .errGroupMembernonexist, data := d }

/-- The rows and the caches after a change of the master. -/
def setGroupMaster (userId involvedId : String) (d : GroupData) : GroupData where
  row := d.row.map fun row => { row with masterId := involvedId }
  members := (d.members.update userId .applyMember).update involvedId .masterMember
  memCache := AList.insert involvedId .masterMember (d.memCache.insert userId .applyMember)
  cache := Redis.updateGroupMaster involvedId d.cache

def modifyGroupMaster (msg : GroupModify) (d : GroupData) : TaskResult :=
  if isMaster d msg.userId = .errGroupMaster then
    -- The one who is looked up is the old master, not the new one.
    if (isMember d msg.userId).1 ≠ .errGroupMemberexist ∨
        (isMember d msg.userId).2 = some .quitMember then
      { err := .errGroupMembernonexist, data := d }
    else { err := .nonErr, data := setGroupMaster msg.userId msg.involvedId d }
  else { err := .errGroupForbidden, data := d }

inductive Task where
  | create (msg : GroupCreate)
  | apply (msg : GroupApply)
  | invite (msg : GroupInvite)
  | permit (msg : GroupPermit)
  | quit (msg : GroupQuit)
  | kickOut (msg : GroupKickOut)
  | modify (msg : GroupModify)
  deriving DecidableEq, Repr

namespace Task

def groupId : Task → String
  | create msg => msg.groupId
  | apply msg => msg.groupId
  | invite msg => msg.groupId
  | permit msg => msg.grpId
  | quit msg => msg.groupId
  | kickOut msg => msg.groupId
  | modify msg => msg.groupId

/-- What the handlers of the packets check before they start a task. -/
def checks : Task → Bool
  | create _ => true
  | apply msg => msg.userId ≠ "" && Msg.isGrpIdValid msg.groupId
  | invite msg => msg.inviterId ≠ "" && Msg.isGrpIdValid msg.groupId
  | permit msg => msg.fromId ≠ "" && Msg.isGrpIdValid msg.grpId && msg.errcode = .nonErr
  | quit msg => msg.userId ≠ "" && Msg.isGrpIdValid msg.groupId
  | kickOut msg => msg.userId ≠ "" && msg.kickId ≠ "" && Msg.isGrpIdValid msg.groupId
  | modify msg => msg.userId ≠ "" && Msg.isGrpIdValid msg.groupId

def run (env : Env) (number : Nat) (d : GroupData) : Task → TaskResult
  | create msg => createGroupProc env number msg d
  | apply msg => applyGroup env msg d
  | invite msg => inviteGroup env msg d
  | permit msg => joinDirectlyGroupProc env msg d
  | quit msg => quitGroup env msg d
  | kickOut msg => kickoutGroup msg d
  | modify msg => modifyGroupMaster msg d

end Task

structure State where
  /-- The keys of group_t. -/
  groupIds : List String := []
  data : String → GroupData := fun _ => {}
  grpStore : Msg.GrpStore := []

inductive Event where
  | task (env : Env) (t : Task)
  | chat (env : ChatEnv) (msg : Msg.MESGrpChat)
  | chatCancel (msg : Msg.GroupChatCancel)

def Event.groupId : Event → String
  | task _ t => t.groupId
  | chat _ msg => msg.grpId
  | chatCancel msg => msg.groupId

/-- `VerifyGroupCreatingAuth` counts the groups of a user that are in use. -/
def groupNumber (env : Env) (s : State) (userId : String) : Nat :=
  s.groupIds.countP fun groupId =>
    (s.data groupId).row.any fun row =>
      row.masterId = userId && (row.status = .normalGroupstatus ||
        (row.status = .depositGroupstatus && env.now ≤ row.createTime + 10 * 60))

def Task.creator : Task → String
  | create msg => msg.userId
  | _ => ""

/-- The task of a request, if the handler of the packet starts it. -/
def State.runTask (s : State) (env : Env) (t : Task) : Option TaskResult :=
  if t.checks then some (t.run env (groupNumber env s t.creator) (s.data t.groupId)) else none

/-- The data of the group of an event, after it. -/
def Event.apply (s : State) : Event → GroupData
  | task env t => ((s.runTask env t).map TaskResult.data).getD (s.data t.groupId)
  | chat env msg => (onChat env (s.data msg.grpId) s.grpStore msg).data
  | chatCancel msg => (onChatCancel (s.data msg.groupId) msg).2

/-- The group messages after an event. -/
def Event.applyGrpStore (s : State) : Event → Msg.GrpStore
  | chat env msg => (onChat env (s.data msg.grpId) s.grpStore msg).grpStore
  | _ => s.grpStore

def State.step (s : State) (e : Event) : Option State :=
  some
    { groupIds :=
        if (s.data e.groupId).row = none ∧ (e.apply s).row ≠ none then e.groupId :: s.groupIds
        else s.groupIds
      data := Function.update s.data e.groupId (e.apply s)
      grpStore := e.applyGrpStore s }

theorem State.step_data {s s' : State} {e : Event} (h : s.step e = some s') :
    s'.data e.groupId = e.apply s := by
  obtain rfl := Option.some.inj h
  exact Function.update_self ..

theorem State.step_data_ne {s s' : State} {e : Event} (h : s.step e = some s') {groupId : String}
    (hne : groupId ≠ e.groupId) : s'.data groupId = s.data groupId := by
  obtain rfl := Option.some.inj h
  exact Function.update_of_ne hne ..

/-- What holds of the group of an event after it, and of all groups before, holds of all. -/
theorem State.forall_step {p : GroupData → Prop} {s s' : State} {e : Event}
    (hbefore : ∀ groupId, p (s.data groupId)) (hafter : p (e.apply s)) (hstep : s.step e = some s') :
    ∀ groupId, p (s'.data groupId) := by
  intro groupId
  by_cases hgroup : groupId = e.groupId
  · rw [hgroup, State.step_data hstep]
    exact hafter
  · rw [State.step_data_ne hstep hgroup]
    exact hbefore groupId

/-- A valid id of a group. -/
def grp : String := "group00000000000000a1"

end Group

end ImServer
