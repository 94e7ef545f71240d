import Mathlib.Algebra.Group.Nat.Defs
import ImServer.Lib.Table

/-!
# Groups and their members

The group server keeps a row of group_t for each group and a row of groupmember_t for each
member and former member, and copies of both in redis: the hash `GRP_` with the fields of the
group, and the hash `GRPM_` with the status of members (group/dbhelper.cpp,
group/redishelper.cpp, group/mysqlhelper.cpp). What is here is what the tasks do to the data of
one group.

Commands of redis and mysql succeed, but for the insert of a group that is there already. Ids
are values of the commands here and are compared byte by byte (the schema of the tables, with its
collation and the lengths of its columns, is not part of the repository). In the source they are
pasted into the texts of the statements: the statements do to the rows what the operations here
do if the ids are plain (`Sql.represents_write`), and requests with other ids are kept apart by
`Task.Plain`.
-/

namespace ImServer

namespace Group

inductive ErrCode where
  | nonErr
  | errGroupNetworkexception
  | errGroupMemberexist
  | errGroupMembernonexist
  | errGroupMaster
  | errGroupNotmaster
  | errGroupMasterQuit
  | errGroupNonpermission
  | errGroupInterpermission
  | errGroupForbidden
  | errGroupDismissed
  | errGroupOvercreation
  | errGroupOverjoin
  | errGroupInviteexception
  | errGroupInvitesuccess
  | errGroupJoinReject
  deriving DecidableEq, Repr

/-- `db_groupstatus_t`; the last one stands for a byte that is none of them. -/
inductive GroupStatus where
  | dismissGroupstatus
  | normalGroupstatus
  | depositGroupstatus
  | noGroupstatus
  deriving DecidableEq, Repr

/-- `db_groupmemberstatus_t`. -/
inductive MemberStatus where
  | quitMember
  | applyMember
  | inviteMember
  | masterMember
  deriving DecidableEq, Repr

def MemberStatus.isActive (status : MemberStatus) : Bool := status ≠ .quitMember

abbrev Members := Table String MemberStatus

def maxGroupmember : Nat := 500

/-- A row of group_t. Only one byte of the permission is ever read. -/
structure GroupRow where
  count : Nat
  permission : UInt8
  status : GroupStatus
  masterId : String
  createTime : Nat
  deriving DecidableEq, Repr

/-- The fields of a hash `GRP_`. -/
structure GroupCache where
  master : Option String := none
  count : Option Nat := none
  status : Option GroupStatus := none
  permit : Option UInt8 := none
  createTime : Option Nat := none
  deriving DecidableEq, Repr

/-- What the tables and redis have under the id of one group. -/
structure GroupData where
  row : Option GroupRow := none
  members : Members := ∅
  cache : GroupCache := {}
  memCache : Members := ∅

/-- `GroupInfo_t`, where the number is a `uint16_t`. -/
structure GroupInfo where
  masterId : String := ""
  nGroupNumber : Nat := 0
  bStatus : GroupStatus := .noGroupstatus
  bPermit : UInt8 := 0
  createTime : Nat := 0
  deriving DecidableEq, Repr

namespace GroupData

/-- How many rows of groupmember_t have a status other than 0. -/
def active (d : GroupData) : Nat := Table.count MemberStatus.isActive d.members

def IsActive (d : GroupData) (userId : String) : Prop :=
  (d.members.lookup userId).any MemberStatus.isActive = true

instance (d : GroupData) (userId : String) : Decidable (d.IsActive userId) :=
  inferInstanceAs (Decidable (_ = true))

end GroupData

namespace Redis

def getGroupInfo (cache : GroupCache) : Option GroupInfo := do
  let masterId ← cache.master
  let count ← cache.count
  let status ← cache.status
  let permit ← cache.permit
  let createTime ← cache.createTime
  return ⟨masterId, count % 2 ^ 16, status, permit, createTime⟩

def updateGroupCount (nCount : Nat) (dec : Bool) (cache : GroupCache) : GroupCache :=
  match cache.count with
  | none => cache
  | some count =>
    -- What is not positive in the source is 0 here.
    let nGroupCount := if dec then count - nCount else count + nCount
    if nGroupCount = 0 then {} else { cache with count := some nGroupCount }

def updateGroupStatus (status : GroupStatus) (cache : GroupCache) : GroupCache :=
  if status = .dismissGroupstatus then {} else { cache with status := some status }

def updateGroupMaster (masterId : String) (cache : GroupCache) : GroupCache :=
  { cache with master := some masterId }

def removeGroupMember (userId : String) (memCache : Members) : Members :=
  if memCache.entries.length ≤ 1 then ∅ else memCache.erase userId

end Redis

/-- `GetGroupInfo` of mysql. A select that finds no row succeeds too, and leaves what was in
the record before. -/
def mysqlGetGroupInfo (row : Option GroupRow) (junk : GroupInfo) : GroupInfo :=
  match row with
  | some row => ⟨row.masterId, row.count % 2 ^ 16, row.status, row.permission, row.createTime⟩
  | none => { junk with masterId := "" }

def getGroupInfo (junk : GroupInfo) (d : GroupData) : GroupInfo :=
  (Redis.getGroupInfo d.cache).getD (mysqlGetGroupInfo d.row junk)

/-- The code, and the status if one was found. The hash is asked first, and the rows if it does not
know the user. -/
def isMember (d : GroupData) (userId : String) : ErrCode × Option MemberStatus :=
  match d.memCache.lookup userId with
  | some status => (.errGroupMemberexist, some status)
  | none =>
    match d.members.lookup userId with
    | none => (.errGroupMembernonexist, none)
    | some .quitMember => (.errGroupMembernonexist, some .quitMember)
    | some status => (.errGroupMemberexist, some status)

/-- The master of a record that was not filled is empty, whatever the rest of it is. -/
def isMaster (d : GroupData) (userId : String) : ErrCode :=
  if userId = (getGroupInfo {} d).masterId then .errGroupMaster else .errGroupNotmaster

/-- What the tasks check before somebody joins. -/
def mayJoin (d : GroupData) (userId : String) : Bool :=
  (isMember d userId).1 = .errGroupMembernonexist ||
    ((isMember d userId).1 = .errGroupMemberexist && (isMember d userId).2 = some .quitMember)

def updateGroupStatus (status : GroupStatus) (d : GroupData) : GroupData :=
  { d with
    row := d.row.map fun row =>
      if status = .dismissGroupstatus ∧ row.count ≠ 0 then row else { row with status := status } }

/-- The count in the table is taken anew, in 16 bits, and that in redis is added to. -/
def updateGroupCount (nCount : Nat) (dec : Bool) (d : GroupData) : GroupData :=
  updateGroupStatus .dismissGroupstatus
    { d with
      row := d.row.map fun row => { row with count := d.active % 2 ^ 16 }
      cache := Redis.updateGroupCount nCount dec d.cache }

inductive InsertMode where
  | createInsertMember
  | commonInsertMember
  deriving DecidableEq, Repr

def insertGroupMember (userId : String) (status : MemberStatus) (mode : InsertMode)
    (d : GroupData) : GroupData :=
  let d := { d with
    members := d.members.insert userId status
    memCache := d.memCache.insert userId status }
  match mode with
  | .createInsertMember => d
  | .commonInsertMember => updateGroupCount 1 false d

/-- The invitees, each with his permission. -/
abbrev InviteeUserMap := Table String UInt8

/-- The invitees who need not be asked. -/
def joining (map : InviteeUserMap) : List String := (Table.select (· == 0) map).keys

def insertMultiGroupMember (map : InviteeUserMap) (status : MemberStatus) (d : GroupData) :
    ErrCode × GroupData :=
  let nCount := (joining map).length % 2 ^ 16
  if nCount = 0 then (.errGroupInviteexception, d)
  else
    (.errGroupInvitesuccess,
      updateGroupCount nCount false
        { d with
          members := d.members.insertAll (joining map) status
          memCache := d.memCache.insertAll (joining map) status })

def removeGroupMember (userId : String) (d : GroupData) : GroupData :=
  updateGroupCount 1 true
    { d with
      members := d.members.update userId .quitMember
      memCache := Redis.removeGroupMember userId d.memCache }

/-- `GetGrpMems`; the members are cached if none are. -/
def getGrpMems (d : GroupData) : Members × GroupData :=
  if d.memCache.entries.length = 0 then
    let grpmems := Table.select MemberStatus.isActive d.members
    (grpmems, { d with memCache := grpmems })
  else (d.memCache, d)

/-- `GetGrpMem`: the row of somebody who is not among the members is cached, whatever its
status is. -/
def getGrpMem (d : GroupData) (userId : String) : Option MemberStatus × GroupData :=
  let (grpmems, d) := getGrpMems d
  match grpmems.lookup userId with
  | some status => (some status, d)
  | none =>
    match d.members.lookup userId with
    | none => (none, d)
    | some status => (some status, { d with memCache := d.memCache.insert userId status })

end Group

end ImServer
