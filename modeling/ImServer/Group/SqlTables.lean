import Mathlib.Algebra.Order.BigOperators.Group.List
import Mathlib.Algebra.Order.Ring.Nat
import ImServer.Group.PlainIds
import ImServer.Group.SqlRows
import ImServer.Group.TaskOutcomes

/-!
# The rows and the data of groups

What the operations of the model do to the members and the master of a group, the statements that
they hand over do to the rows, if the ids and texts in them are plain. So does a task as a whole,
by one statement after the other, and the selects of one member find what the model looks up. For
the select of a chat an id may be anything without a NUL, since its parameters are escaped.
-/

namespace ImServer

namespace Group

namespace Sql

open SqlLiteral

/-- `db_groupmemberstatus_t`, as it is printed. -/
def statusCode : MemberStatus → UInt8
  | .quitMember => 0
  | .applyMember => 1
  | .inviteMember => 2
  | .masterMember => 3

def statusText (status : MemberStatus) : List UInt8 := decimal (statusCode status).toNat

/-- The rows are those of all groups, with ids by their bytes. -/
structure Represents (data : String → GroupData) (db : Db) : Prop where
  members : ∀ groupId userId, db.members.lookup (CText.bytes groupId, CText.bytes userId) =
    ((data groupId).members.lookup userId).map statusText
  masters : ∀ groupId, db.masters.lookup (CText.bytes groupId) =
    (data groupId).row.map fun row => CText.bytes row.masterId

/-- The group has the members and the master of the other. -/
structure SameRows (d d' : GroupData) : Prop where
  members : d'.members = d.members
  master : d'.row.map GroupRow.masterId = d.row.map GroupRow.masterId

section Rows

variable {data : String → GroupData} {db : Db} {groupId userId masterId : String}
  {d d' : GroupData} {status : MemberStatus}

theorem SameRows.trans {d'' : GroupData} (h : SameRows d d') (h' : SameRows d' d'') :
    SameRows d d'' :=
  ⟨h'.members.trans h.members, h'.master.trans h.master⟩

theorem sameRows_updateGroupStatus (status : GroupStatus) (d : GroupData) :
    SameRows d (updateGroupStatus status d) := by
  refine ⟨rfl, ?_⟩
  cases hrow : d.row with
  | none => simp [updateGroupStatus, hrow]
  | some row =>
    simp only [updateGroupStatus, hrow, Option.map_some, Option.some.injEq]
    split <;> rfl

theorem sameRows_updateGroupCount (nCount : Nat) (dec : Bool) (d : GroupData) :
    SameRows d (updateGroupCount nCount dec d) := by
  have hcount : SameRows d { d with
      row := d.row.map fun row => { row with count := d.active % 2 ^ 16 }
      cache := Redis.updateGroupCount nCount dec d.cache } := by
    refine ⟨rfl, ?_⟩
    cases hrow : d.row with
    | none => rfl
    | some row => rfl
  exact hcount.trans (sameRows_updateGroupStatus _ _)

theorem Represents.update {db' : Db} (h : Represents data db)
    (hmembers : ∀ userId, db'.members.lookup (CText.bytes groupId, CText.bytes userId) =
      (d.members.lookup userId).map statusText)
    (hmaster : db'.masters.lookup (CText.bytes groupId) =
      d.row.map fun row => CText.bytes row.masterId)
    (hothers : ∀ groupId', groupId' ≠ groupId →
      (∀ userId, db'.members.lookup (CText.bytes groupId', CText.bytes userId) =
        db.members.lookup (CText.bytes groupId', CText.bytes userId)) ∧
      db'.masters.lookup (CText.bytes groupId') = db.masters.lookup (CText.bytes groupId')) :
    Represents (Function.update data groupId d) db' := by
  constructor
  · intro groupId' userId
    by_cases hgroup : groupId' = groupId
    · subst hgroup
      rw [Function.update_self, hmembers]
    · rw [Function.update_of_ne hgroup, (hothers groupId' hgroup).1, h.members]
  · intro groupId'
    by_cases hgroup : groupId' = groupId
    · subst hgroup
      rw [Function.update_self, hmaster]
    · rw [Function.update_of_ne hgroup, (hothers groupId' hgroup).2, h.masters]

/-- Counts, states and what redis holds are not among the rows. -/
theorem Represents.sameRows (h : Represents (Function.update data groupId d) db)
    (hsame : SameRows d d') : Represents (Function.update data groupId d') db := by
  have hupdate : Represents (Function.update (Function.update data groupId d) groupId d') db :=
    h.update ?_ ?_ ?_
  · rwa [Function.update_idem] at hupdate
  · intro userId
    rw [h.members, Function.update_self, hsame.members]
  · have hmaster := congrArg (Option.map CText.bytes) hsame.master
    rw [Option.map_map, Option.map_map] at hmaster
    rw [h.masters, Function.update_self]
    exact hmaster.symm
  · exact fun _ _ => ⟨fun _ => rfl, rfl⟩

theorem key_ne {groupId' userId' : String} (h : groupId' ≠ groupId ∨ userId' ≠ userId) :
    (CText.bytes groupId', CText.bytes userId') ≠ (CText.bytes groupId, CText.bytes userId) := by
  intro heq
  obtain ⟨hgroup, huser⟩ := Prod.mk.inj heq
  exact h.elim (fun hne => hne (CText.bytes_injective hgroup))
    fun hne => hne (CText.bytes_injective huser)

theorem Represents.insert (h : Represents data db) (groupId userId : String) (status : MemberStatus) :
    Represents
      (Function.update data groupId
        { data groupId with members := (data groupId).members.insert userId status })
      { db with
        members := db.members.insert (CText.bytes groupId, CText.bytes userId) (statusText status) } := by
  refine h.update ?_ (h.masters groupId) fun groupId' hgroup => ⟨fun userId' => ?_, rfl⟩
  · intro userId'
    by_cases huser : userId' = userId
    · subst huser
      rw [AList.lookup_insert, AList.lookup_insert]
      rfl
    · rw [AList.lookup_insert_ne (key_ne (.inr huser)), AList.lookup_insert_ne huser, h.members]
  · exact AList.lookup_insert_ne (key_ne (.inl hgroup))

theorem Represents.setStatus (h : Represents data db) (groupId userId : String)
    (status : MemberStatus) :
    Represents
      (Function.update data groupId
        { data groupId with members := (data groupId).members.update userId status })
      { db with
        members := db.members.update (CText.bytes groupId, CText.bytes userId) (statusText status) } := by
  refine h.update ?_ (h.masters groupId) fun groupId' hgroup => ⟨fun userId' => ?_, rfl⟩
  · intro userId'
    dsimp only
    rw [Table.lookup_update, Table.lookup_update]
    by_cases huser : userId' = userId
    · subst huser
      rw [if_pos rfl, if_pos rfl, h.members, Option.map_map, Option.map_map]
      rfl
    · rw [if_neg (key_ne (.inr huser)), if_neg huser, h.members]
  · dsimp only
    rw [Table.lookup_update, if_neg (key_ne (.inl hgroup))]

theorem Represents.setMaster (h : Represents data db) (groupId masterId : String) :
    Represents
      (Function.update data groupId
        { data groupId with
          row := (data groupId).row.map fun row => { row with masterId := masterId } })
      { db with masters := db.masters.update (CText.bytes groupId) (CText.bytes masterId) } := by
  refine h.update (h.members groupId) ?_ fun groupId' hgroup => ⟨fun _ => rfl, ?_⟩
  · dsimp only
    rw [Table.lookup_update, if_pos rfl, h.masters, Option.map_map, Option.map_map]
    rfl
  · dsimp only
    rw [Table.lookup_update, if_neg fun heq => hgroup (CText.bytes_injective heq)]

theorem Represents.insertGroup (h : Represents data db) (groupId : String) (row : GroupRow) :
    Represents (Function.update data groupId { data groupId with row := some row })
      { db with
        masters := db.masters.insert (CText.bytes groupId) (CText.bytes row.masterId) } := by
  refine h.update (h.members groupId) ?_ fun groupId' hgroup => ⟨fun _ => rfl, ?_⟩
  · exact AList.lookup_insert _
  · exact AList.lookup_insert_ne fun heq => hgroup (CText.bytes_injective heq)

end Rows

/-- The operations of the model that write members or the master of a group. -/
inductive Write where
  | create (env : Env) (msg : GroupCreate) (npermission : UInt32)
  | insert (userId : String) (status : MemberStatus) (bHide : UInt8) (mode : InsertMode)
  | invite (map : InviteeUserMap)
  | remove (userId : String) (bKick : Bool)
  | master (userId involvedId : String)

namespace Write

/-- Whether the group is one of those that are made with a two-dimensional code or hidden. -/
def createStatus (msg : GroupCreate) : Nat :=
  if msg.createType = .twobarcodeCreation ∨ msg.createType = .twobarcodeCreationwithhide then 2 else 1

def createHide (msg : GroupCreate) : UInt8 :=
  if msg.createType = .normalCreationwithhide ∨ msg.createType = .twobarcodeCreationwithhide then 1
  else 0

/-- What the operation hands to mysql, one statement after the other. -/
def handed (groupId : String) : Write → List Handed
  | create env msg npermission =>
    (Operation.insertGroup (cString groupId) (cString msg.name) (cString msg.grpAvatar) npermission
        (createStatus msg) (cString msg.remarks) (cString msg.userId) env.now).handed ++
      (Operation.insertGroupMember (cString msg.userId) (cString groupId)
        (statusCode .masterMember) (createHide msg)).handed
  | insert userId status bHide _ =>
    (Operation.insertGroupMember (cString userId) (cString groupId) (statusCode status) bHide).handed
  | invite map =>
    (Operation.insertMultiGroupMember (cString groupId) ((joining map).map cString)
      (statusCode .inviteMember)).handed
  | remove userId bKick =>
    (Operation.removeGroupMember (cString userId) (cString groupId) bKick).handed
  | master userId involvedId =>
    (Operation.modifyGroupMaster (cString userId) (cString groupId) (cString involvedId)).handed

/-- What the operation of the model does; none if it fails. -/
def run (d : GroupData) : Write → Option GroupData
  | create env msg _ => Group.insertGroup env msg d
  | insert userId status _ mode => some (Group.insertGroupMember userId status mode d)
  | invite map => some (Group.insertMultiGroupMember map .inviteMember d).2
  | remove userId _ => some (Group.removeGroupMember userId d)
  | master userId involvedId => some (setGroupMaster userId involvedId d)

/-- The ids are plain, and the texts that are filtered end at their quotes. -/
def Plain (groupId : String) : Write → Prop
  | create _ msg _ =>
    PlainLiteral msg.userId ∧ ClosesFiltered msg.name ∧ ClosesFiltered msg.grpAvatar ∧
      ClosesFiltered msg.remarks
  | insert userId .. => PlainLiteral userId
  | invite map => PlainInvitees groupId (joining map)
  | remove userId _ => PlainLiteral userId
  | master userId involvedId => PlainLiteral userId ∧ PlainLiteral involvedId

end Write

section Writes

variable {data : String → GroupData} {db : Db} {groupId userId : String} {d : GroupData}

theorem execAll_handed {s : Statement} {rest : List (Option (List UInt8))} {db' : Db}
    (h : exec (render s.pieces) db = some db') :
    execAll (s.handed.text :: rest) db = execAll rest db' := by
  rw [execAll, List.foldlM_cons, Statement.handed, Option.bind_some, h]
  rfl

theorem execAll_singleton {s : Statement} {db' : Db} (h : exec (render s.pieces) db = some db') :
    execAll [s.handed.text] db = some db' :=
  execAll_handed h

theorem execAll_refused {s : Statement} {rest : List (Option (List UInt8))}
    (h : exec (render s.pieces) db = none) : execAll (s.handed.text :: rest) db = none := by
  rw [execAll, List.foldlM_cons, Statement.handed, Option.bind_some, h]
  rfl

theorem exec_insertGroupMember (db : Db) (hgroup : PlainLiteral groupId) (huser : PlainLiteral userId)
    (status : MemberStatus) (bHide : UInt8) :
    exec (render (Sql.insertGroupMember (cString userId) (cString groupId) (statusCode status)
        bHide).pieces) db =
      some { db with
        members :=
          db.members.insert (CText.bytes groupId, CText.bytes userId) (statusText status) } := by
  rw [exec_handed (insertGroupMember_iff.mpr ⟨hgroup.isPlain, huser.isPlain⟩) rfl]
  have hvalues : (Sql.insertGroupMember (cString userId) (cString groupId) (statusCode status)
      bHide).fields.map Field.value =
        [CText.bytes groupId, CText.bytes userId, statusText status, [], decimal bHide.toNat,
          statusText status] := by
    rw [← hgroup.1.cString_val, ← huser.1.cString_val]
    rfl
  rw [hvalues]
  refine run_member.trans ?_
  rw [Db.upsert, ite_self]

theorem exec_removeGroupMember (db : Db) (hgroup : PlainLiteral groupId) (huser : PlainLiteral userId)
    (bKick : Bool) :
    exec (render (Sql.removeGroupMember (cString userId) (cString groupId) bKick).pieces) db =
      some { db with
        members :=
          db.members.update (CText.bytes groupId, CText.bytes userId) (statusText .quitMember) } := by
  have hread := (removeGroupMember_iff bKick).mpr ⟨hgroup.isPlain, huser.isPlain⟩
  cases bKick with
  | false =>
    rw [exec_handed hread rfl]
    refine run_quit.trans ?_
    rw [← hgroup.1.cString_val, ← huser.1.cString_val]
    rfl
  | true =>
    rw [exec_handed hread rfl]
    refine run_kick.trans ?_
    rw [← hgroup.1.cString_val, ← huser.1.cString_val]
    rfl

theorem Represents.insertAll (h : Represents data db) (groupId : String) (userIds : List String)
    (status : MemberStatus) :
    Represents
      (Function.update data groupId
        { data groupId with members := (data groupId).members.insertAll userIds status })
      { db with
        members := userIds.foldl
          (fun members userId =>
            members.insert (CText.bytes groupId, CText.bytes userId) (statusText status))
          db.members } := by
  induction userIds generalizing data db with
  | nil =>
    have hsame : Function.update data groupId
        { data groupId with members := (data groupId).members.insertAll [] status } = data :=
      Function.update_eq_self groupId data
    rw [hsame]
    exact h
  | cons userId userIds ih =>
    have hrest := ih (h.insert groupId userId status)
    rw [Function.update_idem, Function.update_self] at hrest
    exact hrest

theorem exec_setStatus {bStatus : String} (status : MemberStatus)
    (hsql : IsSql (CText.bytes bStatus)) (hgroup : PlainLiteral groupId) (huser : PlainLiteral userId)
    (hrun : ∀ values, db.run (form (updateMemberSql bStatus)) values =
      db.setStatus (statusText status) values) :
    exec (render (Statement.mk (updateMemberSql bStatus)
        [client (cString groupId), client (cString userId)]).pieces) db =
      some { db with
        members :=
          db.members.update (CText.bytes groupId, CText.bytes userId) (statusText status) } := by
  have hread := (updateMember_iff (cString groupId) (cString userId) hsql).mpr
    ⟨hgroup.isPlain, huser.isPlain⟩
  rw [exec_handed hread rfl, ← hgroup.1.cString_val, ← huser.1.cString_val]
  exact hrun _

theorem exec_setMaster {masterId : String} (hgroup : PlainLiteral groupId) (hmaster : PlainLiteral masterId) :
    exec (render (modifyColumn "GROUP_MASTERID" (cString groupId) (cString masterId)).pieces) db =
      some { db with
        masters := db.masters.update (CText.bytes groupId) (CText.bytes masterId) } := by
  have hread := (modifyColumn_iff (cString groupId) (cString masterId) isSql_masterid).mpr
    ⟨hmaster.isPlain, hgroup.isPlain⟩
  rw [exec_handed hread rfl, ← hgroup.1.cString_val, ← hmaster.1.cString_val]
  exact run_master

theorem exec_insertGroup {env : Env} {msg : GroupCreate} (npermission : UInt32) (db : Db)
    (hgroup : PlainLiteral groupId) (hplain : (Write.create env msg npermission).Plain groupId) :
    exec (render (Sql.insertGroup (cString groupId) (cString msg.name) (cString msg.grpAvatar)
        npermission (Write.createStatus msg) (cString msg.remarks) (cString msg.userId)
        env.now).pieces) db =
      if CText.bytes groupId ∈ db.masters then none
      else some { db with
        masters := db.masters.insert (CText.bytes groupId) (CText.bytes msg.userId) } := by
  obtain ⟨huser, hname, havatar, hremarks⟩ := hplain
  obtain ⟨name, hname⟩ := hname.reads
  obtain ⟨avatar, havatar⟩ := havatar.reads
  obtain ⟨remarks, hremarks⟩ := hremarks.reads
  -- The same text, with what the filtered fields are read as.
  let fields : List Field :=
    [client (cString groupId), ⟨sqlFilter (cString msg.name).val, name⟩,
      ⟨sqlFilter (cString msg.grpAvatar).val, avatar⟩, asIs (decimal 1), asIs (printInt npermission),
      asIs (decimal (Write.createStatus msg)), ⟨sqlFilter (cString msg.remarks).val, remarks⟩,
      client (cString msg.userId), asIs (printTime env.now), asIs (printTime env.now)]
  have hreads : ∀ field ∈ fields, field.Reads := by
    simp only [fields, List.forall_mem_cons]
    exact ⟨client_reads_iff.mpr hgroup.isPlain, hname, havatar, decimal_reads 1,
      printInt_reads npermission, decimal_reads _, hremarks, client_reads_iff.mpr huser.isPlain,
      printTime_reads _, printTime_reads _, List.forall_mem_nil _⟩
  have hlength : (createSql.map CText.bytes).length = fields.length + 1 := by
    rw [List.length_map]
    rfl
  have hread : ∀ field, .quoted field ∈ interleave (createSql.map CText.bytes) fields → field.Reads :=
    fun field hfield =>
      hreads field ((mem_interleave ((Nat.le_succ fields.length).trans_eq hlength.symm)).mp hfield)
  have htokens := (tokens_render (wellFormed_interleave isSql_createSql fields)
    fun field hfield => .inl (hread field hfield)).mpr hread
  have htext : (Sql.insertGroup (cString groupId) (cString msg.name) (cString msg.grpAvatar)
      npermission (Write.createStatus msg) (cString msg.remarks) (cString msg.userId)
      env.now).fields.map Field.text = fields.map Field.text := rfl
  have hrender : render (Sql.insertGroup (cString groupId) (cString msg.name) (cString msg.grpAvatar)
      npermission (Write.createStatus msg) (cString msg.remarks) (cString msg.userId)
      env.now).pieces = render (interleave (createSql.map CText.bytes) fields) :=
    render_interleave htext (createSql.map CText.bytes)
  rw [exec, hrender, htokens, Option.bind_some,
    shape_interleave_last fields hlength, run_create, ← hgroup.1.cString_val, ← huser.1.cString_val]
  rfl

theorem sameRows_insertGroupMember (status : MemberStatus) (mode : InsertMode) :
    SameRows { d with members := d.members.insert userId status }
      (Group.insertGroupMember userId status mode d) := by
  have hinserted : SameRows { d with members := d.members.insert userId status }
      { d with
        members := d.members.insert userId status
        memCache := d.memCache.insert userId status } := ⟨rfl, rfl⟩
  cases mode with
  | createInsertMember => exact hinserted
  | commonInsertMember => exact hinserted.trans (sameRows_updateGroupCount 1 false _)

theorem sameRows_joined (userIds : List String) (status : MemberStatus) :
    SameRows { d with members := d.members.insertAll userIds status } (joined d userIds status) := by
  have hinserted : SameRows { d with members := d.members.insertAll userIds status }
      (withMembers d userIds status) := ⟨rfl, rfl⟩
  exact hinserted.trans (sameRows_updateGroupCount _ false _)

theorem sameRows_removeGroupMember :
    SameRows { d with members := d.members.update userId .quitMember }
      (Group.removeGroupMember userId d) := by
  have hremoved : SameRows { d with members := d.members.update userId .quitMember }
      { d with
        members := d.members.update userId .quitMember
        memCache := Redis.removeGroupMember userId d.memCache } := ⟨rfl, rfl⟩
  exact hremoved.trans (sameRows_updateGroupCount 1 true _)

theorem sameRows_insertGroup {env : Env} {msg : GroupCreate} (hrow : d.row = none)
    (hinsert : Group.insertGroup env msg d = some d') :
    ∃ row : GroupRow, row.masterId = msg.userId ∧
      SameRows { d with row := some row, members := d.members.insert msg.userId .masterMember } d' := by
  rw [Group.insertGroup, hrow] at hinsert
  obtain rfl := Option.some.inj hinsert
  exact ⟨⟨1, msg.permission, _, msg.userId, env.now⟩, rfl, rfl, rfl⟩

/-- One row after the other, by the ids of those who join. -/
theorem foldl_cString {userIds : List String} (hplain : ∀ userId ∈ userIds, PlainLiteral userId)
    (hgroup : PlainLiteral groupId) (members : Table (List UInt8 × List UInt8) (List UInt8))
    (bStatus : List UInt8) :
    (userIds.map cString).foldl
        (fun members userId => members.insert ((cString groupId).val, userId.val) bStatus) members =
      userIds.foldl
        (fun members userId => members.insert (CText.bytes groupId, CText.bytes userId) bStatus)
        members := by
  rw [List.foldl_map]
  refine List.foldl_ext _ _ _ fun members userId huser => ?_
  rw [hgroup.1.cString_val, (hplain userId huser).1.cString_val]

/-- A batch that joins nobody, counted in 16 bits, hands nothing over. -/
theorem execAll_invite {map : InviteeUserMap} (hgroup : PlainLiteral groupId)
    (hplain : PlainInvitees groupId (joining map)) (hsome : (joining map).length % 2 ^ 16 ≠ 0) :
    execAll (((Write.invite map).handed groupId).map Handed.text) db =
      some { db with
        members := (joining map).foldl
          (fun members userId =>
            members.insert (CText.bytes groupId, CText.bytes userId) (statusText .inviteMember))
          db.members } := by
  have hne : (joining map).map cString ≠ [] := by
    intro hnil
    rw [List.map_eq_nil_iff.mp hnil] at hsome
    exact hsome rfl
  have hhanded : (Write.invite map).handed groupId =
      [⟨insertMultiGroupMember.text (cString groupId) ((joining map).map cString) 2,
        insertMultiGroupMember.pieces (cString groupId) ((joining map).map cString) 2⟩] := by
    rw [← List.length_map cString] at hsome
    exact if_neg hsome
  have hread := (insertMultiGroupMember.keepsMeaning_iff hne).mpr
    ⟨hplain.2, hgroup.isPlain, fun userId hmem => ?_⟩
  · have hexec := exec_batch rfl hne hread db
    rw [foldl_cString hplain.1 hgroup] at hexec
    rw [hhanded, List.map_cons, execAll, List.foldlM_cons, hexec]
    rfl
  · obtain ⟨userId, huser, rfl⟩ := List.mem_map.mp hmem
    exact (hplain.1 userId huser).isPlain

theorem represents_create {env : Env} {msg : GroupCreate} {npermission : UInt32}
    (h : Represents data db) (hgroup : PlainLiteral groupId)
    (hplain : (Write.create env msg npermission).Plain groupId) :
    Option.Rel (fun d db' => Represents (Function.update data groupId d) db')
      (Group.insertGroup env msg (data groupId))
      (execAll (((Write.create env msg npermission).handed groupId).map Handed.text) db) := by
  have hmasters := h.masters groupId
  have hinsert := exec_insertGroup npermission db hgroup hplain
  cases hrow : (data groupId).row with
  | some row =>
    have hmem : CText.bytes groupId ∈ db.masters := by
      rw [← AList.lookup_isSome, hmasters, hrow]
      rfl
    rw [if_pos hmem] at hinsert
    have hnone : execAll (((Write.create env msg npermission).handed groupId).map Handed.text) db =
        none := execAll_refused hinsert
    rw [hnone, Group.insertGroup, hrow]
    exact .none
  | none =>
    have hnmem : CText.bytes groupId ∉ db.masters := by
      rw [← AList.lookup_eq_none, hmasters, hrow]
      rfl
    rw [if_neg hnmem] at hinsert
    obtain ⟨d', hd'⟩ : ∃ d', Group.insertGroup env msg (data groupId) = some d' := by
      rw [Group.insertGroup, hrow]
      exact ⟨_, rfl⟩
    obtain ⟨row, hmaster, hsame⟩ := sameRows_insertGroup hrow hd'
    have hmember := exec_insertGroupMember
      { db with masters := db.masters.insert (CText.bytes groupId) (CText.bytes msg.userId) }
      hgroup hplain.1 .masterMember (Write.createHide msg)
    have hboth : execAll (((Write.create env msg npermission).handed groupId).map Handed.text) db =
        _ := (execAll_handed hinsert).trans (execAll_singleton hmember)
    have hrows := (h.insertGroup groupId row).insert groupId msg.userId .masterMember
    rw [Function.update_idem, Function.update_self, hmaster] at hrows
    rw [hd', hboth]
    exact .some (hrows.sameRows hsame)

/-- What an operation of the model does to a group, its statements do to the rows, if the ids in
them are plain and the other texts end at their quotes. The insert of a group that is there fails. -/
theorem represents_write {w : Write} (h : Represents data db) (hgroup : PlainLiteral groupId)
    (hplain : w.Plain groupId) :
    Option.Rel (fun d db' => Represents (Function.update data groupId d) db') (w.run (data groupId))
      (execAll ((w.handed groupId).map Handed.text) db) := by
  cases w with
  | create env msg npermission => exact represents_create h hgroup hplain
  | insert userId status bHide mode =>
    have hexec := exec_insertGroupMember db hgroup hplain status bHide
    refine (execAll_singleton hexec).symm ▸ .some ?_
    exact (h.insert groupId userId status).sameRows (sameRows_insertGroupMember status mode)
  | invite map =>
    by_cases hsome : (joining map).length % 2 ^ 16 = 0
    · have hnone : (Write.invite map).handed groupId = [] := by
        rw [← List.length_map cString] at hsome
        exact if_pos hsome
      have hrun : (Write.invite map).run (data groupId) = some (data groupId) := by
        rw [Write.run, insertMultiGroupMember, if_pos hsome]
      rw [hnone, hrun]
      refine .some ?_
      rwa [Function.update_eq_self]
    · have hrun : (Write.invite map).run (data groupId) =
          some (joined (data groupId) (joining map) .inviteMember) := by
        rw [Write.run, insertMultiGroupMember, if_neg hsome]
        rfl
      rw [execAll_invite hgroup hplain hsome, hrun]
      exact .some ((h.insertAll groupId (joining map) .inviteMember).sameRows (sameRows_joined _ _))
  | remove userId bKick =>
    have hexec := exec_removeGroupMember db hgroup hplain bKick
    refine (execAll_singleton hexec).symm ▸ .some ?_
    exact (h.setStatus groupId userId .quitMember).sameRows sameRows_removeGroupMember
  | master userId involvedId =>
    obtain ⟨huser, hinvolved⟩ := hplain
    have hall : execAll (((Write.master userId involvedId).handed groupId).map Handed.text) db = _ :=
      (execAll_handed (exec_setMaster hgroup hinvolved)).trans <|
        (execAll_handed (exec_setStatus .applyMember isSql_one hgroup huser fun _ => run_one)).trans <|
          execAll_singleton (exec_setStatus .masterMember isSql_three hgroup hinvolved
            fun _ => run_three)
    have hrows := ((h.setMaster groupId involvedId).setStatus groupId userId .applyMember).setStatus
      groupId involvedId .masterMember
    simp only [Function.update_idem, Function.update_self] at hrows
    rw [hall]
    exact .some (hrows.sameRows ⟨rfl, rfl⟩)

/-- The select of `IsMember` finds what the model looks up, if the ids are plain. -/
theorem represents_memberStatus (h : Represents data db) (hgroup : PlainLiteral groupId)
    (huser : PlainLiteral userId) :
    execSelect (render (memberStatus (cString userId) (cString groupId)).pieces) db =
      some (((data groupId).members.lookup userId).map statusText) := by
  have hread : (memberStatus (cString userId) (cString groupId)).handed.KeepsMeaning := by
    refine (Statement.keepsMeaning_iff isSql_memberStatusSql ?_ ?_).mpr ?_
    · exact Nat.le_refl 2
    · simp [Statement.Pasted, memberStatus, client]
    · simp [memberStatus, client_reads_iff, hgroup.isPlain, huser.isPlain]
  obtain ⟨text, htext, htokens⟩ := hread
  obtain rfl := Option.some.inj htext
  have hshape : shape (meaning (memberStatus (cString userId) (cString groupId)).handed.intended) =
      (form memberStatusSql, [(cString groupId).val, (cString userId).val]) :=
    shape_interleave rfl
  rw [execSelect, htokens, Option.bind_some, hshape, Db.find, if_pos (.inl rfl),
    hgroup.1.cString_val, huser.1.cString_val, h.members]

/-- The select of `GetGrpmem` finds what the model looks up, if the ids have no NUL. -/
theorem represents_getGrpmem (h : Represents data db) (hgroup : NulFree groupId)
    (huser : NulFree userId) :
    execSelect (render (getGrpmem (cString groupId) (cString userId)).pieces) db =
      some (((data groupId).members.lookup userId).map statusText) := by
  have hreads : ∀ field, .quoted field ∈ (getGrpmem (cString groupId) (cString userId)).pieces →
      field.Reads := by
    intro field hfield
    have hmem := (mem_interleave (by simp [getGrpmem, grpmemSql])).mp hfield
    simp only [getGrpmem, List.mem_cons, List.not_mem_nil, or_false] at hmem
    obtain rfl | rfl := hmem
    · exact parameter_reads _
    · exact parameter_reads _
  have htokens : tokens (render (getGrpmem (cString groupId) (cString userId)).pieces) =
      some (meaning (getGrpmem (cString groupId) (cString userId)).pieces) :=
    (tokens_render (wellFormed_interleave isSql_grpmemSql _)
      fun field hfield => .inl (hreads field hfield)).mpr hreads
  have hshape : shape (meaning (getGrpmem (cString groupId) (cString userId)).pieces) =
      (grpmemSql.map CText.bytes, [(cString groupId).val, (cString userId).val]) :=
    shape_interleave_last _ rfl
  rw [execSelect, htokens, Option.bind_some, hshape, Db.find, if_pos (.inr rfl), hgroup.cString_val,
    huser.cString_val, h.members]

end Writes

section Tasks

variable {env : Env} {data : String → GroupData} {db : Db} {groupId : String} {d d' : GroupData}
  {t : Task}

theorem bufferLength_le_of_subperm {userIds userIds' : List String} (h : userIds.Subperm userIds') :
    insertMultiGroupMember.bufferLength (cString groupId) (userIds.map cString) 2 ≤
      insertMultiGroupMember.bufferLength (cString groupId) (userIds'.map cString) 2 := by
  obtain ⟨some, hperm, hsub⟩ := h
  refine Nat.add_le_add_left ?_ _
  rw [← ((hperm.map cString).map _).sum_eq]
  exact ((hsub.map cString).map _).sum_le_sum fun _ _ => Nat.zero_le _

theorem plainInvitees_joining {userIds : List String} (hplain : PlainInvitees groupId userIds) :
    PlainInvitees groupId (joining (parseInviteeList env d userIds)) := by
  have hsubset : joining (parseInviteeList env d userIds) ⊆ userIds :=
    fun _ hmem => (mem_joining.mp hmem).1
  refine ⟨fun userId hmem => hplain.1 userId (hsubset hmem), ?_⟩
  exact Nat.lt_of_le_of_lt
    (bufferLength_le_of_subperm (List.subperm_of_subset (joining_nodup _) hsubset)) hplain.2

theorem plainLiteral_groupId (hchecks : t.checks = true) (hplain : t.Plain) : PlainLiteral t.groupId := by
  cases t with
  | create msg => exact hplain.1.1
  | apply msg => exact plainLiteral_of_isGrpIdValid (Bool.and_eq_true_iff.mp hchecks).2
  | invite msg => exact plainLiteral_of_isGrpIdValid (Bool.and_eq_true_iff.mp hchecks).2
  | permit msg =>
    have hvalid := (Bool.and_eq_true_iff.mp (Bool.and_eq_true_iff.mp hchecks).1).2
    exact plainLiteral_of_isGrpIdValid hvalid
  | quit msg => exact plainLiteral_of_isGrpIdValid (Bool.and_eq_true_iff.mp hchecks).2
  | kickOut msg => exact plainLiteral_of_isGrpIdValid (Bool.and_eq_true_iff.mp hchecks).2
  | modify msg => exact plainLiteral_of_isGrpIdValid (Bool.and_eq_true_iff.mp hchecks).2

/-- Operations with plain texts, one after the other, whose statements make the rows those of the
group with this data. -/
def Written (data : String → GroupData) (db : Db) (groupId : String) (d : GroupData) : Prop :=
  ∃ writes : List Write, (∀ w ∈ writes, w.Plain groupId) ∧
    ∃ db', execAll ((writes.flatMap fun w => w.handed groupId).map Handed.text) db = some db' ∧
      Represents (Function.update data groupId d) db'

theorem Written.sameRows (h : Written data db groupId d) (hsame : SameRows d d') :
    Written data db groupId d' := by
  obtain ⟨writes, hplain, db', hexec, hrows⟩ := h
  exact ⟨writes, hplain, db', hexec, hrows.sameRows hsame⟩

theorem written_self (h : Represents data db) : Written data db groupId (data groupId) := by
  refine ⟨[], List.forall_mem_nil _, db, rfl, ?_⟩
  rwa [Function.update_eq_self]

theorem Written.write {w : Write} (h : Written data db groupId d) (hgroup : PlainLiteral groupId)
    (hplain : w.Plain groupId) (hrun : w.run d = some d') : Written data db groupId d' := by
  obtain ⟨writes, hwrites, db', hexec, hrows⟩ := h
  have hrel := represents_write (w := w) hrows hgroup hplain
  rw [Function.update_self, hrun] at hrel
  cases hlast : execAll ((w.handed groupId).map Handed.text) db' with
  | none =>
    rw [hlast] at hrel
    cases hrel
  | some db'' =>
    rw [hlast] at hrel
    cases hrel with
    | some hrows' =>
      rw [Function.update_idem] at hrows'
      refine ⟨writes ++ [w], List.forall_mem_append.mpr ⟨hwrites, by simpa⟩, db'', ?_, hrows'⟩
      rw [List.flatMap_append, List.map_append, List.flatMap_singleton, execAll,
        List.foldlM_append, ← execAll, hexec]
      exact hlast

theorem sameRows_activated : SameRows d (activated d) := by
  have hsame := sameRows_updateGroupStatus .normalGroupstatus d
  exact ⟨hsame.members, hsame.master⟩

theorem written_create {msg : GroupCreate} (number : Nat) (h : Represents data db)
    (hplain : (Task.create msg).Plain) :
    Written data db msg.groupId (createGroupProc env number msg (data msg.groupId)).data := by
  have hself : Written data db msg.groupId (data msg.groupId) := written_self h
  unfold createGroupProc
  split
  · exact hself
  · split
    · exact hself
    · split
      · exact hself
      · cases hinsert : Group.insertGroup env msg (data msg.groupId) with
        | none => exact hself
        | some d =>
          have hcreated : Written data db msg.groupId d :=
            hself.write hplain.1.1 (w := .create env msg 0) ⟨hplain.1.2, hplain.2.1⟩ hinsert
          dsimp only
          split
          · exact hcreated.write hplain.1.1 (w := .invite (parseInviteeList env d msg.inviteUserIds))
              (plainInvitees_joining hplain.2.2) rfl
          · exact hcreated

theorem written_invite {msg : GroupInvite} (h : Represents data db) (hgroup : PlainLiteral msg.groupId)
    (hplain : (Task.invite msg).Plain) :
    Written data db msg.groupId (inviteGroup env msg (data msg.groupId)).data := by
  have hself : Written data db msg.groupId (data msg.groupId) := written_self h
  unfold inviteGroup
  dsimp only
  split
  · exact hself
  · split
    · exact hself
    · exact hself.write hgroup (w := .invite (parseInviteeList env _ msg.inviteeIds))
        (plainInvitees_joining hplain) rfl

/-- What a task makes of a group, it makes of the rows by statements with plain texts. -/
theorem represents_task (env : Env) (number : Nat) (h : Represents data db)
    (hchecks : t.checks = true) (hplain : t.Plain) :
    Written data db t.groupId (t.run env number (data t.groupId)).data := by
  have hgroup := plainLiteral_groupId hchecks hplain
  have hself : Written data db t.groupId (data t.groupId) := written_self h
  have houtcome := t.run_outcome env (data t.groupId) number
  cases t with
  | create msg => exact written_create number h hplain
  | invite msg => exact written_invite h hgroup hplain
  | apply msg =>
    have hjoined : Written data db msg.groupId (joined (data msg.groupId) [msg.userId] .applyMember) :=
      hself.write (w := .insert msg.userId .applyMember 0 .commonInsertMember) hgroup hplain rfl
    generalize (Task.run _ _ _ _).data = d' at houtcome ⊢
    cases houtcome with
    | same => exact hself
    | apply => exact hjoined
    | applyFirst => exact hjoined.sameRows sameRows_activated
    | activate => exact hself.sameRows sameRows_activated
  | permit msg =>
    generalize (Task.run _ _ _ _).data = d' at houtcome ⊢
    cases houtcome with
    | same => exact hself
    | permit _ status =>
      exact hself.write (w := .insert msg.userId status 0 .commonInsertMember) hgroup hplain rfl
  | quit msg =>
    generalize (Task.run _ _ _ _).data = d' at houtcome ⊢
    cases houtcome with
    | same => exact hself
    | quit => exact hself.write (w := .remove msg.userId false) hgroup hplain rfl
  | kickOut msg =>
    generalize (Task.run _ _ _ _).data = d' at houtcome ⊢
    cases houtcome with
    | same => exact hself
    | kickOut => exact hself.write (w := .remove msg.kickId true) hgroup hplain rfl
  | modify msg =>
    generalize (Task.run _ _ _ _).data = d' at houtcome ⊢
    cases houtcome with
    | same => exact hself
    | modify => exact hself.write (w := .master msg.userId msg.involvedId) hgroup hplain rfl

end Tasks

end Sql

end Group

end ImServer
