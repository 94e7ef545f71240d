import Mathlib.Algebra.Ring.Nat
import ImServer.Base.SqlFilter
import ImServer.Lib.CText

/-!
# The SQL of the group server

The statements that write groups and members are texts (group/dbhelper.cpp). The name, the avatar
and the announcement of a group that is created go through the filter; whatever else a client
sends is put between quotes as it is.
-/

namespace ImServer

namespace Group

namespace Sql

open SqlLiteral

/-- What clients send has no NUL. -/
abbrev CString := { text : List UInt8 // 0 ∉ text }

/-- SQL with fields between quotes. -/
structure Statement where
  sqls : List String
  fields : List Field

def Statement.pieces (s : Statement) : List Piece := interleave (s.sqls.map CText.bytes) s.fields

def decimal (n : Nat) : List UInt8 := CText.bytes (toString n)

/-- `%d` of an `uint32_t`. -/
def printInt (n : UInt32) : List UInt8 :=
  if n.toNat < 2 ^ 31 then decimal n.toNat else 0x2d :: decimal (2 ^ 32 - n.toNat)

/-- `%u` of an `uint64_t`, and the letter behind it. -/
def printTime (now : Nat) : List UInt8 := decimal (now % 2 ^ 32) ++ [0x6c]

/-- What a client sent, pasted as it is, whatever quotes are in it. -/
def client (text : CString) : Field := asIs text.val

/-- What a client sent, filtered. -/
def clientFiltered (text : CString) : Field := filtered text.val

def createSql : List String :=
  ["insert into group_t(GROUP_ID, GROUP_NAME,GROUP_AVATAR,GROUP_COUNT,GROUP_PERMISSION," ++
    "GROUP_STATUS,GROUP_ANNOUNCEMENT,GROUP_MASTERID,GROUP_CREATETIME,GROUP_UPDATETIME) " ++
    "\t\t\t\t\t\t\t\t\t\tvalues(",
    ", ", ", ", ",", ", ", ", ", ", ", ", ", ",from_unixtime(", "),from_unixtime(", "))"]

def insertGroup (groupId name avatar : CString) (npermission : UInt32) (status : Nat)
    (remarks userId : CString) (now : Nat) : Statement where
  sqls := createSql
  fields :=
    [client groupId, clientFiltered name, clientFiltered avatar, asIs (decimal 1),
      asIs (printInt npermission), asIs (decimal status), clientFiltered remarks, client userId,
      asIs (printTime now), asIs (printTime now)]

def memberSql : List String :=
  ["insert into groupmember_t(GROUP_ID, MEMBER_ID,MEMBER_STATUS,MEMBER_REMARKS,hide_flag," ++
    "MEMBER_CREATETIME,MEMBER_UPDATETIME) \t\t\t\t\t\t\t\t\t\tvalues(",
    ", ", ", ", ", ", ",", ",now(),now())on duplicate key update MEMBER_STATUS = "]

def insertGroupMember (userId groupId : CString) (bStatus bHide : UInt8) : Statement where
  sqls := memberSql
  fields :=
    [client groupId, client userId, asIs (decimal bStatus.toNat), asIs [], asIs (decimal bHide.toNat),
      asIs (decimal bStatus.toNat)]

def kickSql : List String :=
  ["update groupmember_t set MEMBER_STATUS = 0,MEMBER_UPDATETIME=now() where GROUP_ID = ",
    " and MEMBER_ID = "]

/-- A member who quits loses his settings. -/
def quitSql : List String :=
  ["update groupmember_t set MEMBER_STATUS=0, hide_flag=0, sound_off=0, MEMBER_REMARKS=",
    ", MEMBER_UPDATETIME=now() where GROUP_ID = ", " and MEMBER_ID = "]

def removeGroupMember (userId groupId : CString) (bKick : Bool) : Statement :=
  if bKick then ⟨kickSql, [client groupId, client userId]⟩
  else ⟨quitSql, [asIs [], client groupId, client userId]⟩

def updateSql (column : String) : List String :=
  ["update group_t set  GROUP_UPDATETIME=now()," ++ column ++ " = ", "where GROUP_ID = "]

/-- An update of a column of group_t by the master. -/
def modifyColumn (column : String) (groupId content : CString) : Statement :=
  ⟨updateSql column, [client content, client groupId]⟩

def modifyGroupAnnouncement : CString → CString → Statement := modifyColumn "GROUP_ANNOUNCEMENT"

def modifyGroupName : CString → CString → Statement := modifyColumn "GROUP_NAME"

def modifyGroupAvatar : CString → CString → Statement := modifyColumn "GROUP_AVATAR"

def updateMemberSql (bStatus : String) : List String :=
  ["update groupmember_t set MEMBER_UPDATETIME=now(),MEMBER_STATUS = " ++ bStatus ++
    " where GROUP_ID = ", " and MEMBER_ID = "]

/-- The group gets a master, the old one becomes a member, and the new one the master. -/
def modifyGroupMaster (userId groupId involvedId : CString) : List Statement :=
  [modifyColumn "GROUP_MASTERID" groupId involvedId,
    ⟨updateMemberSql "1", [client groupId, client userId]⟩,
    ⟨updateMemberSql "3", [client groupId, client involvedId]⟩]

def updateNickNameSql : List String :=
  ["update groupmember_t set  MEMBER_UPDATETIME=now(),MEMBER_REMARKS = ", "where GROUP_ID = ",
    " and MEMBER_ID = "]

def modifyGroupNickName (userId groupId content : CString) : Statement :=
  ⟨updateNickNameSql, [client content, client groupId, client userId]⟩

def sqlBatchBufsize : Nat := 4 * 1024 * 1024

def insertMultiGroupMember.sql : List UInt8 := CText.bytes <|
  "insert into groupmember_t(GROUP_ID, MEMBER_ID,MEMBER_STATUS,MEMBER_REMARKS,MEMBER_CREATETIME," ++
    "MEMBER_UPDATETIME) values"

def insertMultiGroupMember.update : List UInt8 :=
  CText.bytes "on duplicate key update MEMBER_STATUS=values(MEMBER_STATUS);"

/-- The values of a member, without the comma behind them, as one row of the batch. -/
def insertMultiGroupMember.row (groupId : CString) (bStatus : UInt8) (userId : CString) :
    List Piece :=
  interleave (["(", ",", ",", ",", ",now(),now())"].map CText.bytes)
    [client groupId, client userId, asIs (decimal bStatus.toNat), asIs []]

/-- What is put into the buffer. -/
def insertMultiGroupMember.buffer (groupId : CString) (userIds : List CString) (bStatus : UInt8) :
    List UInt8 :=
  sql ++ userIds.flatMap fun userId => render (row groupId bStatus userId) ++ CText.bytes ","

/-- The text, unless it does not fit into the buffer. The last comma becomes a blank. -/
def insertMultiGroupMember.text (groupId : CString) (userIds : List CString) (bStatus : UInt8) :
    Option (List UInt8) :=
  if (buffer groupId userIds bStatus).length < sqlBatchBufsize then
    some ((buffer groupId userIds bStatus).dropLast ++ CText.bytes " " ++ update)
  else none

/-- The rows with commas between them. -/
def insertMultiGroupMember.pieces (groupId : CString) (userIds : List CString) (bStatus : UInt8) :
    List Piece :=
  match userIds with
  | [] => []
  | userId :: userIds =>
    .sql sql :: (row groupId bStatus userId ++
      (userIds.flatMap fun userId => .sql (CText.bytes ",") :: row groupId bStatus userId) ++
      [.sql (CText.bytes " "), .sql update])

inductive Operation where
  | insertGroup (groupId name avatar : CString) (npermission : UInt32) (status : Nat)
      (remarks userId : CString) (now : Nat)
  | insertGroupMember (userId groupId : CString) (bStatus bHide : UInt8)
  | insertMultiGroupMember (groupId : CString) (userIds : List CString) (bStatus : UInt8)
  | removeGroupMember (userId groupId : CString) (bKick : Bool)
  | modifyGroupAnnouncement (groupId content : CString)
  | modifyGroupName (groupId content : CString)
  | modifyGroupMaster (userId groupId involvedId : CString)
  | modifyGroupAvatar (groupId content : CString)
  | modifyGroupNickName (userId groupId content : CString)

/-- A text for `Insert` or `Update`, if there is one, and what it is meant to be. -/
structure Handed where
  text : Option (List UInt8)
  intended : List Piece

def Statement.handed (s : Statement) : Handed := ⟨some (render s.pieces), s.pieces⟩

/-- The text is one statement whose literals are what the client sent. -/
def Handed.KeepsMeaning (h : Handed) : Prop :=
  ∃ text, h.text = some text ∧ tokens text = some (meaning h.intended)

namespace Operation

/-- What an operation hands to `Insert` and `Update`. The members are counted in 16 bits. -/
def handed : Operation → List Handed
  | insertGroup groupId name avatar npermission status remarks userId now =>
    [(Sql.insertGroup groupId name avatar npermission status remarks userId now).handed]
  | insertGroupMember userId groupId bStatus bHide =>
    [(Sql.insertGroupMember userId groupId bStatus bHide).handed]
  | insertMultiGroupMember groupId userIds bStatus =>
    if userIds.length % 2 ^ 16 = 0 then []
    else
      [⟨insertMultiGroupMember.text groupId userIds bStatus,
        insertMultiGroupMember.pieces groupId userIds bStatus⟩]
  | removeGroupMember userId groupId bKick => [(Sql.removeGroupMember userId groupId bKick).handed]
  | modifyGroupAnnouncement groupId content =>
    [(Sql.modifyGroupAnnouncement groupId content).handed]
  | modifyGroupName groupId content => [(Sql.modifyGroupName groupId content).handed]
  | modifyGroupMaster userId groupId involvedId =>
    (Sql.modifyGroupMaster userId groupId involvedId).map Statement.handed
  | modifyGroupAvatar groupId content => [(Sql.modifyGroupAvatar groupId content).handed]
  | modifyGroupNickName userId groupId content =>
    [(Sql.modifyGroupNickName userId groupId content).handed]

def KeepsMeaning (op : Operation) : Prop := ∀ h ∈ op.handed, h.KeepsMeaning

end Operation

section Reading

variable {field : Field} {text : CString}

/-- What is pasted as it is and read back. -/
def IsPlain (text : CString) : Prop := quote ∉ text.val ∧ KeepsBackslashes text.val

/-- What is filtered and read back. -/
def IsPlainFiltered (text : CString) : Prop := semicolon ∉ text.val ∧ KeepsBackslashes text.val

theorem client_reads_iff : (client text).Reads ↔ IsPlain text := asIs_reads_iff

theorem clientFiltered_reads_iff : (clientFiltered text).Reads ↔ IsPlainFiltered text :=
  filtered_reads_iff

theorem asIs_reads_of_digits {digits : List UInt8}
    (h : ∀ b ∈ digits, b = 0x2d ∨ b = 0x6c ∨ 48 ≤ b ∧ b ≤ 57) : (asIs digits).Reads := by
  have hnot : ∀ b, b = quote ∨ b = backslash → b ∉ digits := by
    rintro b (rfl | rfl) hb
    · exact absurd (h _ hb) (by decide)
    · exact absurd (h _ hb) (by decide)
  exact asIs_reads (hnot _ (.inl rfl)) (keepsBackslashes_of_not_mem (hnot _ (.inr rfl)))

theorem decimal_reads (n : Nat) : (asIs (decimal n)).Reads :=
  asIs_reads_of_digits fun _ hb => .inr (.inr (CText.mem_bytes_toString hb))

theorem printInt_reads (n : UInt32) : (asIs (printInt n)).Reads := by
  unfold printInt
  split
  · exact decimal_reads _
  · refine asIs_reads_of_digits fun b hb => ?_
    obtain rfl | hb := List.mem_cons.mp hb
    · exact .inl rfl
    · exact .inr (.inr (CText.mem_bytes_toString hb))

theorem printTime_reads (now : Nat) : (asIs (printTime now)).Reads := by
  refine asIs_reads_of_digits fun b hb => ?_
  obtain hb | hb := List.mem_append.mp hb
  · exact .inr (.inr (CText.mem_bytes_toString hb))
  · exact .inr (.inl (List.mem_singleton.mp hb))

theorem empty_reads : (asIs []).Reads := asIs_reads List.not_mem_nil trivial

/-- The fields are pasted as they are, or filtered. -/
def Statement.Pasted (s : Statement) : Prop :=
  ∀ field ∈ s.fields, (∃ text, field = asIs text) ∨ ∃ source, field = filtered source

theorem Statement.keepsMeaning_iff {s : Statement} (hsqls : ∀ sql ∈ s.sqls.map CText.bytes, IsSql sql)
    (hlength : s.fields.length ≤ s.sqls.length) (hpasted : s.Pasted) :
    s.handed.KeepsMeaning ↔ ∀ field ∈ s.fields, field.Reads := by
  have hlength' : s.fields.length ≤ (s.sqls.map CText.bytes).length := by rwa [List.length_map]
  have hiff := tokens_render (wellFormed_interleave hsqls s.fields) fun field hfield => ?_
  · refine Iff.trans ?_ (hiff.trans (forall_congr' fun field => ?_))
    · exact ⟨fun ⟨_, htext, hread⟩ => Option.some.inj htext ▸ hread, fun hread => ⟨_, rfl, hread⟩⟩
    · rw [mem_interleave hlength']
  · obtain ⟨text, rfl⟩ | ⟨source, rfl⟩ := hpasted field ((mem_interleave hlength').mp hfield)
    · exact asIs_reads_or_breaks text
    · exact filtered_reads_or_breaks source

end Reading

section Literals

/-- Whether a literal may stand between fields. -/
def isSqlText (chars : List Char) : Bool :=
  !chars.isEmpty && chars.all fun c =>
    (String.utf8EncodeChar c).all fun b => b != quote && b != backslash && b != doubleQuote

theorem isSql_ofList {text : String} {chars : List Char} (htext : text = String.ofList chars)
    (h : isSqlText chars = true) : IsSql (CText.bytes text) := by
  rw [htext, CText.bytes_ofList]
  simp only [isSqlText, Bool.and_eq_true, Bool.not_eq_true', List.isEmpty_eq_false_iff,
    List.all_eq_true, bne_iff_ne] at h
  constructor
  · obtain ⟨c, chars, rfl⟩ := List.exists_cons_of_ne_nil h.1
    rw [List.flatMap_cons]
    exact List.append_ne_nil_of_left_ne_nil String.utf8EncodeChar_ne_nil _
  · intro b hb
    obtain ⟨c, hc, hb⟩ := List.mem_flatMap.mp hb
    obtain ⟨⟨hquote, hbackslash⟩, hdouble⟩ := h.2 c hc b hb
    exact ⟨fun hspecial => hspecial.elim hquote hbackslash, hdouble⟩

theorem isSql_append {text text' : String} (h : IsSql (CText.bytes text))
    (h' : IsSql (CText.bytes text')) : IsSql (CText.bytes (text ++ text')) := by
  rw [CText.bytes_append]
  exact ⟨List.append_ne_nil_of_left_ne_nil h.1 _, List.forall_mem_append.mpr ⟨h.2, h'.2⟩⟩

theorem isSql_createSql : ∀ sql ∈ createSql.map CText.bytes, IsSql sql := by
  have hblank : IsSql (CText.bytes ", ") := isSql_ofList rfl (by decide)
  have hcomma : IsSql (CText.bytes ",") := isSql_ofList rfl (by decide)
  simp only [createSql, List.map_cons, List.map_nil, List.forall_mem_cons]
  refine ⟨isSql_append (isSql_append ?_ ?_) ?_, hblank, hblank, hcomma, hblank, hblank, hblank, hblank,
    ?_, ?_, ?_, List.forall_mem_nil _⟩
  all_goals exact isSql_ofList rfl (by decide)

theorem isSql_memberSql : ∀ sql ∈ memberSql.map CText.bytes, IsSql sql := by
  have hcomma : IsSql (CText.bytes ", ") := isSql_ofList rfl (by decide)
  simp only [memberSql, List.map_cons, List.map_nil, List.forall_mem_cons]
  refine ⟨isSql_append ?_ ?_, hcomma, hcomma, hcomma, ?_, ?_, List.forall_mem_nil _⟩
  all_goals exact isSql_ofList rfl (by decide)

theorem isSql_kickSql : ∀ sql ∈ kickSql.map CText.bytes, IsSql sql := by
  simp only [kickSql, List.map_cons, List.map_nil, List.forall_mem_cons]
  refine ⟨?_, ?_, List.forall_mem_nil _⟩
  all_goals exact isSql_ofList rfl (by decide)

theorem isSql_quitSql : ∀ sql ∈ quitSql.map CText.bytes, IsSql sql := by
  simp only [quitSql, List.map_cons, List.map_nil, List.forall_mem_cons]
  refine ⟨?_, ?_, ?_, List.forall_mem_nil _⟩
  all_goals exact isSql_ofList rfl (by decide)

theorem isSql_updateSql {column : String} (hcolumn : IsSql (CText.bytes column)) :
    ∀ sql ∈ (updateSql column).map CText.bytes, IsSql sql := by
  simp only [updateSql, List.map_cons, List.map_nil, List.forall_mem_cons]
  refine ⟨isSql_append (isSql_append ?_ hcolumn) ?_, ?_, List.forall_mem_nil _⟩
  all_goals exact isSql_ofList rfl (by decide)

theorem isSql_announcement : IsSql (CText.bytes "GROUP_ANNOUNCEMENT") :=
  isSql_ofList rfl (by decide)

theorem isSql_name : IsSql (CText.bytes "GROUP_NAME") := isSql_ofList rfl (by decide)

theorem isSql_masterid : IsSql (CText.bytes "GROUP_MASTERID") := isSql_ofList rfl (by decide)

theorem isSql_avatar : IsSql (CText.bytes "GROUP_AVATAR") := isSql_ofList rfl (by decide)

theorem isSql_one : IsSql (CText.bytes "1") := isSql_ofList rfl (by decide)

theorem isSql_three : IsSql (CText.bytes "3") := isSql_ofList rfl (by decide)

theorem isSql_updateMemberSql {bStatus : String} (hstatus : IsSql (CText.bytes bStatus)) :
    ∀ sql ∈ (updateMemberSql bStatus).map CText.bytes, IsSql sql := by
  simp only [updateMemberSql, List.map_cons, List.map_nil, List.forall_mem_cons]
  refine ⟨isSql_append (isSql_append ?_ hstatus) ?_, ?_, List.forall_mem_nil _⟩
  all_goals exact isSql_ofList rfl (by decide)

theorem isSql_updateNickNameSql : ∀ sql ∈ updateNickNameSql.map CText.bytes, IsSql sql := by
  simp only [updateNickNameSql, List.map_cons, List.map_nil, List.forall_mem_cons]
  refine ⟨?_, ?_, ?_, List.forall_mem_nil _⟩
  all_goals exact isSql_ofList rfl (by decide)

end Literals

section Operations

variable {groupId userId involvedId content name avatar remarks : CString} {bStatus bHide : UInt8}
variable {userIds : List CString}

theorem insertGroup_iff (npermission : UInt32) (status now : Nat) :
    (insertGroup groupId name avatar npermission status remarks userId now).handed.KeepsMeaning ↔
      IsPlain groupId ∧ IsPlainFiltered name ∧ IsPlainFiltered avatar ∧ IsPlainFiltered remarks ∧
        IsPlain userId := by
  refine (Statement.keepsMeaning_iff isSql_createSql ?_ ?_).trans ?_
  · exact Nat.le_succ 10
  · simp [Statement.Pasted, insertGroup, client, clientFiltered]
  · simp only [insertGroup, List.forall_mem_cons, client_reads_iff, clientFiltered_reads_iff,
      decimal_reads, printInt_reads, printTime_reads, true_and]
    simp

theorem insertGroupMember_iff :
    (insertGroupMember userId groupId bStatus bHide).handed.KeepsMeaning ↔
      IsPlain groupId ∧ IsPlain userId := by
  refine (Statement.keepsMeaning_iff isSql_memberSql ?_ ?_).trans ?_
  · exact Nat.le_refl 6
  · simp [Statement.Pasted, insertGroupMember, client]
  · simp only [insertGroupMember, List.forall_mem_cons, client_reads_iff, decimal_reads, empty_reads,
      true_and]
    simp

theorem removeGroupMember_iff (bKick : Bool) :
    (removeGroupMember userId groupId bKick).handed.KeepsMeaning ↔
      IsPlain groupId ∧ IsPlain userId := by
  cases bKick with
  | false =>
    refine (Statement.keepsMeaning_iff isSql_quitSql ?_ ?_).trans ?_
    · exact Nat.le_refl 3
    · simp [Statement.Pasted, removeGroupMember, client]
    · simp [removeGroupMember, client_reads_iff, empty_reads]
  | true =>
    refine (Statement.keepsMeaning_iff isSql_kickSql ?_ ?_).trans ?_
    · exact Nat.le_refl 2
    · simp [Statement.Pasted, removeGroupMember, client]
    · simp [removeGroupMember, client_reads_iff]

theorem modifyColumn_iff {column : String} (groupId content : CString)
    (hcolumn : IsSql (CText.bytes column)) :
    (modifyColumn column groupId content).handed.KeepsMeaning ↔ IsPlain content ∧ IsPlain groupId := by
  refine (Statement.keepsMeaning_iff (isSql_updateSql hcolumn) ?_ ?_).trans ?_
  · exact Nat.le_refl 2
  · simp [Statement.Pasted, modifyColumn, client]
  · simp [modifyColumn, client_reads_iff]

theorem updateMember_iff {bStatus : String} (groupId userId : CString)
    (hstatus : IsSql (CText.bytes bStatus)) :
    (Statement.mk (updateMemberSql bStatus) [client groupId, client userId]).handed.KeepsMeaning ↔
      IsPlain groupId ∧ IsPlain userId := by
  refine (Statement.keepsMeaning_iff (isSql_updateMemberSql hstatus) ?_ ?_).trans ?_
  · exact Nat.le_refl 2
  · simp [Statement.Pasted, client]
  · simp [client_reads_iff]

theorem modifyGroupMaster_iff :
    (∀ h ∈ (modifyGroupMaster userId groupId involvedId).map Statement.handed, h.KeepsMeaning) ↔
      IsPlain involvedId ∧ IsPlain groupId ∧ IsPlain userId := by
  have hmaster := modifyColumn_iff groupId involvedId isSql_masterid
  have hold := updateMember_iff groupId userId isSql_one
  have hnew := updateMember_iff groupId involvedId isSql_three
  rw [List.forall_mem_map]
  simp only [modifyGroupMaster, List.forall_mem_cons, hmaster, hold, hnew]
  simp only [List.not_mem_nil, IsEmpty.forall_iff, implies_true, and_true]
  constructor
  · rintro ⟨⟨hinvolved, hgroup⟩, ⟨-, huser⟩, -⟩
    exact ⟨hinvolved, hgroup, huser⟩
  · rintro ⟨hinvolved, hgroup, huser⟩
    exact ⟨⟨hinvolved, hgroup⟩, ⟨hgroup, huser⟩, hgroup, hinvolved⟩

theorem modifyGroupNickName_iff :
    (modifyGroupNickName userId groupId content).handed.KeepsMeaning ↔
      IsPlain content ∧ IsPlain groupId ∧ IsPlain userId := by
  refine (Statement.keepsMeaning_iff isSql_updateNickNameSql ?_ ?_).trans ?_
  · exact Nat.le_refl 3
  · simp [Statement.Pasted, modifyGroupNickName, client]
  · simp [modifyGroupNickName, client_reads_iff]

end Operations

section Batch

variable {groupId userId : CString} {userIds : List CString} {bStatus : UInt8}

/-- Commas behind the parts are commas between them and one behind the last. -/
theorem flatMap_comma {α : Type*} (part : α → List UInt8) (comma : List UInt8) (a : α) (as : List α) :
    (a :: as).flatMap (fun a => part a ++ comma) =
      part a ++ as.flatMap (fun a => comma ++ part a) ++ comma := by
  induction as generalizing a with
  | nil => simp
  | cons a' as ih => rw [List.flatMap_cons, ih a', List.flatMap_cons]; simp

namespace insertMultiGroupMember

theorem render_pieces (userId : CString) (userIds : List CString) :
    render (pieces groupId (userId :: userIds) bStatus) =
      (buffer groupId (userId :: userIds) bStatus).dropLast ++ CText.bytes " " ++ update := by
  have hcomma : CText.bytes "," = [0x2c] := by decide
  rw [buffer, flatMap_comma, ← List.append_assoc, hcomma, List.dropLast_concat]
  have hrows : render (userIds.flatMap fun userId => .sql [0x2c] :: row groupId bStatus userId) =
      userIds.flatMap fun userId => [0x2c] ++ render (row groupId bStatus userId) :=
    List.flatMap_assoc
  simp only [pieces, hcomma]
  rw [render, List.flatMap_cons, ← render, render_append, render_append, hrows]
  simp [render, Piece.render]

theorem isSql_comma : IsSql (CText.bytes ",") := isSql_ofList rfl (by decide)

theorem isSql_blank : IsSql (CText.bytes " ") := isSql_ofList rfl (by decide)

theorem isSql_row : ∀ sql ∈ ["(", ",", ",", ",", ",now(),now())"].map CText.bytes, IsSql sql := by
  simp only [List.map_cons, List.map_nil, List.forall_mem_cons]
  refine ⟨?_, isSql_comma, isSql_comma, isSql_comma, ?_, List.forall_mem_nil _⟩
  all_goals exact isSql_ofList rfl (by decide)

theorem isSql_sql : IsSql sql := by
  refine isSql_append ?_ ?_
  · exact isSql_ofList rfl (by decide)
  · exact isSql_ofList rfl (by decide)

theorem isSql_update : IsSql update := isSql_ofList rfl (by decide)

theorem mem_row {field : Field} : .quoted field ∈ row groupId bStatus userId ↔
    field ∈ [client groupId, client userId, asIs (decimal bStatus.toNat), asIs []] :=
  mem_interleave (Nat.le_succ 4)

/-- The rows behind the first one, and what follows them, begin with a comma or a blank. -/
theorem wellFormed_rows (groupId : CString) (bStatus : UInt8) (userIds : List CString) :
    let rows := (userIds.flatMap fun userId => Piece.sql (CText.bytes ",") :: row groupId bStatus userId) ++
      [Piece.sql (CText.bytes " "), Piece.sql update]
    WellFormed rows ∧ Opens (render rows) := by
  induction userIds with
  | nil => exact ⟨⟨isSql_blank.2, isSql_update.2, trivial⟩, isSql_blank.opens _⟩
  | cons userId userIds ih =>
    dsimp only at ih ⊢
    rw [List.flatMap_cons, List.append_assoc, List.cons_append]
    refine ⟨⟨isSql_comma.2, ?_⟩, isSql_comma.opens _⟩
    exact wellFormed_append (wellFormed_interleave isSql_row _) ih.1 ih.2

theorem wellFormed_pieces (userIds : List CString) : WellFormed (pieces groupId userIds bStatus) := by
  cases userIds with
  | nil => trivial
  | cons userId userIds =>
    obtain ⟨hwf, hopens⟩ := wellFormed_rows groupId bStatus userIds
    refine ⟨isSql_sql.2, ?_⟩
    rw [List.append_assoc]
    exact wellFormed_append (wellFormed_interleave isSql_row _) hwf hopens

theorem mem_pieces {field : Field} :
    .quoted field ∈ pieces groupId userIds bStatus ↔ ∃ userId ∈ userIds,
      field ∈ [client groupId, client userId, asIs (decimal bStatus.toNat), asIs []] := by
  cases userIds with
  | nil => simp [pieces]
  | cons userId userIds => simp [pieces, mem_row]

/-- The statement and the rows in the buffer, by the lengths of the ids. -/
def bufferLength (groupId : CString) (userIds : List CString) (bStatus : UInt8) : Nat :=
  sql.length + (userIds.map fun userId =>
    groupId.val.length + userId.val.length + (decimal bStatus.toNat).length + 26).sum

theorem length_row (groupId userId : CString) (bStatus : UInt8) :
    (render (row groupId bStatus userId) ++ CText.bytes ",").length =
      groupId.val.length + userId.val.length + (decimal bStatus.toNat).length + 26 := by
  have hparen : (CText.bytes "(").length = 1 := by decide
  have hcomma : (CText.bytes ",").length = 1 := by decide
  have hnow : (CText.bytes ",now(),now())").length = 13 := by decide
  simp only [row, List.map_cons, List.map_nil, interleave, render, List.flatMap_cons,
    List.flatMap_nil, Piece.render, client, asIs, List.length_append, List.length_cons,
    List.length_nil, hparen, hcomma, hnow]
  omega

theorem length_buffer (groupId : CString) (userIds : List CString) (bStatus : UInt8) :
    (buffer groupId userIds bStatus).length = bufferLength groupId userIds bStatus := by
  simp only [buffer, bufferLength, List.length_append, List.length_flatMap, ← length_row]

theorem keepsMeaning_iff (hsome : userIds ≠ []) :
    (Handed.mk (text groupId userIds bStatus) (pieces groupId userIds bStatus)).KeepsMeaning ↔
      bufferLength groupId userIds bStatus < sqlBatchBufsize ∧ IsPlain groupId ∧
        ∀ userId ∈ userIds, IsPlain userId := by
  have hfields : (∀ field, .quoted field ∈ pieces groupId userIds bStatus → field.Reads) ↔
      IsPlain groupId ∧ ∀ userId ∈ userIds, IsPlain userId := by
    obtain ⟨someId, hsomeId⟩ := List.exists_mem_of_ne_nil _ hsome
    simp only [mem_pieces]
    constructor
    · intro h
      have hids : ∀ userId ∈ userIds, (client groupId).Reads ∧ (client userId).Reads :=
        fun userId hmem => ⟨h _ ⟨userId, hmem, by simp⟩, h _ ⟨userId, hmem, by simp⟩⟩
      exact ⟨client_reads_iff.mp (hids someId hsomeId).1,
        fun userId hmem => client_reads_iff.mp (hids userId hmem).2⟩
    · rintro ⟨hgroup, husers⟩ field ⟨userId, hmem, hfield⟩
      simp only [List.mem_cons, List.not_mem_nil, or_false] at hfield
      obtain rfl | rfl | rfl | rfl := hfield
      · exact client_reads_iff.mpr hgroup
      · exact client_reads_iff.mpr (husers userId hmem)
      · exact decimal_reads _
      · exact empty_reads
  have hread := (tokens_render (wellFormed_pieces userIds) fun field hfield => ?_).trans hfields
  · obtain ⟨userId, userIds, rfl⟩ := List.exists_cons_of_ne_nil hsome
    unfold Handed.KeepsMeaning text
    rw [← length_buffer, ← hread, render_pieces]
    split
    · next hfits => simp [hfits]
    · next hfits => simp [hfits]
  · obtain ⟨userId, -, hfield⟩ := mem_pieces.mp hfield
    simp only [List.mem_cons, List.not_mem_nil, or_false] at hfield
    obtain rfl | rfl | rfl | rfl := hfield
    all_goals exact asIs_reads_or_breaks _

end insertMultiGroupMember

end Batch

/-- Nothing that a client sent has quotes, or semicolons where it is filtered, or backslashes but
those before `%` and `_`. -/
def Operation.Plain : Operation → Prop
  | insertGroup groupId name avatar _ _ remarks userId _ =>
    IsPlain groupId ∧ IsPlainFiltered name ∧ IsPlainFiltered avatar ∧ IsPlainFiltered remarks ∧
      IsPlain userId
  | insertGroupMember userId groupId _ _ => IsPlain groupId ∧ IsPlain userId
  | insertMultiGroupMember groupId userIds bStatus =>
    userIds.length % 2 ^ 16 ≠ 0 →
      insertMultiGroupMember.bufferLength groupId userIds bStatus < sqlBatchBufsize ∧
        IsPlain groupId ∧ ∀ userId ∈ userIds, IsPlain userId
  | removeGroupMember userId groupId _ => IsPlain groupId ∧ IsPlain userId
  | modifyGroupAnnouncement groupId content => IsPlain content ∧ IsPlain groupId
  | modifyGroupName groupId content => IsPlain content ∧ IsPlain groupId
  | modifyGroupMaster userId groupId involvedId =>
    IsPlain involvedId ∧ IsPlain groupId ∧ IsPlain userId
  | modifyGroupAvatar groupId content => IsPlain content ∧ IsPlain groupId
  | modifyGroupNickName userId groupId content =>
    IsPlain content ∧ IsPlain groupId ∧ IsPlain userId

/-- The SQL of an operation keeps its meaning exactly if what the clients sent is plain. -/
theorem sql_keepsMeaning_iff (op : Operation) : op.KeepsMeaning ↔ op.Plain := by
  unfold Operation.KeepsMeaning
  cases op with
  | insertGroup groupId name avatar npermission status remarks userId now =>
    exact List.forall_mem_singleton.trans (insertGroup_iff npermission status now)
  | insertGroupMember userId groupId bStatus bHide =>
    exact List.forall_mem_singleton.trans insertGroupMember_iff
  | insertMultiGroupMember groupId userIds bStatus =>
    simp only [Operation.handed, Operation.Plain]
    split
    · next hnone => exact iff_of_true nofun fun hsome => absurd hnone hsome
    · next hsome =>
      have hne : userIds ≠ [] := by
        rintro rfl
        exact hsome rfl
      rw [forall_prop_of_true hsome]
      exact List.forall_mem_singleton.trans (insertMultiGroupMember.keepsMeaning_iff hne)
  | removeGroupMember userId groupId bKick =>
    exact List.forall_mem_singleton.trans (removeGroupMember_iff bKick)
  | modifyGroupAnnouncement groupId content =>
    exact List.forall_mem_singleton.trans (modifyColumn_iff groupId content isSql_announcement)
  | modifyGroupName groupId content =>
    exact List.forall_mem_singleton.trans (modifyColumn_iff groupId content isSql_name)
  | modifyGroupMaster userId groupId involvedId => exact modifyGroupMaster_iff
  | modifyGroupAvatar groupId content =>
    exact List.forall_mem_singleton.trans (modifyColumn_iff groupId content isSql_avatar)
  | modifyGroupNickName userId groupId content =>
    exact List.forall_mem_singleton.trans modifyGroupNickName_iff

/-- The bytes of `O'Neil`, a name with a quote. -/
def oneil : CString := ⟨[0x4f, 0x27, 0x4e, 0x65, 0x69, 0x6c], by decide⟩

/-- The bytes of `a;b`. -/
def withSemicolon : CString := ⟨[0x61, 0x3b, 0x62], by decide⟩

/-- The bytes of `g1`. -/
def plainId : CString := ⟨[0x67, 0x31], by decide⟩

/-- A group cannot get a name with a quote, and loses the semicolons of the name that it is created
with. -/
theorem not_sql_keepsMeaning :
    ¬ (Operation.modifyGroupName plainId oneil).KeepsMeaning ∧
      ¬ (Operation.insertGroup plainId withSemicolon plainId 0 1 plainId plainId 0).KeepsMeaning := by
  have hname := modifyColumn_iff plainId oneil isSql_name
  constructor
  · intro h
    exact (hname.mp (h _ List.mem_cons_self)).1.1 (by decide)
  · intro h
    exact ((insertGroup_iff 0 1 0).mp (h _ List.mem_cons_self)).2.1.1 (by decide)

end Sql

end Group

end ImServer
