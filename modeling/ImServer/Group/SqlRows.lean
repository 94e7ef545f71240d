import ImServer.Group.SqlTexts
import ImServer.Lib.Table

/-!
# What the statements do to rows

The statements that write members and masters, and the selects of one member, are read as MySQL
reads them, literal by literal, and done to rows whose keys are the values of literals. A text
that is none of the statements that the group server means to write does nothing here.
-/

namespace ImServer

namespace Group

namespace Sql

open SqlLiteral

/-- The SQL between the literals of a statement, before the first and behind the last one, and
the values of the literals. -/
def shape : List Token → List (List UInt8) × List (List UInt8)
  | [] => ([[]], [])
  | .byte b :: toks => ((shape toks).1.modifyHead (b :: ·), (shape toks).2)
  | .text value :: toks => ([] :: (shape toks).1, value :: (shape toks).2)

/-- The SQL of a statement that ends with a literal. -/
def form (sqls : List String) : List (List UInt8) := sqls.map CText.bytes ++ [[]]

/-- The rows of groupmember_t with their status, and those of group_t with their master. -/
structure Db where
  members : Table (List UInt8 × List UInt8) (List UInt8) := ∅
  masters : Table (List UInt8) (List UInt8) := ∅

namespace Db

variable (db : Db)

/-- `update groupmember_t set MEMBER_STATUS = .. where GROUP_ID = .. and MEMBER_ID = ..`. -/
def setStatus (bStatus : List UInt8) : List (List UInt8) → Option Db
  | [groupId, userId] => some { db with members := db.members.update (groupId, userId) bStatus }
  | _ => none

/-- `insert into groupmember_t .. on duplicate key update MEMBER_STATUS = ..`, with what stands
in the values and what stands behind them. -/
def upsert : List (List UInt8) → Option Db
  | [groupId, userId, bStatus, _, _, bUpdate] =>
    some { db with
      members := db.members.insert (groupId, userId)
        (if (groupId, userId) ∈ db.members then bUpdate else bStatus) }
  | _ => none

/-- `update group_t set GROUP_MASTERID = .. where GROUP_ID = ..`. -/
def setMaster : List (List UInt8) → Option Db
  | [masterId, groupId] => some { db with masters := db.masters.update groupId masterId }
  | _ => none

/-- `insert into group_t`, which fails for a group that is there. -/
def insertGroup : List (List UInt8) → Option Db
  | [groupId, _, _, _, _, _, _, masterId, _, _] =>
    if groupId ∈ db.masters then none
    else some { db with masters := db.masters.insert groupId masterId }
  | _ => none

end Db

/-- The rows of a batch, one after the other. -/
def Db.insertRows : Db → List (List UInt8) → Option Db
  | db, [] => some db
  | db, groupId :: userId :: bStatus :: _ :: values =>
    Db.insertRows { db with members := db.members.insert (groupId, userId) bStatus } values
  | _, _ => none

/-- The SQL behind the first literal of a batch of rows, of which `n` are still to come. -/
def batchRest : Nat → List (List UInt8)
  | 0 => [CText.bytes ",now(),now())" ++ CText.bytes " " ++ insertMultiGroupMember.update]
  | n + 1 =>
    (CText.bytes ",now(),now())" ++ CText.bytes "," ++ CText.bytes "(") :: CText.bytes "," ::
      CText.bytes "," :: CText.bytes "," :: batchRest n

/-- The SQL of a batch of rows, four literals each. -/
def batchForm (n : Nat) : List (List UInt8) :=
  (insertMultiGroupMember.sql ++ CText.bytes "(") :: CText.bytes "," :: CText.bytes "," ::
    CText.bytes "," :: batchRest n

/-- What a statement with this SQL and these values does to the rows; none if it is not one of
those that are known here, or fails. -/
def Db.run (db : Db) (sqls values : List (List UInt8)) : Option Db :=
  if sqls = form kickSql then db.setStatus (decimal 0) values
  else if sqls = form quitSql then db.setStatus (decimal 0) values.tail
  else if sqls = form (updateMemberSql "1") then db.setStatus (decimal 1) values
  else if sqls = form (updateMemberSql "3") then db.setStatus (decimal 3) values
  else if sqls = form memberSql then db.upsert values
  else if sqls = form (updateSql "GROUP_MASTERID") then db.setMaster values
  else if sqls = createSql.map CText.bytes then db.insertGroup values
  else if sqls = batchForm (values.length / 4 - 1) then db.insertRows values
  else none

/-- What the text of a statement does to the rows. -/
def exec (text : List UInt8) (db : Db) : Option Db :=
  (tokens text).bind fun toks => db.run (shape toks).1 (shape toks).2

/-- One statement after the other; one that does not fit its buffer is not done. -/
def execAll (texts : List (Option (List UInt8))) (db : Db) : Option Db :=
  texts.foldlM (fun db text => text.bind fun text => exec text db) db

/-- The select of `IsMember`. -/
def memberStatusSql : List String :=
  ["select MEMBER_STATUS from groupmember_t where GROUP_ID = ", " and MEMBER_ID = "]

def memberStatus (userId groupId : CString) : Statement :=
  ⟨memberStatusSql, [client groupId, client userId]⟩

/-- The select of `GetGrpmem`, whose parameters are escaped. -/
def grpmemSql : List String :=
  ["SELECT `GROUP_ID`, `MEMBER_ID`, `MEMBER_STATUS`, `MEMBER_REMARKS` FROM `groupmember_t` " ++
    "WHERE(`GROUP_ID`= ", " AND `MEMBER_ID`= ", ");"]

def getGrpmem (groupId memId : CString) : Statement :=
  ⟨grpmemSql, [parameter groupId.val, parameter memId.val]⟩

/-- The status of the row that a select of one member finds, if it is one and there is a row. -/
def Db.find (db : Db) (sqls : List (List UInt8)) : List (List UInt8) → Option (Option (List UInt8))
  | [groupId, userId] =>
    if sqls = form memberStatusSql ∨ sqls = grpmemSql.map CText.bytes then
      some (db.members.lookup (groupId, userId))
    else none
  | _ => none

/-- What the text of a select finds. -/
def execSelect (text : List UInt8) (db : Db) : Option (Option (List UInt8)) :=
  (tokens text).bind fun toks => db.find (shape toks).1 (shape toks).2

section Shape

variable {field : Field} {fields : List Field} {sqls : List (List UInt8)} {toks : List Token}

theorem shape_fst_ne_nil (toks : List Token) : (shape toks).1 ≠ [] := by
  induction toks with
  | nil => exact List.cons_ne_nil _ _
  | cons tok toks ih =>
    cases tok with
    | byte b =>
      obtain ⟨sql, sqls, hsqls⟩ := List.exists_cons_of_ne_nil ih
      simp only [shape, hsqls, List.modifyHead_cons]
      exact List.cons_ne_nil _ _
    | text value => exact List.cons_ne_nil _ _

theorem shape_bytes (sql : List UInt8) (toks : List Token) :
    shape (sql.map Token.byte ++ toks) = ((shape toks).1.modifyHead (sql ++ ·), (shape toks).2) := by
  obtain ⟨head, tail, hsqls⟩ := List.exists_cons_of_ne_nil (shape_fst_ne_nil toks)
  induction sql with
  | nil => simp [hsqls, Prod.ext_iff]
  | cons b sql ih =>
    rw [List.map_cons, List.cons_append, shape, ih, hsqls]
    rfl

theorem shape_interleave_cons (sql : List UInt8) (field : Field) (sqls : List (List UInt8))
    (fields : List Field) :
    shape (meaning (interleave (sql :: sqls) (field :: fields))) =
      (sql :: (shape (meaning (interleave sqls fields))).1,
        field.value :: (shape (meaning (interleave sqls fields))).2) := by
  have hmeaning : meaning (interleave (sql :: sqls) (field :: fields)) =
      sql.map Token.byte ++ .text field.value :: meaning (interleave sqls fields) := by
    simp [interleave, meaning, Piece.meaning]
  rw [hmeaning, shape_bytes, shape]
  simp

/-- SQL and literals in turn, with as many literals as pieces of SQL. -/
theorem shape_interleave (hlength : sqls.length = fields.length) :
    shape (meaning (interleave sqls fields)) = (sqls ++ [[]], fields.map Field.value) := by
  induction fields generalizing sqls with
  | nil =>
    obtain rfl := List.length_eq_zero_iff.mp hlength
    rfl
  | cons field fields ih =>
    cases sqls with
    | nil => cases hlength
    | cons sql sqls =>
      rw [shape_interleave_cons, ih (Nat.succ.inj hlength)]
      rfl

theorem shape_interleave_last (fields : List Field) (hlength : sqls.length = fields.length + 1) :
    shape (meaning (interleave sqls fields)) = (sqls, fields.map Field.value) := by
  induction fields generalizing sqls with
  | nil =>
    obtain ⟨last, rfl⟩ := List.length_eq_one_iff.mp hlength
    have hmeaning : meaning (interleave [last] []) = last.map Token.byte ++ [] := by
      simp [meaning, Piece.meaning]
    rw [hmeaning, shape_bytes]
    simp [shape]
  | cons field fields ih =>
    cases sqls with
    | nil => cases hlength
    | cons sql sqls =>
      rw [shape_interleave_cons, ih (Nat.succ.inj hlength)]
      rfl

end Shape

section Forms

variable {db : Db} {values : List (List UInt8)}

theorem run_kick : db.run (form kickSql) values = db.setStatus (decimal 0) values := if_pos rfl

theorem ne_of_length {sqls sqls' : List (List UInt8)} (h : sqls.length ≠ sqls'.length) :
    sqls ≠ sqls' :=
  fun heq => h (congrArg List.length heq)

theorem form_ne {sqls sqls' : List String} (h : sqls ≠ sqls') : form sqls ≠ form sqls' :=
  fun heq => h (CText.bytes_injective.list_map (List.append_cancel_right heq))

theorem run_quit : db.run (form quitSql) values = db.setStatus (decimal 0) values.tail := by
  rw [Db.run, if_neg (ne_of_length (by decide)), if_pos rfl]

theorem run_one : db.run (form (updateMemberSql "1")) values = db.setStatus (decimal 1) values := by
  rw [Db.run, if_neg (form_ne (by decide +kernel)), if_neg (ne_of_length (by decide)), if_pos rfl]

theorem run_three :
    db.run (form (updateMemberSql "3")) values = db.setStatus (decimal 3) values := by
  rw [Db.run, if_neg (form_ne (by decide +kernel)), if_neg (ne_of_length (by decide)),
    if_neg (form_ne (by decide +kernel)), if_pos rfl]

theorem run_member : db.run (form memberSql) values = db.upsert values := by
  rw [Db.run, if_neg (ne_of_length (by decide)), if_neg (ne_of_length (by decide)),
    if_neg (ne_of_length (by decide)), if_neg (ne_of_length (by decide)), if_pos rfl]

theorem run_master : db.run (form (updateSql "GROUP_MASTERID")) values = db.setMaster values := by
  rw [Db.run, if_neg (form_ne (by decide +kernel)), if_neg (ne_of_length (by decide)),
    if_neg (form_ne (by decide +kernel)), if_neg (form_ne (by decide +kernel)),
    if_neg (ne_of_length (by decide)), if_pos rfl]

theorem run_create : db.run (createSql.map CText.bytes) values = db.insertGroup values := by
  rw [Db.run, if_neg (ne_of_length (by decide)), if_neg (ne_of_length (by decide)),
    if_neg (ne_of_length (by decide)), if_neg (ne_of_length (by decide)),
    if_neg (ne_of_length (by decide)), if_neg (ne_of_length (by decide)), if_pos rfl]

theorem length_batchForm (n : Nat) : (batchForm n).length = 4 * n + 5 := by
  have hrest : ∀ n, (batchRest n).length = 4 * n + 1 := by
    intro n
    induction n with
    | zero => rfl
    | succ n ih =>
      simp only [batchRest, List.length_cons, ih]
      omega
  simp only [batchForm, List.length_cons, hrest]

theorem run_batch : db.run (batchForm (values.length / 4 - 1)) values = db.insertRows values := by
  have hother : ∀ sqls : List (List UInt8), sqls.length % 4 ≠ 1 →
      batchForm (values.length / 4 - 1) ≠ sqls := by
    intro sqls hlength
    refine ne_of_length ?_
    rw [length_batchForm]
    omega
  rw [Db.run, if_neg (hother _ (by decide)), if_neg (hother _ (by decide)),
    if_neg (hother _ (by decide)), if_neg (hother _ (by decide)), if_neg (hother _ (by decide)),
    if_neg (hother _ (by decide)), if_neg (hother _ (by decide)), if_pos rfl]

/-- A statement that keeps its meaning and ends with a literal. -/
theorem exec_handed {s : Statement} (hread : s.handed.KeepsMeaning)
    (hlength : s.sqls.length = s.fields.length) :
    exec (render s.pieces) db = db.run (form s.sqls) (s.fields.map Field.value) := by
  obtain ⟨text, htext, htokens⟩ := hread
  obtain rfl := Option.some.inj htext
  have hshape : shape (meaning s.pieces) = (form s.sqls, s.fields.map Field.value) :=
    shape_interleave (by rw [List.length_map, hlength])
  rw [exec, htokens, Option.bind_some]
  change db.run (shape (meaning s.pieces)).1 (shape (meaning s.pieces)).2 = _
  rw [hshape]

end Forms

section Batch

variable {groupId userId : CString} {userIds : List CString} {bStatus : UInt8}
  {rest : List Token} {sqls values : List (List UInt8)} {sql : List UInt8}

/-- The literals of the rows of a batch. -/
def batchValues (groupId : CString) (userIds : List CString) (bStatus : UInt8) :
    List (List UInt8) :=
  userIds.flatMap fun userId => [groupId.val, userId.val, decimal bStatus.toNat, []]

theorem length_batchValues : (batchValues groupId userIds bStatus).length = 4 * userIds.length := by
  induction userIds with
  | nil => rfl
  | cons userId userIds ih =>
    rw [batchValues, List.flatMap_cons, List.length_append, ← batchValues, ih]
    simp only [List.length_cons, List.length_nil]
    omega

/-- A row begins with SQL that goes on what is in front of it, and ends with SQL that what
follows goes on. -/
theorem shape_row (before : List UInt8) (userId : CString)
    (hrest : shape ((CText.bytes ",now(),now())").map Token.byte ++ rest) = (sqls, values)) :
    shape (before.map Token.byte ++
        (meaning (insertMultiGroupMember.row groupId bStatus userId) ++ rest)) =
      ((before ++ CText.bytes "(") :: CText.bytes "," :: CText.bytes "," :: CText.bytes "," :: sqls,
        groupId.val :: userId.val :: decimal bStatus.toNat :: [] :: values) := by
  have hrow : before.map Token.byte ++
      (meaning (insertMultiGroupMember.row groupId bStatus userId) ++ rest) =
        (before ++ CText.bytes "(").map Token.byte ++ (Token.text groupId.val ::
          ((CText.bytes ",").map Token.byte ++ (Token.text userId.val ::
            ((CText.bytes ",").map Token.byte ++ (Token.text (decimal bStatus.toNat) ::
              ((CText.bytes ",").map Token.byte ++ (Token.text [] ::
                ((CText.bytes ",now(),now())").map Token.byte ++ rest)))))))) := by
    simp [insertMultiGroupMember.row, interleave, meaning, Piece.meaning, client, asIs]
  rw [hrow, shape_bytes, shape, shape_bytes, shape, shape_bytes, shape, shape_bytes, shape, hrest]
  simp

theorem shape_rows (groupId : CString) (bStatus : UInt8) (userIds : List CString) :
    shape ((CText.bytes ",now(),now())").map Token.byte ++
        meaning ((userIds.flatMap fun userId =>
            Piece.sql (CText.bytes ",") :: insertMultiGroupMember.row groupId bStatus userId) ++
          [Piece.sql (CText.bytes " "), Piece.sql insertMultiGroupMember.update])) =
      (batchRest userIds.length, batchValues groupId userIds bStatus) := by
  induction userIds with
  | nil =>
    have hlast : (CText.bytes ",now(),now())").map Token.byte ++
        meaning [Piece.sql (CText.bytes " "), Piece.sql insertMultiGroupMember.update] =
          (CText.bytes ",now(),now())" ++ CText.bytes " " ++ insertMultiGroupMember.update).map
            Token.byte ++ [] := by
      simp [meaning, Piece.meaning]
    rw [List.flatMap_nil, List.nil_append, hlast, shape_bytes]
    simp [shape, batchRest, batchValues]
  | cons userId userIds ih =>
    have hnext : (CText.bytes ",now(),now())").map Token.byte ++
        meaning (((userId :: userIds).flatMap fun userId =>
            Piece.sql (CText.bytes ",") :: insertMultiGroupMember.row groupId bStatus userId) ++
          [Piece.sql (CText.bytes " "), Piece.sql insertMultiGroupMember.update]) =
        (CText.bytes ",now(),now())" ++ CText.bytes ",").map Token.byte ++
          (meaning (insertMultiGroupMember.row groupId bStatus userId) ++
            meaning ((userIds.flatMap fun userId =>
                Piece.sql (CText.bytes ",") :: insertMultiGroupMember.row groupId bStatus userId) ++
              [Piece.sql (CText.bytes " "), Piece.sql insertMultiGroupMember.update])) := by
      simp [meaning, Piece.meaning]
    rw [hnext, shape_row _ userId ih]
    rfl

theorem shape_pieces (userId : CString) (userIds : List CString) :
    shape (meaning (insertMultiGroupMember.pieces groupId (userId :: userIds) bStatus)) =
      (batchForm userIds.length, batchValues groupId (userId :: userIds) bStatus) := by
  have hpieces : meaning (insertMultiGroupMember.pieces groupId (userId :: userIds) bStatus) =
      insertMultiGroupMember.sql.map Token.byte ++
        (meaning (insertMultiGroupMember.row groupId bStatus userId) ++
          meaning ((userIds.flatMap fun userId =>
              Piece.sql (CText.bytes ",") :: insertMultiGroupMember.row groupId bStatus userId) ++
            [Piece.sql (CText.bytes " "), Piece.sql insertMultiGroupMember.update])) := by
    simp [insertMultiGroupMember.pieces, meaning, Piece.meaning]
  rw [hpieces, shape_row _ userId (shape_rows groupId bStatus userIds)]
  rfl

theorem insertRows_batchValues (db : Db) :
    db.insertRows (batchValues groupId userIds bStatus) =
      some { db with
        members := userIds.foldl
          (fun members userId => members.insert (groupId.val, userId.val) (decimal bStatus.toNat))
          db.members } := by
  induction userIds generalizing db with
  | nil => rfl
  | cons userId userIds ih =>
    have hvalues : batchValues groupId (userId :: userIds) bStatus =
        groupId.val :: userId.val :: decimal bStatus.toNat :: [] ::
          batchValues groupId userIds bStatus := rfl
    rw [hvalues, Db.insertRows, ih]
    rfl

/-- The text of a batch that keeps its meaning inserts its rows. -/
theorem exec_batch {handed : Handed} (hhanded : handed =
      ⟨insertMultiGroupMember.text groupId userIds bStatus,
        insertMultiGroupMember.pieces groupId userIds bStatus⟩)
    (hsome : userIds ≠ []) (hread : handed.KeepsMeaning) (db : Db) :
    handed.text.bind (exec · db) =
      some { db with
        members := userIds.foldl
          (fun members userId => members.insert (groupId.val, userId.val) (decimal bStatus.toNat))
          db.members } := by
  obtain ⟨text, htext, htokens⟩ := hread
  obtain ⟨userId, userIds, rfl⟩ := List.exists_cons_of_ne_nil hsome
  subst hhanded
  have hform : userIds.length = (batchValues groupId (userId :: userIds) bStatus).length / 4 - 1 := by
    rw [length_batchValues, List.length_cons]
    omega
  rw [htext, Option.bind_some, exec, htokens, Option.bind_some, shape_pieces, hform, run_batch,
    insertRows_batchValues]

end Batch

theorem isSql_memberStatusSql : ∀ sql ∈ memberStatusSql.map CText.bytes, IsSql sql := by
  simp only [memberStatusSql, List.map_cons, List.map_nil, List.forall_mem_cons]
  refine ⟨?_, ?_, List.forall_mem_nil _⟩
  all_goals exact isSql_ofList rfl (by decide)

theorem isSql_grpmemSql : ∀ sql ∈ grpmemSql.map CText.bytes, IsSql sql := by
  simp only [grpmemSql, List.map_cons, List.map_nil, List.forall_mem_cons]
  refine ⟨isSql_append ?_ ?_, ?_, ?_, List.forall_mem_nil _⟩
  all_goals exact isSql_ofList rfl (by decide)

end Sql

end Group

end ImServer
