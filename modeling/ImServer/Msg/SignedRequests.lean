import ImServer.Lib.CText
import ImServer.Lib.FormUrlencoded

/-!
# Signed requests

The requests of msg/getDataInterfaceManager.cpp. Each function puts a text together that is signed,
and beside it the form that is posted. The identifiers are put into both as they stand, and the form
is handed to the library as a C string.

The first of the two functions that ask for the members of a group has the equals sign in the text
that is signed instead of in the form.
-/

namespace ImServer

namespace CGetDataInterfaceManager

open FormUrlencoded (Field Entry Plain Ordinary parse)
open CText (bytes cStr)

/-- The digest of a text, by the library. Which one it is does not matter. -/
abbrev Md5 := List UInt8 → Fin 16 → UInt8

/-- `%x` of four bits. -/
def hexDigit (d : UInt8) : UInt8 := if d < 10 then 48 + d else 87 + d

def md5Str (md5 : Md5) (str : List UInt8) : List UInt8 :=
  (List.ofFn (md5 str)).flatMap fun d => [hexDigit (d / 16), hexDigit (d % 16)]

def toupper (c : UInt8) : UInt8 := if 97 ≤ c ∧ c ≤ 122 then c - 32 else c

/-- `strMD5` of a text. -/
def sign (md5 : Md5) (str : List UInt8) : List UInt8 := (md5Str md5 str).map toupper

/-- What is signed and what is posted, which the functions put together separately. -/
structure Request where
  str : List UInt8
  strPost : List UInt8
  deriving DecidableEq, Repr

/-- `getGroupMemberInfoList` into a vector. -/
def getGroupMemberInfoVec (md5 : Md5) (strAppSecret strGroupId : List UInt8) : Request :=
  let str := strAppSecret ++ bytes "app_id2group_id=" ++ strGroupId ++ strAppSecret
  let strMD5 := sign md5 str
  { str, strPost := bytes "app_id=2&group_id" ++ strGroupId ++ bytes "&sign=" ++ strMD5 }

/-- `getGroupMemberInfoList` into a map. -/
def getGroupMemberInfoMap (md5 : Md5) (strAppSecret strGroupId : List UInt8) : Request :=
  let str := strAppSecret ++ bytes "app_id2group_id" ++ strGroupId ++ strAppSecret
  let strMD5 := sign md5 str
  { str, strPost := bytes "app_id=2&group_id=" ++ strGroupId ++ bytes "&sign=" ++ strMD5 }

def getFriendInfo (md5 : Md5) (strAppSecret strUsrId strFrdId : List UInt8) : Request :=
  let str := strAppSecret ++ bytes "app_id2friend_id" ++ strFrdId ++ bytes "user_id" ++ strUsrId ++
    strAppSecret
  let strMD5 := sign md5 str
  { str
    strPost := bytes "app_id=2&friend_id=" ++ strFrdId ++ bytes "&sign=" ++ strMD5 ++
      bytes "&user_id=" ++ strUsrId }

def getGroupInfo (md5 : Md5) (strAppSecret strGrpId : List UInt8) : Request :=
  let str := strAppSecret ++ bytes "app_id2group_id" ++ strGrpId ++ strAppSecret
  let strMD5 := sign md5 str
  { str, strPost := bytes "app_id=2&group_id=" ++ strGrpId ++ bytes "&sign=" ++ strMD5 }

def getUserInfo (md5 : Md5) (strAppSecret strUsrId : List UInt8) : Request :=
  let str := strAppSecret ++ bytes "app_id2user_id" ++ strUsrId ++ strAppSecret
  let strMD5 := sign md5 str
  { str, strPost := bytes "app_id=2&sign=" ++ strMD5 ++ bytes "&user_id=" ++ strUsrId }

/-- A call of one of the functions, with the ids as they are given to it. -/
inductive Call where
  | groupMemberVec (strGroupId : List UInt8)
  | groupMemberMap (strGroupId : List UInt8)
  | friendInfo (strUsrId strFrdId : List UInt8)
  | groupInfo (strGrpId : List UInt8)
  | userInfo (strUsrId : List UInt8)
  deriving DecidableEq, Repr

namespace Call

variable (md5 : Md5) (strAppSecret : List UInt8)

def request : Call → Request
  | .groupMemberVec strGroupId => getGroupMemberInfoVec md5 strAppSecret strGroupId
  | .groupMemberMap strGroupId => getGroupMemberInfoMap md5 strAppSecret strGroupId
  | .friendInfo strUsrId strFrdId => getFriendInfo md5 strAppSecret strUsrId strFrdId
  | .groupInfo strGrpId => getGroupInfo md5 strAppSecret strGrpId
  | .userInfo strUsrId => getUserInfo md5 strAppSecret strUsrId

/-- The body of the request. The library reads it up to a NUL. -/
def posted (call : Call) : List UInt8 := cStr (call.request md5 strAppSecret).strPost

/-- The parameters, in the order of their names, which is the order in which they are to be
signed. -/
def fields (sign : List UInt8) : Call → List Field
  | .groupMemberVec id | .groupMemberMap id | .groupInfo id =>
    [(bytes "app_id", bytes "2"), (bytes "group_id", id), (bytes "sign", sign)]
  | .friendInfo usrId frdId =>
    [(bytes "app_id", bytes "2"), (bytes "friend_id", frdId), (bytes "sign", sign),
      (bytes "user_id", usrId)]
  | .userInfo usrId => [(bytes "app_id", bytes "2"), (bytes "sign", sign), (bytes "user_id", usrId)]

/-- The secret around the names and values of the parameters without the sign. -/
def signedText (call : Call) : List UInt8 :=
  strAppSecret ++
    ((call.fields []).filter (·.1 ≠ bytes "sign")).flatMap (fun field => field.1 ++ field.2) ++
    strAppSecret

/-- The request says what it signs: the body is read as the parameters of the call, and the text
that is signed is made from these. -/
structure Says (call : Call) : Prop where
  body : parse (call.posted md5 strAppSecret) =
    call.fields (sign md5 (call.request md5 strAppSecret).str)
  signed : (call.request md5 strAppSecret).str = call.signedText strAppSecret

end Call

/-- A text that is read as it is, and whole. -/
def Sendable (text : List UInt8) : Prop := 0 ∉ text ∧ Plain text

instance (text : List UInt8) : Decidable (Sendable text) := instDecidableAnd

/-- The form of fields whose values are not encoded. -/
def rawForm (fields : List Field) : List UInt8 :=
  [38].intercalate (fields.map fun field => field.1 ++ 61 :: field.2)

theorem rawForm_cons (field : Field) (fields : List Field) :
    ∃ tail, rawForm (field :: fields) = (field.1 ++ 61 :: field.2) ++ tail ∧
      (tail = [] ∧ fields = [] ∨ tail = 38 :: rawForm fields) := by
  cases fields with
  | nil =>
    refine ⟨[], ?_, .inl ⟨rfl, rfl⟩⟩
    rw [rawForm, List.map_singleton, List.intercalate_singleton, List.append_nil]
  | cons field' fields =>
    refine ⟨_, ?_, .inr rfl⟩
    rw [rawForm, List.map_cons, List.map_cons, List.intercalate_cons_cons, List.append_assoc]
    rfl

theorem cStr_append {front : List UInt8} (h : 0 ∉ front) (text : List UInt8) :
    cStr (front ++ text) = front ++ cStr text := by
  rw [cStr, List.takeWhile_append_of_pos]
  · rfl
  · intro c hc
    exact decide_eq_true fun hzero => h (hzero ▸ hc)

theorem cStr_append_of_mem {front : List UInt8} (h : 0 ∈ front) (text : List UInt8) :
    cStr (front ++ text) = cStr front := by
  have hcut : ¬(front.takeWhile (· ≠ 0)).length = front.length := by
    intro hlength
    have heq : cStr front = front := (List.takeWhile_prefix _).eq_of_length hlength
    exact CText.cStr_eq_self_iff.mp heq h
  rw [cStr, List.takeWhile_append, if_neg hcut]
  rfl

/-- The name of a field can be read. -/
def Readable (name : List UInt8) : Prop := 0 ∉ name ∧ Plain name ∧ 61 ∉ name

/-- A value as a C string. -/
def entry (field : Field) : Entry := ⟨field.1, cStr field.2, field.2⟩

theorem reads_entry_iff (field : Field) : (entry field).Reads ↔ Sendable field.2 := by
  rw [Entry.reads_iff (CText.cStr_eq_or_length_lt field.2)]
  exact and_congr_left' CText.cStr_eq_self_iff

theorem formed_entry {field : Field} (h : Readable field.1) : (entry field).Formed :=
  ⟨h.2.1, h.2.2, .inr (CText.cStr_eq_or_length_lt field.2)⟩

/-- Behind a value without a NUL the rest of the form is read. -/
theorem parse_cStr_rawForm_cons {field : Field} (hname : 0 ∉ field.1) (fields : List Field) :
    ∃ more, parse (cStr (rawForm (field :: fields))) = parse (entry field).piece ++ more ∧
      (0 ∉ field.2 → more = parse (cStr (rawForm fields))) := by
  obtain ⟨tail, htail, hend⟩ := rawForm_cons field fields
  have hfront : 0 ∉ field.1 ++ [61] := by
    rw [List.mem_append, not_or]
    exact ⟨hname, by decide⟩
  have hform : rawForm (field :: fields) = (field.1 ++ [61]) ++ (field.2 ++ tail) := by
    rw [htail, List.append_assoc, List.append_assoc]
    rfl
  have hpiece : (entry field).piece = (field.1 ++ [61]) ++ cStr field.2 := by
    rw [List.append_assoc]
    rfl
  rw [hform, cStr_append hfront, hpiece]
  by_cases hvalue : 0 ∈ field.2
  · refine ⟨[], ?_, fun hnot => absurd hvalue hnot⟩
    rw [cStr_append_of_mem hvalue, List.append_nil]
  · refine ⟨parse (cStr (rawForm fields)), ?_, fun _ => rfl⟩
    rw [cStr_append hvalue, CText.cStr_eq_self_iff.mpr hvalue, ← List.append_assoc]
    rcases hend with ⟨rfl, rfl⟩ | rfl
    · show parse _ = parse _ ++ []
      rw [List.append_nil]
      exact congrArg parse (List.append_nil _)
    · have hamp : cStr (38 :: rawForm fields) = 38 :: cStr (rawForm fields) :=
        cStr_append (by decide : (0 : UInt8) ∉ [38]) (rawForm fields)
      rw [hamp, FormUrlencoded.parse_append_separator]

/-- The fields are read as they were meant if and only if each value can be sent as it stands. -/
theorem parse_cStr_rawForm_iff {fields : List Field} (hnames : ∀ field ∈ fields, Readable field.1) :
    parse (cStr (rawForm fields)) = fields ↔ ∀ field ∈ fields, Sendable field.2 := by
  induction fields with
  | nil => exact iff_of_true rfl (List.forall_mem_nil _)
  | cons field fields ih =>
    obtain ⟨hname, hrest⟩ := List.forall_mem_cons.mp hnames
    obtain ⟨more, hparse, hmore⟩ := parse_cStr_rawForm_cons hname.1 fields
    rw [hparse, List.forall_mem_cons, ← ih hrest, ← reads_entry_iff]
    constructor
    · intro h
      have hreads : (entry field).Reads := (formed_entry hname).reads h
      rw [hreads.parse_eq (formed_entry hname), hmore ((reads_entry_iff field).mp hreads).1] at h
      exact ⟨hreads, (List.cons.inj h).2⟩
    · rintro ⟨hreads, h⟩
      rw [hreads.parse_eq (formed_entry hname), hmore ((reads_entry_iff field).mp hreads).1, h]
      rfl

theorem toupper_hexDigit (d : Fin 16) :
    toupper (hexDigit (UInt8.ofNat d)) ∉ ([0, 37, 38, 43] : List UInt8) := by
  revert d
  decide

theorem mem_sign {md5 : Md5} {str : List UInt8} {c : UInt8} (hc : c ∈ sign md5 str) :
    c ∉ ([0, 37, 38, 43] : List UInt8) := by
  obtain ⟨digit, hdigit, rfl⟩ := List.mem_map.mp hc
  obtain ⟨d, -, hd⟩ := List.mem_flatMap.mp hdigit
  have hbyte := UInt8.toNat_lt d
  have hlow : (d % 16).toNat < 16 := by
    rw [UInt8.toNat_mod]
    exact Nat.mod_lt _ (by decide)
  have hhigh : (d / 16).toNat < 16 := by
    rw [UInt8.toNat_div]
    exact Nat.div_lt_of_lt_mul hbyte
  have hofNat (x : UInt8) (hx : x.toNat < 16) :
      toupper (hexDigit x) ∉ ([0, 37, 38, 43] : List UInt8) := by
    have hdigit := toupper_hexDigit ⟨x.toNat, hx⟩
    rwa [UInt8.ofNat_toNat] at hdigit
  rcases List.mem_cons.mp hd with rfl | hd
  · exact hofNat _ hhigh
  · rw [List.mem_singleton.mp hd]
    exact hofNat _ hlow

theorem sendable_sign (md5 : Md5) (str : List UInt8) : Sendable (sign md5 str) := by
  have hordinary : Ordinary (sign md5 str) := by
    intro c hc hmem
    exact mem_sign hc (List.mem_cons_of_mem 0 hmem)
  exact ⟨fun hzero => mem_sign hzero (by decide), hordinary.plain⟩

theorem length_sign (md5 : Md5) (str : List UInt8) : (sign md5 str).length = 32 := by
  rw [sign, List.length_map, md5Str, List.length_flatMap]
  simp

namespace Call

/-- The members of a group are not asked for by the first function, and every identifier can be sent
as it stands. -/
def Clear : Call → Prop
  | .groupMemberVec _ => False
  | .groupMemberMap id | .groupInfo id | .userInfo id => Sendable id
  | .friendInfo usrId frdId => Sendable usrId ∧ Sendable frdId

variable (md5 : Md5) (strAppSecret : List UInt8)

theorem readable_fields (call : Call) (sign : List UInt8) :
    ∀ field ∈ call.fields sign, Readable field.1 := by
  have hnames : ∀ name ∈ ["app_id", "group_id", "friend_id", "sign", "user_id"],
      0 ∉ bytes name ∧ Plain (bytes name) ∧ 61 ∉ bytes name := by decide
  have happ : Readable (bytes "app_id") := hnames "app_id" (by decide)
  have hgroup : Readable (bytes "group_id") := hnames "group_id" (by decide)
  have hfriend : Readable (bytes "friend_id") := hnames "friend_id" (by decide)
  have hsign : Readable (bytes "sign") := hnames "sign" (by decide)
  have huser : Readable (bytes "user_id") := hnames "user_id" (by decide)
  cases call with
  | groupMemberVec id | groupMemberMap id | groupInfo id =>
    simp only [fields, List.forall_mem_cons]
    exact ⟨happ, hgroup, hsign, List.forall_mem_nil _⟩
  | friendInfo usrId frdId =>
    simp only [fields, List.forall_mem_cons]
    exact ⟨happ, hfriend, hsign, huser, List.forall_mem_nil _⟩
  | userInfo usrId =>
    simp only [fields, List.forall_mem_cons]
    exact ⟨happ, hsign, huser, List.forall_mem_nil _⟩

section Texts

variable (sign id id' : List UInt8)

theorem rawForm_group :
    rawForm [(bytes "app_id", bytes "2"), (bytes "group_id", id), (bytes "sign", sign)] =
      bytes "app_id=2&group_id=" ++ id ++ bytes "&sign=" ++ sign := by
  have hfront : bytes "app_id=2&group_id=" =
      bytes "app_id" ++ 61 :: (bytes "2" ++ 38 :: (bytes "group_id" ++ [61])) := rfl
  have hsign : bytes "&sign=" = 38 :: (bytes "sign" ++ [61]) := rfl
  rw [hfront, hsign]
  simp only [rawForm, List.map_cons, List.map_nil, List.intercalate_cons_cons,
    List.intercalate_singleton, List.append_assoc, List.cons_append, List.nil_append]

theorem rawForm_friend :
    rawForm [(bytes "app_id", bytes "2"), (bytes "friend_id", id), (bytes "sign", sign),
        (bytes "user_id", id')] =
      bytes "app_id=2&friend_id=" ++ id ++ bytes "&sign=" ++ sign ++ bytes "&user_id=" ++ id' := by
  have hfront : bytes "app_id=2&friend_id=" =
      bytes "app_id" ++ 61 :: (bytes "2" ++ 38 :: (bytes "friend_id" ++ [61])) := rfl
  have hsign : bytes "&sign=" = 38 :: (bytes "sign" ++ [61]) := rfl
  have huser : bytes "&user_id=" = 38 :: (bytes "user_id" ++ [61]) := rfl
  rw [hfront, hsign, huser]
  simp only [rawForm, List.map_cons, List.map_nil, List.intercalate_cons_cons,
    List.intercalate_singleton, List.append_assoc, List.cons_append, List.nil_append]

theorem rawForm_user :
    rawForm [(bytes "app_id", bytes "2"), (bytes "sign", sign), (bytes "user_id", id)] =
      bytes "app_id=2&sign=" ++ sign ++ bytes "&user_id=" ++ id := by
  have hfront : bytes "app_id=2&sign=" =
      bytes "app_id" ++ 61 :: (bytes "2" ++ 38 :: (bytes "sign" ++ [61])) := rfl
  have huser : bytes "&user_id=" = 38 :: (bytes "user_id" ++ [61]) := rfl
  rw [hfront, huser]
  simp only [rawForm, List.map_cons, List.map_nil, List.intercalate_cons_cons,
    List.intercalate_singleton, List.append_assoc, List.cons_append, List.nil_append]

theorem signedText_group :
    strAppSecret ++ bytes "app_id2group_id" ++ id ++ strAppSecret =
      (Call.groupInfo id).signedText strAppSecret := by
  have hfields : ((Call.groupInfo id).fields []).filter (·.1 ≠ bytes "sign") =
      [(bytes "app_id", bytes "2"), (bytes "group_id", id)] := rfl
  have hnames : bytes "app_id2group_id" = bytes "app_id" ++ (bytes "2" ++ bytes "group_id") := rfl
  rw [signedText, hfields, hnames]
  simp only [List.flatMap_cons, List.flatMap_nil, List.append_nil, List.append_assoc]

theorem signedText_friend :
    strAppSecret ++ bytes "app_id2friend_id" ++ id ++ bytes "user_id" ++ id' ++ strAppSecret =
      (Call.friendInfo id' id).signedText strAppSecret := by
  have hfields : ((Call.friendInfo id' id).fields []).filter (·.1 ≠ bytes "sign") =
      [(bytes "app_id", bytes "2"), (bytes "friend_id", id), (bytes "user_id", id')] := rfl
  have hnames : bytes "app_id2friend_id" = bytes "app_id" ++ (bytes "2" ++ bytes "friend_id") := rfl
  rw [signedText, hfields, hnames]
  simp only [List.flatMap_cons, List.flatMap_nil, List.append_nil, List.append_assoc]

theorem signedText_user :
    strAppSecret ++ bytes "app_id2user_id" ++ id ++ strAppSecret =
      (Call.userInfo id).signedText strAppSecret := by
  have hfields : ((Call.userInfo id).fields []).filter (·.1 ≠ bytes "sign") =
      [(bytes "app_id", bytes "2"), (bytes "user_id", id)] := rfl
  have hnames : bytes "app_id2user_id" = bytes "app_id" ++ (bytes "2" ++ bytes "user_id") := rfl
  rw [signedText, hfields, hnames]
  simp only [List.flatMap_cons, List.flatMap_nil, List.append_nil, List.append_assoc]

end Texts

/-- A request whose form is that of its fields says what it signs if its identifiers can be sent. -/
theorem says_iff (call : Call)
    (hform : (call.request md5 strAppSecret).strPost =
      rawForm (call.fields (sign md5 (call.request md5 strAppSecret).str)))
    (hsigned : (call.request md5 strAppSecret).str = call.signedText strAppSecret) :
    call.Says md5 strAppSecret ↔
      ∀ field ∈ call.fields (sign md5 (call.request md5 strAppSecret).str), Sendable field.2 := by
  rw [← parse_cStr_rawForm_iff (call.readable_fields _), ← hform]
  exact ⟨fun h => h.body, fun h => ⟨h, hsigned⟩⟩

theorem not_says_groupMemberVec (id : List UInt8) :
    ¬(Call.groupMemberVec id).Says md5 strAppSecret := by
  intro h
  have hsigned : strAppSecret ++ bytes "app_id2group_id=" ++ id ++ strAppSecret =
      strAppSecret ++ bytes "app_id2group_id" ++ id ++ strAppSecret :=
    h.signed.trans (signedText_group strAppSecret id).symm
  have hequals : bytes "app_id2group_id=" = bytes "app_id2group_id" :=
    List.append_cancel_left (List.append_cancel_right (List.append_cancel_right hsigned))
  exact absurd hequals (by decide)

theorem says_iff_clear (call : Call) : call.Says md5 strAppSecret ↔ call.Clear := by
  have happ : Sendable (bytes "2") := by decide
  have hsign := sendable_sign md5 (call.request md5 strAppSecret).str
  cases call with
  | groupMemberVec id => exact iff_of_false (not_says_groupMemberVec md5 strAppSecret id) not_false
  | groupMemberMap id =>
    rw [says_iff md5 strAppSecret (.groupMemberMap id) (rawForm_group _ id).symm
      (signedText_group strAppSecret id)]
    simp only [fields, List.forall_mem_cons, happ, hsign, true_and, List.not_mem_nil,
      false_imp_iff, implies_true, and_true]
    rfl
  | groupInfo id =>
    rw [says_iff md5 strAppSecret (.groupInfo id) (rawForm_group _ id).symm
      (signedText_group strAppSecret id)]
    simp only [fields, List.forall_mem_cons, happ, hsign, true_and, List.not_mem_nil,
      false_imp_iff, implies_true, and_true]
    rfl
  | friendInfo usrId frdId =>
    rw [says_iff md5 strAppSecret (.friendInfo usrId frdId) (rawForm_friend _ frdId usrId).symm
      (signedText_friend strAppSecret frdId usrId)]
    simp only [fields, List.forall_mem_cons, happ, hsign, true_and, List.not_mem_nil,
      false_imp_iff, implies_true, and_true]
    exact and_comm
  | userInfo usrId =>
    rw [says_iff md5 strAppSecret (.userInfo usrId) (rawForm_user _ usrId).symm
      (signedText_user strAppSecret usrId)]
    simp only [fields, List.forall_mem_cons, happ, hsign, true_and, List.not_mem_nil,
      false_imp_iff, implies_true, and_true]
    rfl

/-- What is in front of a NUL has a length that the end of the text does not change. -/
theorem length_cStr_append (id : List UInt8) {tail tail' : List UInt8} (htail : 0 ∉ tail)
    (htail' : 0 ∉ tail') (hlen : tail.length = tail'.length) :
    (cStr (id ++ tail)).length = (cStr (id ++ tail')).length := by
  by_cases hid : 0 ∈ id
  · rw [cStr_append_of_mem hid, cStr_append_of_mem hid]
  · rw [cStr_append hid, cStr_append hid, CText.cStr_eq_self_iff.mpr htail,
      CText.cStr_eq_self_iff.mpr htail', List.length_append, List.length_append, hlen]

/-- The two functions for the members of a group never post the same. -/
theorem posted_groupMember_ne (strGroupId : List UInt8) :
    (Call.groupMemberVec strGroupId).posted md5 strAppSecret ≠
      (Call.groupMemberMap strGroupId).posted md5 strAppSecret := by
  intro h
  have htail (str : List UInt8) : 0 ∉ bytes "&sign=" ++ sign md5 str := by
    rw [List.mem_append, not_or]
    exact ⟨by decide, (sendable_sign md5 str).1⟩
  have hlen (str str' : List UInt8) :
      (bytes "&sign=" ++ sign md5 str).length = (bytes "&sign=" ++ sign md5 str').length := by
    rw [List.length_append, List.length_append, length_sign, length_sign]
  have hvec : (Call.groupMemberVec strGroupId).posted md5 strAppSecret =
      bytes "app_id=2&group_id" ++ cStr (strGroupId ++ (bytes "&sign=" ++
        sign md5 ((Call.groupMemberVec strGroupId).request md5 strAppSecret).str)) := by
    rw [← cStr_append (by decide), ← List.append_assoc, ← List.append_assoc]
    rfl
  have hmap : (Call.groupMemberMap strGroupId).posted md5 strAppSecret =
      bytes "app_id=2&group_id=" ++ cStr (strGroupId ++ (bytes "&sign=" ++
        sign md5 ((Call.groupMemberMap strGroupId).request md5 strAppSecret).str)) := by
    rw [← cStr_append (by decide), ← List.append_assoc, ← List.append_assoc]
    rfl
  rw [hvec, hmap] at h
  have hlengths := congrArg List.length h
  rw [List.length_append, List.length_append,
    length_cStr_append strGroupId (htail _) (htail _) (hlen _ _)] at hlengths
  exact absurd (Nat.add_right_cancel hlengths) (by decide)

end Call

/-- A request says what it signs if and only if it is not the first one for the members of a group
and its identifiers can be sent as they stand. The two for the members of a group never agree. -/
theorem signed_requests_iff (md5 : Md5) (strAppSecret : List UInt8) (call : Call)
    (strGroupId : List UInt8) :
    (call.Says md5 strAppSecret ↔ call.Clear) ∧
      (Call.groupMemberVec strGroupId).posted md5 strAppSecret ≠
        (Call.groupMemberMap strGroupId).posted md5 strAppSecret :=
  ⟨Call.says_iff_clear md5 strAppSecret call,
    Call.posted_groupMember_ne md5 strAppSecret strGroupId⟩

/-- With every digest, and any secret and group. -/
theorem not_signed_requests :
    ¬ ∃ md5 : Md5, ∀ strAppSecret call, Call.Says md5 strAppSecret call := by
  rintro ⟨md5, h⟩
  exact Call.not_says_groupMemberVec md5 [] (bytes "7") (h [] (.groupMemberVec (bytes "7")))

end CGetDataInterfaceManager

end ImServer
