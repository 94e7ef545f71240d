import ImServer.CustomerService.CustMsgBridge
import ImServer.Desktop.DesktopMsgTran
import ImServer.WsSvr.CustWebProxy

/-!
# The texts that stop a server

The gateway of desktop clients, the web server of the agents and the customer service read the
members of a JSON text with functions that throw, and nobody catches the exception. A text is
harmless if what is read of it is of its kind. An empty array stops each of the three.

The texts of the gateway are given byte by byte.
-/

namespace ImServer

open Json

namespace CustMsgBridge

/-- The members that are read for a command, with the kinds that the conversions expect. -/
def fields (cmdId : ℤ) : List (String × Kind) :=
  if cmdId = mesChat then
    [("sFromId", .text), ("sToId", .text), ("sMsgId", .text), ("msgType", .uint),
      ("msgTime", .uint64), ("encrypt", .uint), ("sContent", .text)]
  else if cmdId = mesChatcancel then
    [("sFromId", .text), ("sToId", .text), ("nCancelType", .uint), ("sGroupId", .text),
      ("sMsgId", .text), ("msgTime", .uint64), ("cancelTime", .uint)]
  else []

/-- There is a command, and the members that it asks for, each one of the kind that is read. -/
def Shaped (debug : Bool) (tempVal : Node) : Prop :=
  tempVal.Fits [("command", .int)] ∧
    ∀ cmdId, tempVal.intField "command" = some cmdId →
      tempVal.Fits (fields (requestCmd debug cmdId))

variable {tempVal : Node} {β : Type} {key : String} {kinds : List (String × Kind)}

theorem isSome_asString_bind {f : List UInt8 → Option β}
    (h : ∀ s, (f s).isSome ↔ tempVal.Fits kinds) :
    (asString tempVal key >>= f).isSome ↔ tempVal.Fits ((key, .text) :: kinds) :=
  isSome_textField_bind h

theorem isSome_asUInt_bind {f : UInt32 → Option β} (h : ∀ n, (f n).isSome ↔ tempVal.Fits kinds) :
    (asUInt tempVal key >>= f).isSome ↔ tempVal.Fits ((key, .uint) :: kinds) := by
  have hread :
      (asUInt tempVal key).isSome ↔ tempVal.Named ∧ Kind.uint.Fits (tempVal.member key) := by
    rw [asUInt, Option.isSome_map, Node.isSome_get_bind_iff, Node.asUInt,
      Node.isSome_asInteger_iff, Kind.Fits]
  rw [Node.fits_cons, ← hread]
  exact isSome_bind_iff h

theorem isSome_asUInt64_bind {f : UInt64 → Option β}
    (h : ∀ n, (f n).isSome ↔ tempVal.Fits kinds) :
    (asUInt64 tempVal key >>= f).isSome ↔ tempVal.Fits ((key, .uint64) :: kinds) := by
  have hread :
      (asUInt64 tempVal key).isSome ↔ tempVal.Named ∧ Kind.uint64.Fits (tempVal.member key) := by
    rw [asUInt64, Option.isSome_map, Node.isSome_get_bind_iff, Node.asUInt64,
      Node.isSome_asInteger_iff, Kind.Fits]
  rw [Node.fits_cons, ← hread]
  exact isSome_bind_iff h

theorem isSome_chatOf_iff (hnamed : tempVal.Named) :
    (chatOf tempVal).isSome ↔ tempVal.Fits (fields mesChat) :=
  isSome_asString_bind fun _ => isSome_asString_bind fun _ => isSome_asString_bind fun _ =>
    isSome_asUInt_bind fun _ => isSome_asUInt64_bind fun _ => isSome_asUInt_bind fun _ =>
      isSome_asString_bind fun _ => isSome_some_iff hnamed _

theorem isSome_chatCancelOf_iff (hnamed : tempVal.Named) :
    (chatCancelOf tempVal).isSome ↔ tempVal.Fits (fields mesChatcancel) :=
  isSome_asString_bind fun _ => isSome_asString_bind fun _ => isSome_asUInt_bind fun _ =>
    isSome_asString_bind fun _ => isSome_asString_bind fun _ => isSome_asUInt64_bind fun _ =>
      isSome_asUInt_bind fun _ => isSome_some_iff hnamed _

theorem isSome_request_iff (hnamed : tempVal.Named) (cmdId : ℤ) :
    (if cmdId = mesChat then (chatOf tempVal).map fun msg => Posted.sent cmdId (.chat msg)
      else if cmdId = mesChatcancel then
        (chatCancelOf tempVal).map fun msg => .sent cmdId (.chatCancel msg)
      else some .unknownCmd).isSome ↔ tempVal.Fits (fields cmdId) := by
  split_ifs with hchat hcancel
  · rw [Option.isSome_map, hchat]
    exact isSome_chatOf_iff hnamed
  · rw [Option.isSome_map, hcancel]
    exact isSome_chatCancelOf_iff hnamed
  · rw [fields, if_neg hchat, if_neg hcancel]
    exact isSome_some_iff hnamed _

theorem isSome_postCustMsg_iff (debug : Bool) (scan : Scan) (jsonContent : List UInt8) :
    (postCustMsg debug scan jsonContent).isSome ↔
      ∀ tempVal, parse .strictMode scan jsonContent = some tempVal → Shaped debug tempVal := by
  cases hparse : parse .strictMode scan jsonContent with
  | none =>
    rw [postCustMsg, hparse]
    refine iff_of_true rfl fun tempVal hsome => ?_
    cases hsome
  | some tempVal =>
    have hiff : (postCustMsg debug scan jsonContent).isSome ↔ Shaped debug tempVal := by
      rw [Shaped, Node.fits_cons, Node.fits_nil, ← Node.isSome_intField_iff, postCustMsg, hparse]
      show Option.isSome (Option.bind (tempVal.intField "command") _) ↔ _
      cases hcmd : tempVal.intField "command" with
      | none => simp
      | some cmdId =>
        have hnamed : tempVal.Named := (Node.isSome_intField_iff.mp (by rw [hcmd]; rfl)).1
        rw [Option.bind_some, isSome_request_iff hnamed]
        constructor
        · intro hfits
          refine ⟨⟨rfl, hnamed⟩, ?_⟩
          intro cmdId' hcmd'
          cases hcmd'
          exact hfits
        · intro hshaped
          exact hshaped.2 cmdId rfl
    rw [hiff]
    exact ⟨fun h tempVal' heq => Option.some.inj heq ▸ h, fun h => h tempVal rfl⟩

end CustMsgBridge

namespace Json

/-- A text byte by byte, for the parts of the gateway that are modelled over strings. -/
def byteText (text : List UInt8) : String := String.ofList (text.map fun b => Char.ofNat b.toNat)

/-- The value of a double that is integral. -/
def Real64.integral : Real64 → Option ℤ
  | .finite q => if q.den = 1 then some q.num else none
  | .infinite _ => none

mutual

/-- What is read, as the handlers of the gateway take it. What is in an array is lost, since none of
them looks into one. -/
def Node.toValue : Node → Value
  | .null => .null
  | .bool b => .bool b
  | .int n => .int n
  | .uint n => .int n
  | .real value text => .real (byteText text) value.integral
  | .string s => .string (byteText s)
  | .array _ => .array
  | .object members => .object (toValues members)

def toValues : List (List UInt8 × Node) → List (String × Value)
  | [] => []
  | (name, value) :: members => (byteText name, value.toValue) :: toValues members

end

/-- A name of characters of one byte. -/
def Ascii (key : String) : Prop := byteText (CText.bytes key) = key

variable {node : Node} {key : String}

theorem toNat_ofNat_byte (b : UInt8) : (Char.ofNat b.toNat).toNat = b.toNat := by
  have hlt := b.toNat_lt
  have hvalid : b.toNat.isValidChar := .inl (by omega)
  rw [Char.ofNat, dif_pos hvalid]
  rfl

theorem byteText_injective : Function.Injective byteText := by
  intro text text' h
  have hchars := String.ofList_injective h
  refine List.map_injective_iff.mpr ?_ hchars
  intro b b' hchar
  rw [← UInt8.toNat_inj, ← toNat_ofNat_byte b, ← toNat_ofNat_byte b']
  exact congrArg Char.toNat hchar

theorem lookup_toValues (members : List (List UInt8 × Node)) (name : List UInt8) :
    (toValues members).lookup (byteText name) = (members.lookup name).map Node.toValue := by
  induction members with
  | nil =>
    rw [toValues]
    rfl
  | cons member members ih =>
    obtain ⟨name', value⟩ := member
    rw [toValues, List.lookup_cons, List.lookup_cons]
    by_cases hname : name = name'
    · rw [hname, beq_self_eq_true, beq_self_eq_true]
      rfl
    · have hne : byteText name ≠ byteText name' := fun heq => hname (byteText_injective heq)
      rw [beq_eq_false_iff_ne.mpr hname, beq_eq_false_iff_ne.mpr hne]
      exact ih

theorem get_toValue (hkey : Ascii key) :
    node.toValue.get key = (node.get key).map Node.toValue := by
  cases node with
  | object members =>
    have hlookup := lookup_toValues members (CText.bytes key)
    rw [hkey] at hlookup
    rw [Node.toValue, Value.get, Node.get, hlookup]
    cases members.lookup (CText.bytes key) with
    | none =>
      rw [Option.map_none, Option.getD_none, Option.getD_none, Option.map_some, Node.toValue]
    | some value => rfl
  | null => rw [Node.toValue, Value.get, Node.get, Option.map_some, Node.toValue]
  | bool b => rw [Node.toValue]; rfl
  | int n => rw [Node.toValue]; rfl
  | uint n => rw [Node.toValue]; rfl
  | real value text => rw [Node.toValue]; rfl
  | string s => rw [Node.toValue]; rfl
  | array items => rw [Node.toValue]; rfl

theorem byteText_toString (n : ℕ) : byteText (CText.bytes (toString n)) = toString n := by
  rw [byteText, CText.map_bytes_toString, String.ofList_toList]

theorem byteText_toString_int (n : ℤ) : byteText (CText.bytes (toString n)) = toString n := by
  cases n with
  | ofNat n => exact byteText_toString n
  | negSucc n =>
    have hminus : toString (Int.negSucc n) = "-" ++ toString (n + 1) := rfl
    rw [hminus, CText.bytes_append, byteText, List.map_append, String.ofList_append]
    exact congrArg ("-" ++ ·) (byteText_toString (n + 1))

theorem byteText_cStr (s : List UInt8) :
    String.ofList ((byteText s).toList.takeWhile (· ≠ '\x00')) = byteText (CText.cStr s) := by
  have hnul (b : UInt8) : decide (Char.ofNat b.toNat ≠ '\x00') = decide (b ≠ 0) := by
    refine decide_eq_decide.mpr (not_congr ⟨fun hchar => ?_, fun hzero => ?_⟩)
    · rw [← UInt8.toNat_inj, ← toNat_ofNat_byte b, hchar]
      rfl
    · rw [hzero]
      rfl
  rw [byteText, byteText, CText.cStr, String.toList_ofList, List.takeWhile_map]
  show String.ofList (List.map _ (s.takeWhile fun b => decide (Char.ofNat b.toNat ≠ '\x00'))) = _
  rw [funext hnul]

theorem asString_toValue : node.toValue.asString = node.asString.map byteText := by
  cases node with
  | null => rw [Node.toValue]; rfl
  | bool b => rw [Node.toValue]; cases b <;> rfl
  | int n =>
    rw [Node.toValue, Value.asString, Node.asString, Option.map_some, byteText_toString_int]
  | uint n =>
    rw [Node.toValue, Value.asString, Node.asString, Option.map_some, byteText_toString]
    rfl
  | real value text => rw [Node.toValue]; rfl
  | string s => rw [Node.toValue, Value.asString, byteText_cStr]; rfl
  | array items => rw [Node.toValue]; rfl
  | object members => rw [Node.toValue]; rfl

theorem field_toValue (hkey : Ascii key) :
    node.toValue.field key = (node.textField key).map byteText := by
  rw [Value.field, get_toValue hkey, Node.textField]
  cases node.get key with
  | none => rfl
  | some value => exact asString_toValue

end Json

namespace DesktopMsgTran

/-- What the web service for the logins answers. -/
def httpAnswer (scan : Scan) (answer : Option (List UInt8)) : HttpAnswer :=
  match answer with
  | none => .failed
  | some sChkResult =>
    match parse .all scan sChkResult with
    | none => .garbage
    | some root => .json root.toValue

/-- A packet of a PC with a text for its body, which is parsed before its handler sees it. -/
def onTextFromPC (m : CClientLinkMgr) (c : CLoginCache) (scan : Scan) (commandId : UInt16)
    (sessionId : UidCode) (strInput : List UInt8) (answer : Option (List UInt8)) (env : Env) :
    Option Outcome :=
  let value := (parse .all scan strInput).map Node.toValue
  onMessageFromPC m c ⟨commandId, sessionId, ⟨byteText strInput, value⟩⟩
    { env with checkAuth := httpAnswer scan answer }

/-- The texts that the handler of a command reads. -/
def fields (commandId : UInt16) : Option (List String) :=
  if commandId = pcLogin then some ["msgid", "token", "registerid", "userid"]
  else if commandId = pcLogout then some ["msgid", "token", "registerid", "userid"]
  else if commandId = pcPcsynmessagetogw then
    some ["fromid", "toid", "msgid", "synmessage", "extend"]
  else if commandId = pcGwsynmessagetopcack then some ["fromid", "msgid"]
  else if commandId = pcHeartbeart then some ["msgid", "fromid"]
  else none

/-- There are members, and those of these names are texts. -/
def HasTexts (value : Node) (keys : List String) : Prop :=
  ∀ key ∈ keys, value.Named ∧ Kind.text.Fits (value.member key)

/-- An answer has a code and, unless the login is right, a message. -/
def AuthShaped (root : Node) : Prop :=
  HasTexts root ["code"] ∧
    (root.textField "code" ≠ some (CText.bytes "200") → HasTexts root ["msg"])

/-- A message has the texts that its handler reads, and so has the answer for a login. -/
def Shaped (scan : Scan) (commandId : UInt16) (answer : Option (List UInt8)) (value : Node) :
    Prop :=
  (∀ keys, fields commandId = some keys → HasTexts value keys) ∧
    (commandId = pcLogin → ∀ sChkResult root, answer = some sChkResult →
      parse .all scan sChkResult = some root → AuthShaped root)

section Handlers

variable {value root : Node} {β : Type} {key : String} {keys : List String} {q : Prop} {scan : Scan}
  {answer : Option (List UInt8)}

theorem isSome_field_iff (hkey : Ascii key) :
    (value.toValue.field key).isSome ↔ value.Named ∧ Kind.text.Fits (value.member key) := by
  rw [field_toValue hkey, Option.isSome_map, Node.isSome_textField_iff]

theorem isSome_field_bind (hkey : Ascii key) {f : String → Option β}
    (h : value.Named → ∀ s, (f s).isSome ↔ HasTexts value keys ∧ q) :
    (value.toValue.field key >>= f).isSome ↔ HasTexts value (key :: keys) ∧ q := by
  rw [HasTexts, List.forall_mem_cons, ← isSome_field_iff hkey, and_assoc]
  by_cases hnamed : value.Named
  · exact isSome_bind_iff (h hnamed)
  · have hnone : value.toValue.field key = none := by
      rw [← Option.not_isSome_iff_eq_none, isSome_field_iff hkey]
      exact fun hand => hnamed hand.1
    rw [hnone]
    exact iff_of_false Bool.false_ne_true fun hand => Bool.false_ne_true hand.1

theorem isSome_get_bind (hkey : Ascii key) (hnamed : value.Named) {f : Value → Option β}
    (h : ∀ v, (f v).isSome ↔ q) : (value.toValue.get key >>= f).isSome ↔ q := by
  have hread : (value.toValue.get key).isSome := by
    rw [get_toValue hkey, Option.isSome_map]
    exact Node.isSome_get_iff.mpr hnamed
  exact (isSome_bind_iff h).trans (and_iff_right hread)

theorem isSome_end_iff (b : β) : (some b).isSome ↔ HasTexts value [] ∧ True :=
  iff_of_true rfl ⟨List.forall_mem_nil _, trivial⟩

theorem hasTexts_singleton : HasTexts root [key] ↔ (root.textField key).isSome := by
  rw [HasTexts, List.forall_mem_singleton, Node.isSome_textField_iff]

theorem isSome_checkAuth_json_iff (auth : PCLoginAuth) (root : Node) :
    (checkAuth auth (.json root.toValue)).isSome ↔ AuthShaped root := by
  have hcode : root.toValue.field "code" = (root.textField "code").map byteText :=
    field_toValue (by rfl)
  have hmsg : (root.toValue.field "msg").isSome ↔ HasTexts root ["msg"] := by
    rw [isSome_field_iff (by rfl), hasTexts_singleton, Node.isSome_textField_iff]
  rw [AuthShaped, hasTexts_singleton, checkAuth, hcode]
  cases root.textField "code" with
  | none => exact iff_of_false Bool.false_ne_true fun hand => Bool.false_ne_true hand.1
  | some sReturnCode =>
    show Option.isSome (if byteText sReturnCode = "200" then _ else _) ↔ _
    by_cases hright : sReturnCode = CText.bytes "200"
    · rw [hright]
      exact iff_of_true rfl ⟨rfl, fun hne => absurd rfl hne⟩
    · have htext : byteText sReturnCode ≠ "200" := by
        intro heq
        exact hright (byteText_injective (heq.trans (show Ascii "200" by rfl).symm))
      rw [if_neg htext]
      refine (isSome_bind_iff (q := True) ?_).trans ?_
      · intro _
        refine iff_of_true ?_ trivial
        split
        · rfl
        · rfl
      · rw [and_true, hmsg]
        refine ⟨fun htexts => ⟨rfl, fun _ => htexts⟩, fun hand => hand.2 ?_⟩
        exact fun heq => hright (Option.some.inj heq)

theorem isSome_checkAuth_iff (auth : PCLoginAuth) :
    (checkAuth auth (httpAnswer scan answer)).isSome ↔
      ∀ sChkResult root, answer = some sChkResult → parse .all scan sChkResult = some root →
        AuthShaped root := by
  cases answer with
  | none =>
    refine iff_of_true rfl fun _ _ hanswer => ?_
    cases hanswer
  | some sChkResult =>
    cases hparse : parse .all scan sChkResult with
    | none =>
      rw [httpAnswer, hparse]
      refine iff_of_true rfl fun _ root hanswer hroot => ?_
      cases hanswer
      rw [hparse] at hroot
      cases hroot
    | some root =>
      rw [httpAnswer, hparse]
      refine (isSome_checkAuth_json_iff auth root).trans ?_
      refine ⟨fun h _ root' hanswer hroot => ?_, fun h => h sChkResult root rfl hparse⟩
      cases hanswer
      rw [hparse] at hroot
      cases hroot
      exact h

variable {m : CClientLinkMgr} {c : CLoginCache} {pdu : Pdu} {env : Env}

theorem isSome_onLogin_iff (hvalue : pdu.body.value = some value.toValue)
    (hauth : ∀ auth, (checkAuth auth env.checkAuth).isSome ↔ q) :
    (onLogin m c pdu env).isSome ↔
      HasTexts value ["msgid", "token", "registerid", "userid"] ∧ q := by
  rw [onLogin, hvalue]
  refine isSome_field_bind (by rfl) fun _ _ => isSome_field_bind (by rfl) fun _ _ =>
    isSome_field_bind (by rfl) fun _ _ => isSome_field_bind (by rfl) fun _ _ => ?_
  refine (isSome_bind_iff (q := True) ?_).trans ?_
  · rintro ⟨checked, auth⟩
    refine iff_of_true ?_ trivial
    cases checked with
    | true =>
      cases c.getUserRecord env.recordRead (prefixPcStr ++ _) with
      | none => rfl
      | some old => rfl
    | false => rfl
  · rw [and_true, hauth]
    exact (and_iff_right (List.forall_mem_nil _)).symm

theorem isSome_onLogout_iff (hvalue : pdu.body.value = some value.toValue) :
    (onLogout m c pdu env).isSome ↔
      HasTexts value ["msgid", "token", "registerid", "userid"] ∧ True := by
  rw [onLogout, hvalue]
  refine isSome_field_bind (by rfl) fun _ _ => isSome_field_bind (by rfl) fun _ _ =>
    isSome_field_bind (by rfl) fun _ _ => isSome_field_bind (by rfl) fun _ _ => isSome_end_iff _

theorem isSome_onPCSynMessageToGw_iff (hvalue : pdu.body.value = some value.toValue) :
    (onPCSynMessageToGw m c pdu env).isSome ↔
      HasTexts value ["fromid", "toid", "msgid", "synmessage", "extend"] ∧ True := by
  rw [onPCSynMessageToGw, hvalue]
  refine isSome_field_bind (by rfl) fun hnamed _ => isSome_field_bind (by rfl) fun _ _ =>
    isSome_get_bind (by rfl) hnamed fun _ => isSome_field_bind (by rfl) fun _ _ =>
      isSome_field_bind (by rfl) fun _ _ => isSome_field_bind (by rfl) fun _ _ => isSome_end_iff _

theorem isSome_onGwSynMessageToPCAck_iff (hvalue : pdu.body.value = some value.toValue) :
    (onGwSynMessageToPCAck m c pdu env).isSome ↔ HasTexts value ["fromid", "msgid"] ∧ True := by
  rw [onGwSynMessageToPCAck, hvalue]
  refine isSome_field_bind (by rfl) fun _ _ => isSome_field_bind (by rfl) fun _ _ =>
    isSome_end_iff _

theorem isSome_onHeartBeat_iff (hvalue : pdu.body.value = some value.toValue) :
    (onHeartBeat m c pdu env).isSome ↔ HasTexts value ["msgid", "fromid"] ∧ True := by
  rw [onHeartBeat, hvalue]
  refine isSome_field_bind (by rfl) fun hnamed _ => isSome_field_bind (by rfl) fun _ _ =>
    isSome_get_bind (by rfl) hnamed fun _ => isSome_end_iff _

/-- Each handler reads its texts, and the one of a login looks at the answer as well. -/
theorem isSome_onMessageFromPC_iff (hvalue : pdu.body.value = some value.toValue)
    (hauth : ∀ auth, (checkAuth auth env.checkAuth).isSome ↔ q) :
    (onMessageFromPC m c pdu env).isSome ↔
      (∀ keys, fields pdu.commandId = some keys → HasTexts value keys) ∧
        (pdu.commandId = pcLogin → q) := by
  rw [onMessageFromPC, fields]
  split_ifs with hlogin
  · rw [isSome_onLogin_iff hvalue hauth]
    simp [hlogin]
  · rw [isSome_onLogout_iff hvalue]
    simp [hlogin]
  · rw [isSome_onPCSynMessageToGw_iff hvalue]
    simp [hlogin]
  · rw [isSome_onGwSynMessageToPCAck_iff hvalue]
    simp [hlogin]
  · rw [isSome_onHeartBeat_iff hvalue]
    simp [hlogin]
  · simp [hlogin]

theorem isSome_onTextFromPC_iff (m : CClientLinkMgr) (c : CLoginCache) (scan : Scan)
    (commandId : UInt16) (sessionId : UidCode) (strInput : List UInt8)
    (answer : Option (List UInt8)) (env : Env) :
    (onTextFromPC m c scan commandId sessionId strInput answer env).isSome ↔
      ∀ value, parse .all scan strInput = some value → Shaped scan commandId answer value := by
  cases hparse : parse .all scan strInput with
  | none =>
    refine iff_of_true ?_ fun value hsome => ?_
    · rw [onTextFromPC, hparse, onMessageFromPC]
      split_ifs <;> rfl
    · cases hsome
  | some value =>
    rw [onTextFromPC, hparse]
    refine (isSome_onMessageFromPC_iff rfl isSome_checkAuth_iff).trans ?_
    exact ⟨fun h value' heq => Option.some.inj heq ▸ h, fun h => h value rfl⟩

end Handlers

end DesktopMsgTran

/-- Where a text comes in, with what else the handlers depend on. -/
inductive JsonEntry where
  | gateway (m : CClientLinkMgr) (c : DesktopMsgTran.CLoginCache) (commandId : UInt16)
      (sessionId : UidCode) (answer : Option (List UInt8)) (env : DesktopMsgTran.Env)
  | agents (matched : List UInt8 → Bool)
  | customerService (debug : Bool)

namespace JsonEntry

variable (scan : Scan)

def features : JsonEntry → Features
  | .gateway .. => .all
  | .agents _ => .strictMode
  | .customerService _ => .strictMode

/-- No function throws, so that the thread that has got the text goes on. -/
def Handles (text : List UInt8) : JsonEntry → Prop
  | .gateway m c commandId sessionId answer env =>
    (DesktopMsgTran.onTextFromPC m c scan commandId sessionId text answer env).isSome
  | .agents matched => (CCustWebProxy.handle scan matched text).isSome
  | .customerService debug => (CustMsgBridge.postCustMsg debug scan text).isSome

/-- What is read of a value is of its kind, for the entry that gets the text. -/
def Shaped (root : Node) : JsonEntry → Prop
  | .gateway _ _ commandId _ answer _ => DesktopMsgTran.Shaped scan commandId answer root
  | .agents matched => CCustWebProxy.Shaped matched root
  | .customerService debug => CustMsgBridge.Shaped debug root

/-- A text stops no server if and only if, in case it is JSON, all that is read of it is of its
kind. -/
theorem handles_iff (entry : JsonEntry) (text : List UInt8) :
    entry.Handles scan text ↔
      ∀ root, parse entry.features scan text = some root → entry.Shaped scan root := by
  cases entry with
  | gateway m c commandId sessionId answer env =>
    exact DesktopMsgTran.isSome_onTextFromPC_iff m c scan commandId sessionId text answer env
  | agents matched => exact CCustWebProxy.isSome_handle_iff scan matched text
  | customerService debug => exact CustMsgBridge.isSome_postCustMsg_iff debug scan text

/-- An empty array has no command. -/
theorem not_handles :
    ¬∀ (scan : Scan) (entry : JsonEntry) (text : List UInt8), entry.Handles scan text := by
  intro h
  exact Bool.false_ne_true (h (fun _ => none) (.agents fun _ => true) [91, 93])

end JsonEntry

end ImServer
