import ImServer.Base.JsonRoundTrip

/-!
# The bridge to the agents

The customer service hands the chats and the cancelled chats of its account to the web server as
JSON (`protoMsgToJsonStr` in customerService/customerSvrProxy.cpp), and builds the requests of the
agents from the same kind of JSON (`postCustMsg`). A debug build takes the commands of deliveries
for those of the requests.

What comes back from a message that is handed over and posted again is the message with its texts up
to their first NUL, without the fields that are not written or not read. A cancellation time beyond
32 bits is an exception.
-/

namespace ImServer

namespace CustMsgBridge

/-- The fields of the generated class (base-cli/pb/im.mes.pb.h). -/
structure MESChat where
  fromId : List UInt8
  toId : List UInt8
  msgId : List UInt8
  msgType : UInt32
  msgTime : UInt64
  encrypt : UInt32
  content : List UInt8
  serviceId : List UInt8
  questionId : List UInt8
  extend : List UInt8
  deriving DecidableEq, Repr

/-- The fields of the generated class. -/
structure MESChatCancel where
  fromId : List UInt8
  toId : List UInt8
  cancelType : UInt32
  groupId : List UInt8
  msgId : List UInt8
  msgTime : UInt64
  cancelTime : UInt64
  sendState : UInt32
  deriving DecidableEq, Repr

def mesChat : ℤ := 0xb001

def mesChatDeliver : ℤ := 0xb004

def mesChatcancel : ℤ := 0xb077

def mesChatcancelDeliver : ℤ := 0xb082

/-- A member that is set under a condition. -/
def setIf (p : Prop) [Decidable p] (root : Json.Tree) (key : String) (value : Json.Tree) :
    Json.Tree :=
  if p then root.set key value else root

def MESChat.root (msg : MESChat) : Json.Tree :=
  let root := ((((Json.Tree.null.set "command" (.int mesChatDeliver)).set
    "sFromId" (.string msg.fromId)).set "sToId" (.string msg.toId)).set
    "sMsgId" (.string msg.msgId)).set "msgType" (.int msg.msgType.toNat)
  let root := setIf (msg.msgTime ≠ 0) root "msgTime" (.int msg.msgTime.toNat)
  let root := setIf (msg.encrypt ≠ 0) root "encrypt" (.int msg.encrypt.toNat)
  ((root.set "sContent" (.string msg.content)).set "sServiceId" (.string msg.serviceId)).set
    "sQuestionId" (.string msg.questionId)

/-- `protoMsgToJsonStr`. -/
def MESChat.toJsonStr (msg : MESChat) : List UInt8 := Json.toStyledString msg.root

def MESChatCancel.root (msg : MESChatCancel) : Json.Tree :=
  let root := ((((Json.Tree.null.set "command" (.int mesChatcancelDeliver)).set
    "sFromId" (.string msg.fromId)).set "sToId" (.string msg.toId)).set
    "sMsgId" (.string msg.msgId)).set "nCancelType" (.int msg.cancelType.toNat)
  let root := setIf (msg.cancelType ≠ 0) root "sGroupId" (.string msg.groupId)
  let root := setIf (msg.msgTime ≠ 0) root "msgTime" (.int msg.msgTime.toNat)
  setIf (msg.cancelTime ≠ 0) root "cancelTime" (.int msg.cancelTime.toNat)

/-- `protoMsgToJsonStr`. -/
def MESChatCancel.toJsonStr (msg : MESChatCancel) : List UInt8 := Json.toStyledString msg.root

inductive Request where
  | chat (msg : MESChat)
  | chatCancel (msg : MESChatCancel)
  deriving DecidableEq, Repr

inductive Posted where
  | failed
  | unknownCmd
  | sent (cmdId : ℤ) (request : Request)
  deriving DecidableEq, Repr

/-- What a debug build makes of a command. -/
def requestCmd (debug : Bool) (cmdId : ℤ) : ℤ :=
  if debug && cmdId = mesChatDeliver then mesChat
  else if debug && cmdId = mesChatcancelDeliver then mesChatcancel
  else cmdId

variable (tempVal : Json.Node)

def asString (key : String) : Option (List UInt8) := (tempVal.get key).bind Json.Node.asString

def asUInt (key : String) : Option UInt32 :=
  ((tempVal.get key).bind Json.Node.asUInt).map fun n => UInt32.ofNat n.toNat

def asUInt64 (key : String) : Option UInt64 :=
  ((tempVal.get key).bind Json.Node.asUInt64).map fun n => UInt64.ofNat n.toNat

/-- The fields that are not set are empty. -/
def chatOf : Option MESChat := do
  let fromId ← asString tempVal "sFromId"
  let toId ← asString tempVal "sToId"
  let msgId ← asString tempVal "sMsgId"
  let msgType ← asUInt tempVal "msgType"
  let msgTime ← asUInt64 tempVal "msgTime"
  let encrypt ← asUInt tempVal "encrypt"
  let content ← asString tempVal "sContent"
  some { fromId, toId, msgId, msgType, msgTime, encrypt, content,
         serviceId := [], questionId := [], extend := [] }

def chatCancelOf : Option MESChatCancel := do
  let fromId ← asString tempVal "sFromId"
  let toId ← asString tempVal "sToId"
  let cancelType ← asUInt tempVal "nCancelType"
  let groupId ← asString tempVal "sGroupId"
  let msgId ← asString tempVal "sMsgId"
  let msgTime ← asUInt64 tempVal "msgTime"
  let cancelTime ← asUInt tempVal "cancelTime"
  some { fromId, toId, cancelType, groupId, msgId, msgTime,
         cancelTime := cancelTime.toUInt64, sendState := 0 }

/-- `none` stands for an exception. -/
def postCustMsg (debug : Bool) (scan : Json.Scan) (jsonContent : List UInt8) : Option Posted :=
  match Json.parse .strictMode scan jsonContent with
  | none => some .failed
  | some tempVal => do
    let cmdId ← (tempVal.get "command").bind Json.Node.asInt
    let cmdId := requestCmd debug cmdId
    if cmdId = mesChat then (chatOf tempVal).map fun msg => .sent cmdId (.chat msg)
    else if cmdId = mesChatcancel then
      (chatCancelOf tempVal).map fun msg => .sent cmdId (.chatCancel msg)
    else some .unknownCmd

/-- The message comes back as it was: the text is accepted, and the request that is made of it has
every field. -/
def Survives (scan : Json.Scan) (jsonStr : List UInt8) (cmdId : ℤ) (request : Request) : Prop :=
  postCustMsg true scan jsonStr = some (.sent cmdId request)

variable {tempVal} {p : Prop} [Decidable p] {root value : Json.Tree} {key key' : String} {n : ℕ}

theorem get_setIf_of_ne (hne : CText.bytes key' ≠ CText.bytes key) :
    (setIf p root key value).get (CText.bytes key') = root.get (CText.bytes key') := by
  rw [setIf]
  split
  · exact Json.Tree.get_set_of_ne hne root value
  · rfl

theorem get_setIf_self (h : root.get (CText.bytes key) = .null) :
    (setIf p root key value).get (CText.bytes key) = if p then value else .null := by
  rw [setIf]
  split
  · exact Json.Tree.get_set_self root key value
  · exact h

theorem legible_setIf (h : root.Legible) (hvalue : value.Legible) (hkey : 0 ∉ CText.bytes key) :
    (setIf p root key value).Legible := by
  rw [setIf]
  split
  · exact h.set hvalue hkey
  · exact h

theorem isObject_setIf (h : root.IsObject) : (setIf p root key value).IsObject := by
  rw [setIf]
  split
  · exact root.isObject_set key value
  · exact h

/-- The member is the number, or it is missing and the number is zero. -/
def Holds (root : Json.Tree) (key : String) (n : ℕ) : Prop :=
  root.get (CText.bytes key) = .int n ∨ n = 0 ∧ root.get (CText.bytes key) = .null

theorem holds_setIf (hp : ¬p → n = 0) (h : root.get (CText.bytes key) = .null) :
    Holds (setIf p root key (.int n)) key n := by
  rw [Holds, get_setIf_self h]
  split
  · exact .inl rfl
  · next hnot => exact .inr ⟨hp hnot, rfl⟩

theorem asString_toNode (hroot : root.IsObject) {s : List UInt8}
    (h : root.get (CText.bytes key) = .string s) :
    asString root.toNode key = some (CText.cStr s) := by
  have hcut : CText.cStr (CText.cStr s) = CText.cStr s :=
    CText.cStr_eq_self_iff.mpr fun hmem => by simpa using List.mem_takeWhile_imp hmem
  rw [asString, hroot.get_toNode, h, Option.bind_some, Json.Tree.toNode, Json.Node.asString, hcut]

theorem asString_null (hroot : root.IsObject) (h : root.get (CText.bytes key) = .null) :
    asString root.toNode key = some [] := by
  rw [asString, hroot.get_toNode, h]
  rfl

theorem asInteger_toNode (hroot : root.IsObject) (h : Holds root key n) {high : ℤ} {realHigh : ℚ}
    (hhigh : 0 ≤ high) :
    (root.toNode.get key).bind (·.asInteger 0 high realHigh) =
      if (n : ℤ) ≤ high then some (n : ℤ) else none := by
  rw [hroot.get_toNode, Option.bind_some]
  rcases h with h | ⟨rfl, h⟩
  · rw [h, Json.Tree.toNode, Json.ofInt]
    split
    · exact if_congr (and_iff_right (Int.natCast_nonneg n)) rfl rfl
    · rfl
  · rw [h, Nat.cast_zero, if_pos hhigh]
    rfl

theorem asUInt_toNode (hroot : root.IsObject) {n : UInt32} (h : Holds root key n.toNat) :
    asUInt root.toNode key = some n := by
  have hread : (root.toNode.get key).bind Json.Node.asUInt = some (n.toNat : ℤ) :=
    (asInteger_toNode hroot h (by decide)).trans (if_pos (by have := n.toNat_lt; omega))
  rw [asUInt, hread, Option.map_some, Int.toNat_natCast, UInt32.ofNat_toNat]

theorem asUInt64_toNode (hroot : root.IsObject) {n : UInt64} (h : Holds root key n.toNat) :
    asUInt64 root.toNode key = some n := by
  have hread : (root.toNode.get key).bind Json.Node.asUInt64 = some (n.toNat : ℤ) :=
    (asInteger_toNode hroot h (by decide)).trans (if_pos (by have := n.toNat_lt; omega))
  rw [asUInt64, hread, Option.map_some, Int.toNat_natCast, UInt64.ofNat_toNat]

theorem asUInt_toNode_large (hroot : root.IsObject) (h : Holds root key n) :
    asUInt root.toNode key = if n < 2 ^ 32 then some (UInt32.ofNat n) else none := by
  have hread : (root.toNode.get key).bind Json.Node.asUInt =
      if (n : ℤ) ≤ 2 ^ 32 - 1 then some (n : ℤ) else none := asInteger_toNode hroot h (by decide)
  rw [asUInt, hread]
  split
  · rw [if_pos (by omega), Option.map_some, Int.toNat_natCast]
  · rw [if_neg (by omega), Option.map_none]

theorem MESChat.isObject_root (msg : MESChat) : msg.root.IsObject := Json.Tree.isObject_set _ _ _

theorem MESChat.legible_root (msg : MESChat) : msg.root.Legible := by
  have htype : msg.msgType.toNat < 2 ^ 64 := msg.msgType.toNat_lt.trans (by decide)
  have hencrypt : (Json.Tree.int msg.encrypt.toNat).Legible :=
    Json.Tree.legible_int (msg.encrypt.toNat_lt.trans (by decide))
  have htime : (Json.Tree.int msg.msgTime.toNat).Legible :=
    Json.Tree.legible_int msg.msgTime.toNat_lt
  have hcommand : (Json.Tree.null.set "command" (.int mesChatDeliver)).Legible :=
    Json.Tree.legible_null.setNat (by decide) (by decide)
  rw [MESChat.root]
  generalize Json.Tree.null.set "command" (.int mesChatDeliver) = root at hcommand ⊢
  refine .setString (.setString (.setString (legible_setIf (legible_setIf (.setNat
    (.setString (.setString (.setString hcommand ?_) ?_) ?_) htype ?_) htime ?_)
    hencrypt ?_) ?_) ?_) ?_
  all_goals decide

/-- The message as it comes back. -/
def MESChat.kept (msg : MESChat) : MESChat :=
  { msg with
    fromId := CText.cStr msg.fromId
    toId := CText.cStr msg.toId
    msgId := CText.cStr msg.msgId
    content := CText.cStr msg.content
    serviceId := []
    questionId := []
    extend := [] }

theorem MESChat.chatOf_root (msg : MESChat) : chatOf msg.root.toNode = some msg.kept := by
  have hroot := msg.isObject_root
  have htype : Holds msg.root "msgType" msg.msgType.toNat := by
    simp (disch := decide) only [Holds, root, Json.Tree.get_set_self, Json.Tree.get_set_of_ne,
      get_setIf_of_ne, true_or]
  have htime : Holds msg.root "msgTime" msg.msgTime.toNat := by
    simp (disch := decide) only [Holds, root, Json.Tree.get_set_of_ne, get_setIf_of_ne]
    exact holds_setIf (fun hzero => by rw [not_not.mp hzero]; rfl) (by
      simp (disch := decide) only [Json.Tree.get_set_of_ne]; rfl)
  have hencrypt : Holds msg.root "encrypt" msg.encrypt.toNat := by
    simp (disch := decide) only [Holds, root, Json.Tree.get_set_of_ne]
    exact holds_setIf (fun hzero => by rw [not_not.mp hzero]; rfl) (by
      simp (disch := decide) only [Json.Tree.get_set_of_ne, get_setIf_of_ne]; rfl)
  have hfromId : asString msg.root.toNode "sFromId" = some (CText.cStr msg.fromId) :=
    asString_toNode hroot (by
      simp (disch := decide) only [root, Json.Tree.get_set_self, Json.Tree.get_set_of_ne,
        get_setIf_of_ne])
  have htoId : asString msg.root.toNode "sToId" = some (CText.cStr msg.toId) :=
    asString_toNode hroot (by
      simp (disch := decide) only [root, Json.Tree.get_set_self, Json.Tree.get_set_of_ne,
        get_setIf_of_ne])
  have hmsgId : asString msg.root.toNode "sMsgId" = some (CText.cStr msg.msgId) :=
    asString_toNode hroot (by
      simp (disch := decide) only [root, Json.Tree.get_set_self, Json.Tree.get_set_of_ne,
        get_setIf_of_ne])
  have hcontent : asString msg.root.toNode "sContent" = some (CText.cStr msg.content) :=
    asString_toNode hroot (by
      simp (disch := decide) only [root, Json.Tree.get_set_self, Json.Tree.get_set_of_ne])
  simp only [chatOf, hfromId, htoId, hmsgId, hcontent, asUInt_toNode hroot htype,
    asUInt64_toNode hroot htime, asUInt_toNode hroot hencrypt, bind, Option.bind_some, kept]

theorem MESChat.postCustMsg_toJsonStr (scan : Json.Scan) (msg : MESChat) :
    postCustMsg true scan msg.toJsonStr = some (.sent mesChat (.chat msg.kept)) := by
  have hcommand : (msg.root.toNode.get "command").bind Json.Node.asInt = some mesChatDeliver := by
    rw [msg.isObject_root.get_toNode]
    simp (disch := decide) only [root, Json.Tree.get_set_self, Json.Tree.get_set_of_ne,
      get_setIf_of_ne]
    rfl
  rw [postCustMsg, toJsonStr, Json.parse_toStyledString msg.isObject_root msg.legible_root]
  have hcmd : requestCmd true mesChatDeliver = mesChat := by decide
  simp only [hcommand, bind, Option.bind_some, hcmd, msg.chatOf_root, if_true, Option.map_some]

/-- The texts have no NUL, and nothing stands in the fields that are left out. -/
def MESChat.Carried (msg : MESChat) : Prop :=
  (0 ∉ msg.fromId ∧ 0 ∉ msg.toId ∧ 0 ∉ msg.msgId ∧ 0 ∉ msg.content) ∧
    msg.serviceId = [] ∧ msg.questionId = [] ∧ msg.extend = []

theorem MESChat.kept_eq_self_iff (msg : MESChat) : msg.kept = msg ↔ msg.Carried := by
  obtain ⟨fromId, toId, msgId, msgType, msgTime, encrypt, content, serviceId, questionId, extend⟩ :=
    msg
  simp only [kept, Carried, mk.injEq, CText.cStr_eq_self_iff, true_and, and_assoc]
  simp only [eq_comm]

theorem MESChatCancel.isObject_root (msg : MESChatCancel) : msg.root.IsObject :=
  isObject_setIf (isObject_setIf (isObject_setIf (Json.Tree.isObject_set _ _ _)))

theorem MESChatCancel.legible_root (msg : MESChatCancel) : msg.root.Legible := by
  have htype : msg.cancelType.toNat < 2 ^ 64 := msg.cancelType.toNat_lt.trans (by decide)
  have hgroup : (Json.Tree.string msg.groupId).Legible := trivial
  have htime : (Json.Tree.int msg.msgTime.toNat).Legible :=
    Json.Tree.legible_int msg.msgTime.toNat_lt
  have hcancel : (Json.Tree.int msg.cancelTime.toNat).Legible :=
    Json.Tree.legible_int msg.cancelTime.toNat_lt
  have hcommand : (Json.Tree.null.set "command" (.int mesChatcancelDeliver)).Legible :=
    Json.Tree.legible_null.setNat (by decide) (by decide)
  rw [MESChatCancel.root]
  generalize Json.Tree.null.set "command" (.int mesChatcancelDeliver) = root at hcommand ⊢
  refine legible_setIf (legible_setIf (legible_setIf (.setNat (.setString (.setString
    (.setString hcommand ?_) ?_) ?_) htype ?_) hgroup ?_) htime ?_) hcancel ?_
  all_goals decide

/-- The message as it comes back, if it does. -/
def MESChatCancel.kept (msg : MESChatCancel) : MESChatCancel :=
  { msg with
    fromId := CText.cStr msg.fromId
    toId := CText.cStr msg.toId
    groupId := if msg.cancelType ≠ 0 then CText.cStr msg.groupId else []
    msgId := CText.cStr msg.msgId
    sendState := 0 }

theorem MESChatCancel.chatCancelOf_root (msg : MESChatCancel) :
    chatCancelOf msg.root.toNode =
      if msg.cancelTime.toNat < 2 ^ 32 then some msg.kept else none := by
  have hroot := msg.isObject_root
  have htype : Holds msg.root "nCancelType" msg.cancelType.toNat := by
    simp (disch := decide) only [Holds, root, Json.Tree.get_set_self, get_setIf_of_ne, true_or]
  have htime : Holds msg.root "msgTime" msg.msgTime.toNat := by
    simp (disch := decide) only [Holds, root, get_setIf_of_ne]
    exact holds_setIf (fun hzero => by rw [not_not.mp hzero]; rfl) (by
      simp (disch := decide) only [Json.Tree.get_set_of_ne, get_setIf_of_ne]; rfl)
  have hcancel : Holds msg.root "cancelTime" msg.cancelTime.toNat := by
    exact holds_setIf (fun hzero => by rw [not_not.mp hzero]; rfl) (by
      simp (disch := decide) only [Json.Tree.get_set_of_ne, get_setIf_of_ne]; rfl)
  have hfromId : asString msg.root.toNode "sFromId" = some (CText.cStr msg.fromId) :=
    asString_toNode hroot (by
      simp (disch := decide) only [root, Json.Tree.get_set_self, Json.Tree.get_set_of_ne,
        get_setIf_of_ne])
  have htoId : asString msg.root.toNode "sToId" = some (CText.cStr msg.toId) :=
    asString_toNode hroot (by
      simp (disch := decide) only [root, Json.Tree.get_set_self, Json.Tree.get_set_of_ne,
        get_setIf_of_ne])
  have hmsgId : asString msg.root.toNode "sMsgId" = some (CText.cStr msg.msgId) :=
    asString_toNode hroot (by
      simp (disch := decide) only [root, Json.Tree.get_set_self, Json.Tree.get_set_of_ne,
        get_setIf_of_ne])
  have hgroup : msg.root.get (CText.bytes "sGroupId") =
      if msg.cancelType ≠ 0 then .string msg.groupId else .null := by
    simp (disch := decide) only [root, get_setIf_of_ne]
    exact get_setIf_self (by simp (disch := decide) only [Json.Tree.get_set_of_ne]; rfl)
  have hgroupId : asString msg.root.toNode "sGroupId" =
      some (if msg.cancelType ≠ 0 then CText.cStr msg.groupId else []) := by
    split at hgroup
    · next hp => rw [asString_toNode hroot hgroup, if_pos hp]
    · next hp => rw [asString_null hroot hgroup, if_neg hp]
  simp only [chatCancelOf, hfromId, htoId, hmsgId, hgroupId, asUInt_toNode hroot htype,
    asUInt64_toNode hroot htime, asUInt_toNode_large hroot hcancel, bind, Option.bind_some]
  split
  · next hlt =>
    have hcancelTime : (UInt32.ofNat msg.cancelTime.toNat).toUInt64 = msg.cancelTime := by
      apply UInt64.toNat_inj.mp
      rw [UInt32.toNat_toUInt64, UInt32.toNat_ofNat_of_lt' hlt]
    rw [Option.bind_some, hcancelTime, kept]
  · rfl

/-- What is sent for a cancelled chat that was handed over. -/
theorem MESChatCancel.postCustMsg_toJsonStr (scan : Json.Scan) (msg : MESChatCancel) :
    postCustMsg true scan msg.toJsonStr =
      if msg.cancelTime.toNat < 2 ^ 32 then some (.sent mesChatcancel (.chatCancel msg.kept))
      else none := by
  have hcommand : (msg.root.toNode.get "command").bind Json.Node.asInt =
      some mesChatcancelDeliver := by
    rw [msg.isObject_root.get_toNode]
    simp (disch := decide) only [root, Json.Tree.get_set_self, Json.Tree.get_set_of_ne,
      get_setIf_of_ne]
    rfl
  have hcmd : requestCmd true mesChatcancelDeliver = mesChatcancel := by decide
  have hne : mesChatcancel ≠ mesChat := by decide
  rw [postCustMsg, toJsonStr, Json.parse_toStyledString msg.isObject_root msg.legible_root]
  simp only [hcommand, bind, Option.bind_some, hcmd, if_neg hne, msg.chatCancelOf_root, if_true]
  split <;> rfl

/-- The texts have no NUL, the group is given as the type says, the time of the cancellation has 32
bits, and the state of the sending is not set. -/
def MESChatCancel.Carried (msg : MESChatCancel) : Prop :=
  (0 ∉ msg.fromId ∧ 0 ∉ msg.toId ∧ 0 ∉ msg.msgId) ∧
    (if msg.cancelType ≠ 0 then 0 ∉ msg.groupId else msg.groupId = []) ∧
    msg.cancelTime.toNat < 2 ^ 32 ∧ msg.sendState = 0

theorem MESChatCancel.kept_eq_self_iff (msg : MESChatCancel) :
    msg.kept = msg ↔ (0 ∉ msg.fromId ∧ 0 ∉ msg.toId ∧ 0 ∉ msg.msgId) ∧
      (if msg.cancelType ≠ 0 then 0 ∉ msg.groupId else msg.groupId = []) ∧ msg.sendState = 0 := by
  obtain ⟨fromId, toId, cancelType, groupId, msgId, msgTime, cancelTime, sendState⟩ := msg
  have hgroup : (if cancelType ≠ 0 then CText.cStr groupId else []) = groupId ↔
      if cancelType ≠ 0 then 0 ∉ groupId else groupId = [] := by
    split
    · exact CText.cStr_eq_self_iff
    · exact eq_comm
  simp only [kept, mk.injEq, CText.cStr_eq_self_iff, hgroup, true_and, eq_comm (a := (0 : UInt32))]
  tauto

/-- A message survives if and only if nothing stands where the two mappings lose it. -/
theorem survives_iff (scan : Json.Scan) (chat : MESChat) (chatCancel : MESChatCancel) :
    (Survives scan chat.toJsonStr mesChat (.chat chat) ↔ chat.Carried) ∧
      (Survives scan chatCancel.toJsonStr mesChatcancel (.chatCancel chatCancel) ↔
        chatCancel.Carried) := by
  constructor
  · rw [Survives, chat.postCustMsg_toJsonStr, ← chat.kept_eq_self_iff]
    simp only [Option.some.injEq, Posted.sent.injEq, Request.chat.injEq, true_and]
  · have hiff : chatCancel.Carried ↔
        chatCancel.cancelTime.toNat < 2 ^ 32 ∧ chatCancel.kept = chatCancel := by
      rw [chatCancel.kept_eq_self_iff, MESChatCancel.Carried]
      tauto
    rw [Survives, chatCancel.postCustMsg_toJsonStr, hiff]
    split
    · next hlt =>
      simp only [Option.some.injEq, Posted.sent.injEq, Request.chatCancel.injEq, hlt, true_and]
    · next hge =>
      simp only [hge, false_and, reduceCtorEq]

/-- A service id does not come back, and a time in milliseconds is an exception. -/
theorem not_survives :
    ¬(∀ (scan : Json.Scan) (msg : MESChat),
        Survives scan msg.toJsonStr mesChat (.chat msg)) ∧
      ¬∀ (scan : Json.Scan) (msg : MESChatCancel),
        Survives scan msg.toJsonStr mesChatcancel (.chatCancel msg) := by
  constructor
  · intro hchat
    let msg : MESChat :=
      { fromId := [49], toId := [50], msgId := [51], msgType := 1, msgTime := 1518000000000,
        encrypt := 0, content := [104, 105], serviceId := [52], questionId := [], extend := [] }
    have hsurvives := hchat (fun _ => none) msg
    rw [Survives, msg.postCustMsg_toJsonStr] at hsurvives
    exact absurd hsurvives (by decide)
  · intro hcancel
    let msg : MESChatCancel :=
      { fromId := [49], toId := [50], cancelType := 0, groupId := [], msgId := [51],
        msgTime := 1518000000000, cancelTime := 1518000000000, sendState := 0 }
    have hsurvives := hcancel (fun _ => none) msg
    rw [Survives, msg.postCustMsg_toJsonStr, if_neg (by decide)] at hsurvives
    cases hsurvives

end CustMsgBridge

end ImServer
