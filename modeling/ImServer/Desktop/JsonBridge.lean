import ImServer.Base.JsonComplete
import ImServer.Desktop.GatewayAuthority
import ImServer.Desktop.JsonTexts
import ImServer.Lib.JsonPrinted

/-!
# What the desktop gateway says

Messages of an app come from its connection manager in binary form. `OnAppSynMessageToGw`,
`OnCheckAppActiveAck` and `OnGwSynMessageToAppAck` (destopGw/desktopmsgtran.cpp) print them as JSON
for the PC, with `asprintf` and without escapes. A PC that reads JSON is told what the app has said
if there is nothing to escape and the numbers are not printed as negative ones; otherwise no way of
reading the text helps.

The other way round the reader of the gateway finds what any JSON text says.
-/

namespace ImServer

namespace DesktopMsgTran

open CClientLinkMgr Json
open JsonText (Printed Entry)

/-- The messages of an app, with their texts byte by byte. -/
inductive FromApp where
  | appSynMessageToGw (sfromid stoid : List UInt8) (synctype : UInt32)
      (msgid synmsg extended : List UInt8)
  | checkAppActiveAck (msgid sfromid : List UInt8) (time : UInt64)
  | gwSynMessageToAppAck (sfromid msgid : List UInt8)
  deriving DecidableEq, Repr

namespace FromApp

def sfromid : FromApp → List UInt8
  | .appSynMessageToGw sfromid .. | .checkAppActiveAck _ sfromid _
  | .gwSynMessageToAppAck sfromid _ => sfromid

/-- The command with which the PC gets it, one for each kind of message. -/
def pcCommand : FromApp → UInt16
  | .appSynMessageToGw .. => 0xb0dc
  | .checkAppActiveAck .. => 0xb0e4
  | .gwSynMessageToAppAck .. => 0xb0da

/-- What `asprintf` prints: the texts stand between quotes as they are, up to their first NUL. -/
def longJson : FromApp → List UInt8
  | .appSynMessageToGw sfromid stoid synctype msgid synmsg _ =>
    CText.bytes "\x7b\"fromid\":\"" ++ CText.cStr sfromid ++
      CText.bytes "\", \"toid\":\"" ++ CText.cStr stoid ++
      CText.bytes "\", \"synctype\":" ++ CText.bytes (toString synctype.toBitVec.toInt) ++
      CText.bytes ", \"msgid\":\"" ++ CText.cStr msgid ++
      CText.bytes "\",\"synmessage\":\"" ++ CText.cStr synmsg ++ CText.bytes "\"\x7d"
  | .checkAppActiveAck msgid sfromid time =>
    CText.bytes "\x7b\"msgid\":\"" ++ CText.cStr msgid ++
      CText.bytes "\", \"fromid\":\"" ++ CText.cStr sfromid ++
      CText.bytes "\", \"time\":" ++ CText.bytes (toString time.toBitVec.toInt) ++
      CText.bytes "\x7d"
  | .gwSynMessageToAppAck sfromid msgid =>
    CText.bytes "\x7b\"fromid\":\"" ++ CText.cStr sfromid ++
      CText.bytes "\", \"msgid\":\"" ++ CText.cStr msgid ++ CText.bytes "\"\x7d"

end FromApp

/-- `OnMessageFromCM` for the messages of an app. The reference on the link is not given back. -/
def onMessageFromCM (m : CClientLinkMgr) (msg : FromApp) :
    CClientLinkMgr × List (UidCode × UInt16 × List UInt8) :=
  match m.getLinkByUserId (byteText msg.sfromid) with
  | (m, some pLink) =>
    let sessionId := (m.links pLink).sessionId
    (sendAck m sessionId, [(sessionId, msg.pcCommand, msg.longJson)])
  | (m, none) => (m, [])

namespace FromApp

/-- The members of the text, with what each is meant to say. -/
def entries : FromApp → List Entry
  | .appSynMessageToGw sfromid stoid synctype msgid synmsg _ =>
    [⟨false, CText.bytes "fromid", .string sfromid⟩, ⟨true, CText.bytes "toid", .string stoid⟩,
      ⟨true, CText.bytes "synctype", .int synctype.toNat synctype.toBitVec.toInt⟩,
      ⟨true, CText.bytes "msgid", .string msgid⟩, ⟨false, CText.bytes "synmessage", .string synmsg⟩]
  | .checkAppActiveAck msgid sfromid time =>
    [⟨false, CText.bytes "msgid", .string msgid⟩, ⟨true, CText.bytes "fromid", .string sfromid⟩,
      ⟨true, CText.bytes "time", .int time.toNat time.toBitVec.toInt⟩]
  | .gwSynMessageToAppAck sfromid msgid =>
    [⟨false, CText.bytes "fromid", .string sfromid⟩, ⟨true, CText.bytes "msgid", .string msgid⟩]

/-- The members that a PC should find, which is what the format of `asprintf` is for. -/
def fields : FromApp → List (List UInt8 × JsonText.Value)
  | .appSynMessageToGw sfromid stoid synctype msgid synmsg _ =>
    [(CText.bytes "fromid", .string sfromid), (CText.bytes "toid", .string stoid),
      (CText.bytes "synctype", .int synctype.toNat), (CText.bytes "msgid", .string msgid),
      (CText.bytes "synmessage", .string synmsg)]
  | .checkAppActiveAck msgid sfromid time =>
    [(CText.bytes "msgid", .string msgid), (CText.bytes "fromid", .string sfromid),
      (CText.bytes "time", .int time.toNat)]
  | .gwSynMessageToAppAck sfromid msgid =>
    [(CText.bytes "fromid", .string sfromid), (CText.bytes "msgid", .string msgid)]

/-- A text is JSON, and under each name the last member is the field of the message. -/
def SaidBy (msg : FromApp) (text : List UInt8) : Prop :=
  ∃ members, JsonText.Document text (.object members) ∧
    ∀ field ∈ msg.fields, JsonText.lastOf field.1 members = some field.2

/-- There is nothing to escape, and no number is printed as a negative one. -/
def Printable : FromApp → Prop
  | .appSynMessageToGw sfromid stoid synctype msgid synmsg _ =>
    JsonText.Plain sfromid ∧ JsonText.Plain stoid ∧ synctype.toNat < 2 ^ 31 ∧
      JsonText.Plain msgid ∧ JsonText.Plain synmsg
  | .checkAppActiveAck msgid sfromid time =>
    JsonText.Plain msgid ∧ JsonText.Plain sfromid ∧ time.toNat < 2 ^ 63
  | .gwSynMessageToAppAck sfromid msgid => JsonText.Plain sfromid ∧ JsonText.Plain msgid

variable {msg : FromApp}

theorem longJson_eq (msg : FromApp) : msg.longJson = 123 :: JsonText.write msg.entries := by
  cases msg with
  | appSynMessageToGw sfromid stoid synctype msgid synmsg extended =>
    have hfromid : CText.bytes "\x7b\"fromid\":\"" =
        123 :: 34 :: (CText.bytes "fromid" ++ [34, 58, 34]) := by decide
    have htoid : CText.bytes "\", \"toid\":\"" =
        34 :: 44 :: 32 :: 34 :: (CText.bytes "toid" ++ [34, 58, 34]) := by decide
    have hsynctype : CText.bytes "\", \"synctype\":" =
        34 :: 44 :: 32 :: 34 :: (CText.bytes "synctype" ++ [34, 58]) := by decide
    have hmsgid : CText.bytes ", \"msgid\":\"" =
        44 :: 32 :: 34 :: (CText.bytes "msgid" ++ [34, 58, 34]) := by decide
    have hsynmessage : CText.bytes "\",\"synmessage\":\"" =
        34 :: 44 :: 34 :: (CText.bytes "synmessage" ++ [34, 58, 34]) := by decide
    have hend : CText.bytes "\"\x7d" = [34, 125] := by decide
    rw [longJson, hfromid, htoid, hsynctype, hmsgid, hsynmessage, hend]
    simp [entries, JsonText.write, Entry.text, Entry.front, Printed.text]
  | checkAppActiveAck msgid sfromid time =>
    have hmsgid : CText.bytes "\x7b\"msgid\":\"" =
        123 :: 34 :: (CText.bytes "msgid" ++ [34, 58, 34]) := by decide
    have hfromid : CText.bytes "\", \"fromid\":\"" =
        34 :: 44 :: 32 :: 34 :: (CText.bytes "fromid" ++ [34, 58, 34]) := by decide
    have htime : CText.bytes "\", \"time\":" =
        34 :: 44 :: 32 :: 34 :: (CText.bytes "time" ++ [34, 58]) := by decide
    have hend : CText.bytes "\x7d" = [125] := by decide
    rw [longJson, hmsgid, hfromid, htime, hend]
    simp [entries, JsonText.write, Entry.text, Entry.front, Printed.text]
  | gwSynMessageToAppAck sfromid msgid =>
    have hfromid : CText.bytes "\x7b\"fromid\":\"" =
        123 :: 34 :: (CText.bytes "fromid" ++ [34, 58, 34]) := by decide
    have hmsgid : CText.bytes "\", \"msgid\":\"" =
        34 :: 44 :: 32 :: 34 :: (CText.bytes "msgid" ++ [34, 58, 34]) := by decide
    have hend : CText.bytes "\"\x7d" = [34, 125] := by decide
    rw [longJson, hfromid, hmsgid, hend]
    simp [entries, JsonText.write, Entry.text, Entry.front, Printed.text]

theorem map_member_entries (msg : FromApp) : msg.entries.map Entry.member = msg.fields := by
  cases msg <;> rfl

theorem named_entries (msg : FromApp) : ∀ entry ∈ msg.entries, entry.Named := by
  have hfromid {gap : Bool} {value : Printed} : Entry.Named ⟨gap, CText.bytes "fromid", value⟩ :=
    Entry.named_of_all (by decide) (by decide)
  have hmsgid {gap : Bool} {value : Printed} : Entry.Named ⟨gap, CText.bytes "msgid", value⟩ :=
    Entry.named_of_all (by decide) (by decide)
  cases msg with
  | appSynMessageToGw sfromid stoid synctype msgid synmsg extended =>
    simp only [entries, List.forall_mem_cons]
    exact ⟨hfromid, Entry.named_of_all (by decide) (by decide),
      Entry.named_of_all (by decide) (by decide), hmsgid,
      Entry.named_of_all (by decide) (by decide), nofun⟩
  | checkAppActiveAck msgid sfromid time =>
    simp only [entries, List.forall_mem_cons]
    exact ⟨hmsgid, hfromid, Entry.named_of_all (by decide) (by decide), nofun⟩
  | gwSynMessageToAppAck sfromid msgid =>
    simp only [entries, List.forall_mem_cons]
    exact ⟨hfromid, hmsgid, nofun⟩

theorem printable_iff (msg : FromApp) :
    msg.Printable ↔ ∀ entry ∈ msg.entries, entry.value.Right := by
  cases msg with
  | appSynMessageToGw sfromid stoid synctype msgid synmsg extended =>
    have hsynctype : synctype.toBitVec.toInt = synctype.toNat ↔ synctype.toNat < 2 ^ 31 := by
      rw [← UInt32.toNat_toBitVec, JsonText.toInt_eq_iff]
      omega
    simp only [Printable, entries, List.forall_mem_cons, Printed.Right, hsynctype]
    simp
  | checkAppActiveAck msgid sfromid time =>
    have htime : time.toBitVec.toInt = time.toNat ↔ time.toNat < 2 ^ 63 := by
      rw [← UInt64.toNat_toBitVec, JsonText.toInt_eq_iff]
      omega
    simp only [Printable, entries, List.forall_mem_cons, Printed.Right, htime]
    simp
  | gwSynMessageToAppAck sfromid msgid =>
    simp only [Printable, entries, List.forall_mem_cons, Printed.Right]
    simp

end FromApp

/-- What a session is sent tells a PC the message: it is JSON, and its members are those of the
message. -/
def Told (m : CClientLinkMgr) (msg : FromApp) (sessionId : UidCode) : Prop :=
  ∃ text, (sessionId, msg.pcCommand, text) ∈ (onMessageFromCM m msg).2 ∧ msg.SaidBy text

/-- The messages of a PC, with their texts byte by byte. -/
inductive FromPc where
  | pcSynMessageToGw (fromid toid : List UInt8) (synctype : ℤ)
      (msgid synmessage extend : List UInt8)
  | gwSynMessageToPCAck (fromid msgid : List UInt8)
  | heartBeart (msgid fromid : List UInt8) (time : ℤ)

section Members

variable (members : List (List UInt8 × JsonText.Value))

/-- The last member whose name is that one up to its first NUL is the string, or there is none and
the string is empty. -/
def TextIn (key : String) (s : List UInt8) : Prop :=
  lastCut (CText.bytes key) members = some (.string s) ∨
    lastCut (CText.bytes key) members = none ∧ s = []

/-- The last member whose name is that one up to its first NUL is an integer of 64 bits, signed or
not, or there is none and the integer is zero. -/
def NumberIn (key : String) (n : ℤ) : Prop :=
  lastCut (CText.bytes key) members = some (.int n) ∧ -2 ^ 63 ≤ n ∧ n < 2 ^ 64 ∨
    lastCut (CText.bytes key) members = none ∧ n = 0

end Members

namespace FromPc

def command : FromPc → UInt16
  | .pcSynMessageToGw .. => pcPcsynmessagetogw
  | .gwSynMessageToPCAck .. => pcGwsynmessagetopcack
  | .heartBeart .. => pcHeartbeart

def fromid : FromPc → List UInt8
  | .pcSynMessageToGw fromid .. | .gwSynMessageToPCAck fromid _ | .heartBeart _ fromid _ => fromid

/-- The members of an object say the message, by the last member that counts for each name. -/
def SaidIn (members : List (List UInt8 × JsonText.Value)) : FromPc → Prop
  | .pcSynMessageToGw fromid toid synctype msgid synmessage extend =>
    TextIn members "fromid" fromid ∧ TextIn members "toid" toid ∧
      NumberIn members "synctype" synctype ∧ TextIn members "msgid" msgid ∧
      TextIn members "synmessage" synmessage ∧ TextIn members "extend" extend
  | .gwSynMessageToPCAck fromid msgid =>
    TextIn members "fromid" fromid ∧ TextIn members "msgid" msgid
  | .heartBeart msgid fromid time =>
    TextIn members "msgid" msgid ∧ TextIn members "fromid" fromid ∧ NumberIn members "time" time

/-- A string up to its first NUL, as `asCString` gives it to the gateway. -/
def text (s : List UInt8) : String := byteText (CText.cStr s)

/-- A signed integer of so many bits, or zero. -/
def fitted (bits : ℕ) (n : ℤ) : ℤ := if -(2 ^ (bits - 1)) ≤ n ∧ n < 2 ^ (bits - 1) then n else 0

/-- The message as the app gets it: texts end at their first NUL, and numbers are cut to their
fields. -/
def toApp : FromPc → AppMsg
  | .pcSynMessageToGw fromid toid synctype msgid synmessage extend =>
    .gwSynMessageToApp (text fromid) (text toid) (UInt32.ofInt (fitted 32 synctype)) (text msgid)
      (text synmessage) (text extend)
  | .gwSynMessageToPCAck fromid msgid => .appSynMessageToGwAck (text fromid) (text msgid)
  | .heartBeart msgid fromid time => .checkAppActive (text msgid) (text fromid) (fitted 64 time)

def msgid : FromPc → List UInt8
  | .pcSynMessageToGw _ _ _ msgid .. | .gwSynMessageToPCAck _ msgid | .heartBeart msgid .. => msgid

/-- What is left of the links when a heart beat has been answered. -/
def acked (m : CClientLinkMgr) (sessionId : UidCode) : FromPc → CClientLinkMgr
  | .heartBeart .. => sendAck m sessionId
  | .pcSynMessageToGw .. | .gwSynMessageToPCAck .. => m

def acks (sessionId : UidCode) (strInput : String) : FromPc → List (UidCode × PcMsg)
  | .heartBeart .. => [(sessionId, .heartBeartAck strInput)]
  | .pcSynMessageToGw .. | .gwSynMessageToPCAck .. => []

/-- What is done for a message. -/
def outcome (msg : FromPc) (m : CClientLinkMgr) (c : CLoginCache) (env : Env) (sessionId : UidCode)
    (strInput : String) : Outcome :=
  let passed := passOn (msg.acked m sessionId) c env (text msg.fromid) (text msg.msgid) msg.toApp
  { mgr := passed.1, cache := c, acks := msg.acks sessionId strInput, acts := passed.2 }

end FromPc

section Reading

variable {scan : Scan} {members : List (List UInt8 × JsonText.Value)}
variable {nodes : List (List UInt8 × Node)} {key : String}

theorem field_of_textIn {s : List UInt8} (hkey : Ascii key)
    (hnodes : ∀ key, Option.Rel (Denotes scan) (lastCut key members) (nodes.lookup key))
    (h : TextIn members key s) :
    (Node.object nodes).toValue.field key = some (FromPc.text s) := by
  have hrel := hnodes (CText.bytes key)
  rw [field_toValue hkey, Node.textField, Node.get, Option.bind_some]
  obtain h | ⟨h, rfl⟩ := h
  · rw [h] at hrel
    generalize nodes.lookup (CText.bytes key) = found at hrel ⊢
    cases hrel with
    | some hdenotes =>
      cases hdenotes
      rfl
  · rw [h] at hrel
    generalize nodes.lookup (CText.bytes key) = found at hrel ⊢
    cases hrel
    rfl

theorem intOr0_of_numberIn {n : ℤ} (bits : ℕ) (hkey : Ascii key)
    (hnodes : ∀ key, Option.Rel (Denotes scan) (lastCut key members) (nodes.lookup key))
    (h : NumberIn members key n) :
    ∃ value, (Node.object nodes).toValue.get key = some value ∧
      value.intOr0 bits = FromPc.fitted bits n := by
  have hrel := hnodes (CText.bytes key)
  rw [get_toValue hkey, Node.get]
  obtain ⟨h, hlow, hhigh⟩ | ⟨h, rfl⟩ := h
  · rw [h] at hrel
    generalize nodes.lookup (CText.bytes key) = found at hrel ⊢
    cases hrel with
    | some hdenotes =>
      refine ⟨_, rfl, ?_⟩
      cases hdenotes with
      | int _ _ =>
        have hvalue : (ofInt n).toValue = .int n := by
          rw [ofInt]
          split
          · rw [Node.toValue]
          · rw [Node.toValue, Int.toNat_of_nonneg (by omega)]
        rw [Option.getD_some, hvalue]
        rfl
      | large hlarge _ => omega
  · rw [h] at hrel
    generalize nodes.lookup (CText.bytes key) = found at hrel ⊢
    cases hrel
    refine ⟨_, rfl, ?_⟩
    rw [Option.getD_none, Node.toValue]
    rfl

section Handlers

variable {m : CClientLinkMgr} {c : CLoginCache} {env : Env} {pdu : Pdu}

theorem handler_syn (h : pdu.commandId = pcPcsynmessagetogw) :
    onMessageFromPC m c pdu env = onPCSynMessageToGw m c pdu env := by
  simp [onMessageFromPC, h, pcLogin, pcLogout, pcPcsynmessagetogw]

theorem handler_ack (h : pdu.commandId = pcGwsynmessagetopcack) :
    onMessageFromPC m c pdu env = onGwSynMessageToPCAck m c pdu env := by
  simp [onMessageFromPC, h, pcLogin, pcLogout, pcPcsynmessagetogw, pcGwsynmessagetopcack]

theorem handler_heartBeat (h : pdu.commandId = pcHeartbeart) :
    onMessageFromPC m c pdu env = onHeartBeat m c pdu env := by
  simp [onMessageFromPC, h, pcLogin, pcLogout, pcPcsynmessagetogw, pcGwsynmessagetopcack,
    pcHeartbeart]

end Handlers

theorem handle_of_saidIn {msg : FromPc} (m : CClientLinkMgr) (c : CLoginCache) (env : Env)
    (sessionId : UidCode) (strInput : String)
    (hnodes : ∀ key, Option.Rel (Denotes scan) (lastCut key members) (nodes.lookup key))
    (hsaid : msg.SaidIn members) :
    onMessageFromPC m c ⟨msg.command, sessionId, strInput, some (Node.object nodes).toValue⟩ env =
      some (msg.outcome m c env sessionId strInput) := by
  cases msg with
  | pcSynMessageToGw fromid toid synctype msgid synmessage extend =>
    obtain ⟨hfromid, htoid, hsynctype, hmsgid, hsynmessage, hextend⟩ := hsaid
    obtain ⟨value, hvalue, hfitted⟩ := intOr0_of_numberIn 32 (by rfl) hnodes hsynctype
    rw [handler_syn rfl, onPCSynMessageToGw]
    dsimp only
    rw [field_of_textIn (by rfl) hnodes hfromid, field_of_textIn (by rfl) hnodes htoid, hvalue,
      field_of_textIn (by rfl) hnodes hmsgid, field_of_textIn (by rfl) hnodes hsynmessage,
      field_of_textIn (by rfl) hnodes hextend]
    dsimp only [Option.bind_eq_bind, Option.bind_some]
    rw [hfitted]
    rfl
  | gwSynMessageToPCAck fromid msgid =>
    obtain ⟨hfromid, hmsgid⟩ := hsaid
    rw [handler_ack rfl, onGwSynMessageToPCAck]
    dsimp only
    rw [field_of_textIn (by rfl) hnodes hfromid, field_of_textIn (by rfl) hnodes hmsgid]
    rfl
  | heartBeart msgid fromid time =>
    obtain ⟨hmsgid, hfromid, htime⟩ := hsaid
    obtain ⟨value, hvalue, hfitted⟩ := intOr0_of_numberIn 64 (by rfl) hnodes htime
    rw [handler_heartBeat rfl, onHeartBeat]
    dsimp only
    rw [field_of_textIn (by rfl) hnodes hmsgid, field_of_textIn (by rfl) hnodes hfromid, hvalue]
    dsimp only [Option.bind_eq_bind, Option.bind_some]
    rw [hfitted]
    rfl

theorem getLinkByHost_acked (m : CClientLinkMgr) (sessionId : UidCode) (msg : FromPc)
    (sIp : String) (nPort : UInt16) :
    ((msg.acked m sessionId).getLinkByHost sIp nPort).2 = (m.getLinkByHost sIp nPort).2 := by
  cases msg with
  | pcSynMessageToGw fromid toid synctype msgid synmessage extend => rfl
  | gwSynMessageToPCAck fromid msgid => rfl
  | heartBeart msgid fromid time =>
    have hcore : (m.visitSession sessionId).core = m.core := core_visitSession
    have hhost : (sendAck m sessionId).hostLink = m.hostLink :=
      (congrArg CClientLinkMgr.hostLink hcore :)
    rw [FromPc.acked, snd_getLinkByHost, snd_getLinkByHost, hhost]

/-- A message goes on to an app that is logged in and whose connection manager is there. -/
theorem acts_passOn {m : CClientLinkMgr} {c : CLoginCache} {env : Env} {login : CLoginInfo}
    {l : LinkId} {fromid : String} (msgid : String) (msg : AppMsg)
    (hlogin : c.getLoginInfo env.loginInfoRead (prefixCmStr ++ fromid) = some login)
    (honline : login.isLogin = true)
    (hlink : (m.getLinkByHost login.sCmIp (UInt16.ofInt (CText.atoi login.sCmPort))).2 = some l) :
    (passOn m c env fromid msgid msg).2 = [.sendReq fromid l msg] := by
  rw [passOn, hlogin]
  dsimp only
  rw [if_pos honline, sendReq]
  generalize m.getLinkByHost login.sCmIp (UInt16.ofInt (CText.atoi login.sCmPort)) = found at hlink
  obtain ⟨m', found⟩ := found
  obtain rfl : found = some l := hlink
  rfl

/-- Whatever JSON text says a message, the app gets it if it is logged in and its connection manager
is there, and nothing else is done for anybody. -/
theorem app_told {sscanf : Sscanf} {m : CClientLinkMgr} {c : CLoginCache} {env : Env}
    {answer : Option (List UInt8)} {strInput : List UInt8} {msg : FromPc} {login : CLoginInfo}
    {l : LinkId} (sessionId : UidCode) (hdocument : JsonText.Document strInput (.object members))
    (hsaid : msg.SaidIn members)
    (hlogin : c.getLoginInfo env.loginInfoRead (prefixCmStr ++ FromPc.text msg.fromid) = some login)
    (honline : login.isLogin = true)
    (hlink : (m.getLinkByHost login.sCmIp (UInt16.ofInt (CText.atoi login.sCmPort))).2 = some l) :
    ∃ out, onTextFromPC m c sscanf.scan msg.command sessionId strInput answer env = some out ∧
      out.acts = [.sendReq (FromPc.text msg.fromid) l msg.toApp] ∧
      out.acks = msg.acks sessionId (byteText strInput) ∧ out.cache = c ∧ out.login = none := by
  have hparse : parse .all sscanf.scan strInput = some (nodeOf sscanf.scan (.object members)) :=
    parse_document (decodes_of_document sscanf hdocument) hdocument nofun
  have hdenotes : Denotes sscanf.scan (.object members) (nodeOf sscanf.scan (.object members)) :=
    denotes_of_document sscanf hdocument
  generalize nodeOf sscanf.scan (.object members) = node at hparse hdenotes
  cases hdenotes with
  | @object _ nodes hnodes =>
    rw [onTextFromPC, hparse, Option.map_some, handle_of_saidIn m c _ sessionId _ hnodes hsaid]
    refine ⟨_, rfl, acts_passOn _ _ hlogin honline ?_, rfl, rfl, rfl⟩
    rw [getLinkByHost_acked, hlink]

/-- The app of user `u` is logged in at the connection manager `i`. -/
def appCache : CLoginCache where
  hashes := fun key =>
    if key = "CM_u" then [("status", "1"), ("cm_ip", "i"), ("cm_port", "1")] else []

/-- Every number is read as zero. -/
def zeroScan : Sscanf := ⟨fun literal => some (.finite 0, literal), fun _ _ => rfl⟩

/-- The PC sends back what it was told when the app acknowledged a message. -/
theorem app_told_ack : ∃ out,
    onTextFromPC (CClientLinkMgr.addLinkByHost {} "i" 1 0) appCache zeroScan.scan
      (FromPc.gwSynMessageToPCAck [117] [109]).command zeroUid
      (FromApp.gwSynMessageToAppAck [117] [109]).longJson none {} = some out ∧
    out.acts = [.sendReq (FromPc.text [117]) 0 (FromPc.gwSynMessageToPCAck [117] [109]).toApp] ∧
    out.acks = [] ∧ out.cache = appCache ∧ out.login = none := by
  have hprintable : (FromApp.gwSynMessageToAppAck [117] [109]).Printable :=
    ⟨List.forall_mem_singleton.mpr (by decide), List.forall_mem_singleton.mpr (by decide)⟩
  have hdocument : JsonText.Document (FromApp.gwSynMessageToAppAck [117] [109]).longJson
      (.object (FromApp.gwSynMessageToAppAck [117] [109]).fields) := by
    rw [FromApp.longJson_eq, ← FromApp.map_member_entries]
    exact JsonText.document_write (FromApp.named_entries _)
      ((FromApp.printable_iff _).mp hprintable)
  have hlogin : appCache.getLoginInfo true (prefixCmStr ++ FromPc.text [117]) =
      some ⟨"1", "i", "1"⟩ := by decide +kernel
  exact app_told zeroUid hdocument ⟨.inl (by rfl), .inl (by rfl)⟩ hlogin (by decide)
    (by decide +kernel)

end Reading

end DesktopMsgTran

end ImServer
