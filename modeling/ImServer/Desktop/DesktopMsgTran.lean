import ImServer.Cm.Authorisation
import ImServer.Lib.CText

/-!
# The gateway of desktop clients

`DesktopMsgTran` (destopGw/desktopmsgtran.cpp) takes packets with a JSON body from PCs. A login is
checked by a web service and binds its link to a user; the other packets close the link of a user
and delete his record, or are passed on to his app. A PC is known by the record `PC_` with the id
of its user, an app by the record `CM_`, which the connection managers keep.

The id of the user comes from the body each time. The web service is not told it, and nothing
compares it with the user of the link on which the packet arrived.

A body is given with what the JSON reader makes of it. A handler is `none` where it throws: nobody
catches the exception, and the process ends.
-/

namespace ImServer

namespace Json

/-- `Json::Value`. A number with a point comes with the text that it is printed as and, if it is
integral, with its value. What an array holds is not read. -/
inductive Value where
  | null
  | bool (b : Bool)
  | int (n : Int)
  | real (text : String) (integral : Option Int)
  | string (s : String)
  | array
  | object (members : List (String × Value))

/-- `asString`; a text ends at its first NUL. -/
def Value.asString : Value → Option String
  | .null => some ""
  | .bool b => some (if b then "true" else "false")
  | .int n => some (toString n)
  | .real text _ => some text
  | .string s => some (String.ofList (s.toList.takeWhile (· ≠ '\x00')))
  | .array | .object _ => none

/-- `value[key]`, which is null if there is no such member. -/
def Value.get : Value → String → Option Value
  | .null, _ => some .null
  | .object members, key => some ((members.lookup key).getD .null)
  | _, _ => none

/-- `value[key].asString()`. -/
def Value.field (value : Value) (key : String) : Option String :=
  (value.get key).bind Value.asString

/-- `asInt` of a value that `isInt`, and 0 otherwise; `bits` is the width of the integer. -/
def Value.intOr0 (bits : Nat) (value : Value) : Int :=
  let n := match value with
    | .int n => n
    | .real _ (some n) => n
    | _ => 0
  if -(2 ^ (bits - 1)) ≤ n ∧ n < 2 ^ (bits - 1) then n else 0

end Json

namespace CClientLinkMgr

/-- `GetLinkByHost`, which takes a reference of the link that it finds. -/
def getLinkByHost (m : CClientLinkMgr) (sIp : String) (nPort : UInt16) :
    CClientLinkMgr × Option LinkId :=
  if sIp = "" then (m, none)
  else
    match m.hostLink (getHostString sIp nPort) with
    | some l => (m.addRef l, some l)
    | none => (m, none)

end CClientLinkMgr

namespace DesktopMsgTran

/-- The hashes of redis, each with its fields. A field that is not there reads as an empty text. -/
structure CLoginCache where
  hashes : String → List (String × String) := fun _ => []

structure UserCache where
  sLoginToken : String := ""
  sDeviceToken : String := ""
  sIPAddr : String := ""
  nIPPort : UInt16 := 0
  sSessionId : String := ""
  deriving DecidableEq, Repr

structure CLoginInfo where
  sStatus : String
  sCmIp : String
  sCmPort : String
  deriving DecidableEq, Repr

def CLoginInfo.isLogin (login : CLoginInfo) : Bool := login.sStatus = "1"

namespace CLoginCache

variable (c : CLoginCache)

/-- The text of a field, which is empty if the hash does not have it. -/
def hget (key field : String) : String := ((c.hashes key).lookup field).getD ""

def hmset (key : String) (fields : List (String × String)) : CLoginCache :=
  let kept := (c.hashes key).filter fun f => f.1 ∉ fields.map Prod.fst
  { hashes := Function.update c.hashes key (fields ++ kept) }

def del (key : String) : CLoginCache := { hashes := Function.update c.hashes key [] }

/-- `GetUserRecord`; redis may fail to answer. -/
def getUserRecord (answered : Bool) (sUserId : String) : Option UserCache :=
  if answered = true ∧ c.hashes sUserId ≠ [] then
    some { sLoginToken := c.hget sUserId "login_token"
           sDeviceToken := c.hget sUserId "device_token"
           sIPAddr := c.hget sUserId "cm_ip"
           nIPPort := UInt16.ofInt (CText.atoi (c.hget sUserId "cm_port"))
           sSessionId := c.hget sUserId "session_id" }
  else none

def updateUserRec (done : Bool) (now : Int) (sUserId : String) (rec : UserCache) : CLoginCache :=
  if done then
    c.hmset sUserId [("status", "1"), ("relogin", "1"), ("login_token", rec.sLoginToken),
      ("device_token", rec.sDeviceToken), ("cm_ip", rec.sIPAddr), ("cm_port", toString rec.nIPPort),
      ("relogin_time", toString now), ("session_id", rec.sSessionId)]
  else c

def insertUserRec (done : Bool) (now : Int) (sUserId : String) (rec : UserCache) : CLoginCache :=
  if done then
    c.hmset sUserId [("status", "1"), ("relogin", "0"), ("login_token", rec.sLoginToken),
      ("device_token", rec.sDeviceToken), ("cm_ip", rec.sIPAddr), ("cm_port", toString rec.nIPPort),
      ("relogin_time", toString now), ("login_time", toString now), ("session_id", rec.sSessionId)]
  else c

/-- `DelUserRec`, with whether there was a record to delete. -/
def delUserRec (done : Bool) (sUserId : String) : CLoginCache × Bool :=
  if done = true ∧ c.hashes sUserId ≠ [] then (c.del sUserId, true) else (c, false)

/-- `GetLoginInfo`. There is no record if a field is missing that the gateway needs to reach the
user. -/
def getLoginInfo (answered : Bool) (userId : String) : Option CLoginInfo :=
  if userId = "" ∨ answered = false ∨ c.hget userId "cm_ip" = "" ∨ c.hget userId "cm_port" = "" then
    none
  else
    some { sStatus := c.hget userId "status", sCmIp := c.hget userId "cm_ip",
           sCmPort := c.hget userId "cm_port" }

end CLoginCache

/-- The body of a packet, and what the JSON reader makes of it. -/
structure Body where
  strInput : String
  value : Option Json.Value

structure Pdu where
  commandId : UInt16
  sessionId : UidCode
  body : Body

def pcLogin : UInt16 := 0xb0d1
def pcLogout : UInt16 := 0xb0d5
def pcPcsynmessagetogw : UInt16 := 0xb0d7
def pcGwsynmessagetopcack : UInt16 := 0xb0dd
def pcHeartbeart : UInt16 := 0xb0e0

def nonErr : UInt32 := 0x8000
def errLoginAuth : UInt32 := 0x8101
def errCmAuthKickedout : UInt32 := 0x8110

def prefixPcStr : String := "PC_"
def prefixCmStr : String := "CM_"

/-- What is sent to PCs. -/
inductive PcMsg where
  | kitout (msgid registerid userid : String)
  | loginAck (msgid registerid userid : String) (errcode : UInt32)
  | heartBeartAck (strInput : String)
  deriving DecidableEq, Repr

/-- What is sent to the connection manager of an app. -/
inductive AppMsg where
  | gwSynMessageToApp (sfromid stoid : String) (synctype : UInt32) (msgid synmsg extended : String)
  | appSynMessageToGwAck (sfromid msgid : String)
  | checkAppActive (msgid sfromid : String) (time : Int)
  deriving DecidableEq, Repr

/-- What a handler does on behalf of a user: it closes his link, deletes his record, passes a
message on to the link of his connection manager, or wakes his app up. -/
inductive Act where
  | closeLink (userId : String) (l : LinkId)
  | delUserRec (userId : String)
  | sendReq (userId : String) (l : LinkId) (msg : AppMsg)
  | sendPush (userId msgId : String)
  deriving DecidableEq, Repr

def Act.userId : Act → String
  | .closeLink userId _ | .delUserRec userId | .sendReq userId _ _ | .sendPush userId _ => userId

/-- What a call of a web service comes to: no answer, one that is no JSON, or a value. -/
inductive HttpAnswer where
  | failed
  | garbage
  | json (root : Json.Value)

/-- What `getUserInfo` finds out; without an answer the tokens are empty. -/
structure UserInfo where
  pushType : Int := 0
  pushToken : String := ""
  voipToken : String := ""
  deriving DecidableEq, Repr

/-- What a handler gets from outside: what the memory of `auth.errCode` happens to hold, the
answers of the two web services, which commands of redis are carried out, the host of the gateway,
the time, and whether the push server can be reached. -/
structure Env where
  errCode : UInt32 := 0
  checkAuth : HttpAnswer := .failed
  userInfo : UserInfo := {}
  recordRead : Bool := true
  recordWritten : Bool := true
  recordDeleted : Bool := true
  loginInfoRead : Bool := true
  localHost : String × UInt16 := ("", 0)
  now : Int := 0
  ipush : Bool := true

structure PCLoginAuth where
  token : String
  regid : String
  sUserId : String
  errCode : UInt32
  deriving DecidableEq, Repr

/-- `CheckAuth`. The code is set only if there is an answer in JSON. -/
def checkAuth (auth : PCLoginAuth) : HttpAnswer → Option (Bool × PCLoginAuth)
  | .failed | .garbage => some (false, auth)
  | .json root => do
    let sReturnCode ← root.field "code"
    if sReturnCode = "200" then some (true, { auth with errCode := nonErr })
    else
      -- the message of the answer is logged
      let _ ← root.field "msg"
      if sReturnCode = "501" then some (false, { auth with errCode := errCmAuthKickedout })
      else some (false, { auth with errCode := errLoginAuth })

/-- How a login went: what was checked, what the acknowledgement says, and the link that was found
for the user. -/
structure LoginOutcome where
  auth : PCLoginAuth
  checked : Bool
  bound : Option LinkId
  deriving DecidableEq, Repr

/-- What a handler leaves: the links, the records, what was sent to PCs, what it did on behalf of
users, and for a login how it went. -/
structure Outcome where
  mgr : CClientLinkMgr
  cache : CLoginCache
  acks : List (UidCode × PcMsg) := []
  acts : List Act := []
  login : Option LoginOutcome := none

variable (m : CClientLinkMgr) (c : CLoginCache)

def sendAck (sessionId : UidCode) : CClientLinkMgr := m.visitSession sessionId

/-- `UpdateUserLink`, which the connection manager has word for word. -/
def updateUserLink (currentSessionId : UidCode) (sUserId : String) : CClientLinkMgr :=
  CTransimission.updateUserLink m currentSessionId sUserId

/-- The PC that has the user is told to leave. The reference on its link is not given back. -/
def kitout (msgId registerId userId : String) : CClientLinkMgr × List (UidCode × PcMsg) :=
  match m.getLinkByUserId userId with
  | (m, none) => (m, [])
  | (m, some userLink) =>
    let sessionId := (m.links userLink).sessionId
    (sendAck m sessionId, [(sessionId, .kitout msgId registerId userId)])

def onLogin (pdu : Pdu) (env : Env) : Option Outcome :=
  match pdu.body.value with
  | none => some { mgr := m, cache := c }
  | some value => do
    let msgId ← value.field "msgid"
    let sToken ← value.field "token"
    let registerId ← value.field "registerid"
    let userId ← value.field "userid"
    let pcUserId := prefixPcStr ++ userId
    let record := c.getUserRecord env.recordRead pcUserId
    let (checked, auth) ← checkAuth
      { token := sToken, regid := registerId, sUserId := userId, errCode := env.errCode } env.checkAuth
    let ack : UidCode × PcMsg := (pdu.sessionId, .loginAck msgId registerId userId auth.errCode)
    if checked then
      let userCache := { record.getD {} with
        sLoginToken := sToken, sDeviceToken := registerId, sIPAddr := env.localHost.1,
        nIPPort := env.localHost.2 }
      let (m', kitouts, c') := match record with
        | some old =>
          let (m', kitouts) := kitout m msgId old.sDeviceToken userId
          (m', kitouts, c.updateUserRec env.recordWritten env.now pcUserId userCache)
        | none => (m, [], c.insertUserRec env.recordWritten env.now pcUserId userCache)
      some { mgr := sendAck (updateUserLink m' pdu.sessionId userId) pdu.sessionId
             cache := c'
             acks := kitouts ++ [ack]
             login := some { auth, checked, bound := m.sessionLink pdu.sessionId } }
    else
      some { mgr := sendAck m pdu.sessionId
             cache := c
             acks := [ack]
             login := some { auth, checked, bound := none } }

def onLogout (pdu : Pdu) (env : Env) : Option Outcome :=
  match pdu.body.value with
  | none => some { mgr := m, cache := c }
  | some value => do
    let _ ← value.field "msgid"
    let _ ← value.field "token"
    let _ ← value.field "registerid"
    let userId ← value.field "userid"
    let (m, closed) := match m.getLinkByUserId userId with
      | (m, some l) => ((m.closeLink l true).releaseRef l, [Act.closeLink userId l])
      | (m, none) => (m, [])
    let (c, deleted) := c.delUserRec env.recordDeleted (prefixPcStr ++ userId)
    some { mgr := m, cache := c, acts := closed ++ if deleted then [.delUserRec userId] else [] }

/-- `sendReq` to the server that has registered with a host. If there is none, nothing is sent and
nobody is told. -/
def sendReq (userId ip : String) (port : UInt16) (msg : AppMsg) : CClientLinkMgr × List Act :=
  match m.getLinkByHost ip port with
  | (m, some l) => (m.releaseRef l, [.sendReq userId l msg])
  | (m, none) => (m, [])

def apns : Int := 255
def apnsDev : Int := 254

def sendPush (env : Env) (toId msgId : String) : List Act :=
  let isApns := env.userInfo.pushType = apns ∨ env.userInfo.pushType = apnsDev
  let strPushToken := if isApns then env.userInfo.voipToken else env.userInfo.pushToken
  if strPushToken ≠ "" ∧ isApns ∧ env.ipush = true then [.sendPush toId msgId] else []

/-- The last lines of the handlers that pass something on: the app of `fromid` gets it from its
connection manager, or is woken up if it is not logged in. -/
def passOn (env : Env) (fromid msgid : String) (msg : AppMsg) : CClientLinkMgr × List Act :=
  match c.getLoginInfo env.loginInfoRead (prefixCmStr ++ fromid) with
  | none => (m, [])
  | some login =>
    if login.isLogin then sendReq m fromid login.sCmIp (UInt16.ofInt (CText.atoi login.sCmPort)) msg
    else (m, sendPush env fromid msgid)

def onPCSynMessageToGw (pdu : Pdu) (env : Env) : Option Outcome :=
  match pdu.body.value with
  | none => some { mgr := m, cache := c }
  | some value => do
    let fromid ← value.field "fromid"
    let toid ← value.field "toid"
    let synctype := (← value.get "synctype").intOr0 32
    let msgid ← value.field "msgid"
    let synmessage ← value.field "synmessage"
    let extend ← value.field "extend"
    let (m, acts) := passOn m c env fromid msgid
      (.gwSynMessageToApp fromid toid (UInt32.ofInt synctype) msgid synmessage extend)
    some { mgr := m, cache := c, acts }

def onGwSynMessageToPCAck (pdu : Pdu) (env : Env) : Option Outcome :=
  match pdu.body.value with
  | none => some { mgr := m, cache := c }
  | some value => do
    let fromid ← value.field "fromid"
    let msgid ← value.field "msgid"
    let (m, acts) := passOn m c env fromid msgid (.appSynMessageToGwAck fromid msgid)
    some { mgr := m, cache := c, acts }

/-- The acknowledgement goes to the session that the header names. -/
def onHeartBeat (pdu : Pdu) (env : Env) : Option Outcome :=
  match pdu.body.value with
  | none => some { mgr := m, cache := c }
  | some value => do
    let msgid ← value.field "msgid"
    let fromid ← value.field "fromid"
    let msgtime := (← value.get "time").intOr0 64
    let (m, acts) := passOn (sendAck m pdu.sessionId) c env fromid msgid
      (.checkAppActive msgid fromid msgtime)
    some { mgr := m, cache := c, acks := [(pdu.sessionId, .heartBeartAck pdu.body.strInput)], acts }

def onMessageFromPC (pdu : Pdu) (env : Env) : Option Outcome :=
  if pdu.commandId = pcLogin then onLogin m c pdu env
  else if pdu.commandId = pcLogout then onLogout m c pdu env
  else if pdu.commandId = pcPcsynmessagetogw then onPCSynMessageToGw m c pdu env
  else if pdu.commandId = pcGwsynmessagetopcack then onGwSynMessageToPCAck m c pdu env
  else if pdu.commandId = pcHeartbeart then onHeartBeat m c pdu env
  else some { mgr := m, cache := c }

end DesktopMsgTran

end ImServer
