import ImServer.Base.ClientLink

/-!
# The packet handlers of the connection manager

`CTransimission` (cm/transmission.cpp) registers an executor for each command it
knows. A packet of a client or of a server is queued by `DispatchPacket` and its
executor looks up the links it is about, by the session id of the header, by the
host of a login result or by a user id. Each look-up takes a reference on the link
and the handler gives it back.

A body is represented by what the executor of its command parses from it. What a
handler sends to clients is not kept; what it hands to a back-end server is its
second result.
-/

namespace ImServer

namespace CClientLinkMgr

variable (m : CClientLinkMgr)

def getLinkBySessionId (sid : UidCode) : CClientLinkMgr × Option LinkId :=
  match m.sessionLink sid with
  | some l => (m.addRef l, some l)
  | none => (m, none)

def getLinkByUserId (user : String) : CClientLinkMgr × Option LinkId :=
  if user = "" then (m, none)
  else
    match m.userLink user with
    | some l => (m.addRef l, some l)
    | none => (m, none)

/-- A link is looked up by its session id, used and given back. -/
def visitSession (sid : UidCode) : CClientLinkMgr :=
  match m.getLinkBySessionId sid with
  | (m, some l) => m.releaseRef l
  | (m, none) => m

end CClientLinkMgr

namespace CTransimission

inductive LoginResultType where
  | loginAck
  | loginKickout
  | other
  deriving DecidableEq, Repr

/-- The message `OnLoginResult` of the login server. -/
structure LoginResult where
  sUserId : String
  sHost : String
  type : LoginResultType
  nErr : Nat
  deriving DecidableEq, Repr

/-- The message in the body of a packet: `CMLoginTrans` with the host its sender wrote,
a login result, `LoginCMNotify`, or a message with the user it is addressed to.
Bodies that do not parse are `invalid`. -/
inductive Body where
  | loginTrans (sHost : String)
  | loginResult (res : LoginResult)
  | loginCMNotify (sUserId : String)
  | addressed (sUserId : String)
  | invalid
  deriving DecidableEq, Repr

structure Pdu where
  commandId : UInt16
  sessionId : UidCode
  body : Body
  deriving DecidableEq, Repr

def nonErr : Nat := 0x8000

def prefixCmStr : String := "CM_"

def systemHeartbeat : UInt16 := 0x3001
def systemTimeoutNotification : UInt16 := 0x3004
def systemPing : UInt16 := 0x3007
def cmLogin : UInt16 := 0xa001
def cmLogoutAck : UInt16 := 0xa004
def cmLoginTrans : UInt16 := 0xa015
def svrLoginResult : UInt16 := 0xa025
def pcLogin : UInt16 := 0xb0d1

inductive Executor where
  | onCloseLink
  | onCmLoginNotifyAck
  | onLoginTrans
  | onLoginCMNotify
  | onLoginResult
  | onMsgTrans
  | onClientTrans
  | onClientExange
  | onChannelTrans
  | onDesktopTrans
  deriving DecidableEq, Repr

/-- The commands of three executors in the order in which they are registered. -/
def msgTransCommands : List UInt16 :=
  [0xb001, 0xb003, 0xb007, 0xb011, 0xb015, 0xb013, 0xb017, 0xb009, 0xb019, 0xb005, 0xb033,
   0xb037, 0xb059, 0xb061, 0xb063, 0xb067, 0xb073, 0xb077, 0xb081, 0xb053, 0xb091, 0xb093,
   0xb095, 0xb097, 0xb099, 0xb0a1, 0xb0a5, 0xb0a7, 0xb0b1, 0xb0b3, 0xb0c3, 0xc001, 0xc023]

def clientTransCommands : List UInt16 :=
  [0xb002, 0xb008, 0xb012, 0xb014, 0xb016, 0xb018, 0xb01a, 0xb044, 0xb006, 0xb042, 0xb038,
   0xb060, 0xb078, 0xc002, 0xc024, 0xb092, 0xb096, 0xb0a0, 0xb0a6, 0xb0b2, 0xa002, 0xa004,
   0xa006, 0xc102, 0xc106, 0xc112]

def clientExangeCommands : List UInt16 :=
  [0xb004, 0xb00a, 0xb034, 0xb062, 0xb064, 0xb068, 0xb074, 0xb082, 0xb054, 0xb094, 0xb098,
   0xb0a2, 0xb0a8, 0xb0b4, 0xb0c4, 0xc104, 0xc108, 0xc110, 0xc114, 0xb0d8, 0xb0de, 0xb0e2, 0xb0e5]

/-- `RegistPacketExecutor`: no command is registered twice. -/
def packetExecutor (cmd : UInt16) : Option Executor :=
  if cmd = systemTimeoutNotification then some .onCloseLink
  else if cmd = 0xa012 then some .onCmLoginNotifyAck
  else if cmd ∈ [cmLogin, 0xa003, 0xa005] then some .onLoginTrans
  else if cmd = 0xa013 then some .onLoginCMNotify
  else if cmd = svrLoginResult then some .onLoginResult
  else if cmd ∈ msgTransCommands then some .onMsgTrans
  else if cmd ∈ clientTransCommands then some .onClientTrans
  else if cmd ∈ clientExangeCommands then some .onClientExange
  else if cmd ∈ [0xc101, 0xc105, 0xc111] then some .onChannelTrans
  else if cmd ∈ [0xb0d9, 0xb0db, 0xb0e3] then some .onDesktopTrans
  else none

/-- The back-end servers that packets are handed to. -/
inductive Service where
  | login
  | msg
  | channel
  | desktop
  deriving DecidableEq, Repr

variable (m : CClientLinkMgr)

/-- `SendPdu` to a user: whether there is a link to send on. -/
def sendPduToUser (user : String) : CClientLinkMgr × Bool :=
  match m.getLinkByUserId user with
  | (m, some l) => (m.releaseRef l, true)
  | (m, none) => (m, false)

def sendAck (sid : UidCode) : CClientLinkMgr := m.visitSession sid

/-- The last lines of the handlers that close the link of a user. -/
def closeUserLink (user : String) : CClientLinkMgr :=
  match m.getLinkByUserId user with
  | (m, some l) => (m.closeLink l true).releaseRef l
  | (m, none) => m

/-- `GetUserId`, which has a case for each command of the two executors that call it. -/
def getUserId (pdu : Pdu) : Option String :=
  match pdu.body with
  | .addressed sUserId => some (prefixCmStr ++ sUserId)
  | _ => none

def onClientTrans (pdu : Pdu) : CClientLinkMgr :=
  match getUserId pdu with
  | none => m
  | some user =>
    match sendPduToUser m user with
    | (m, false) => m
    | (m, true) => if pdu.commandId = cmLogoutAck then closeUserLink m user else m

def onClientExange (pdu : Pdu) : CClientLinkMgr :=
  match getUserId pdu with
  | none => m
  | some user => (sendPduToUser m user).1

/-- The packet is handed to `service` if the session id of its header leads to a link
with a user. -/
def transTo (service : Service) (pdu : Pdu) : CClientLinkMgr × Option (Service × Pdu) :=
  match m.getLinkBySessionId pdu.sessionId with
  | (m, none) => (m, none)
  | (m, some l) =>
    if (m.links l).userId = "" then (m.releaseRef l, none)
    else (m.releaseRef l, some (service, pdu))

def onMsgTrans (pdu : Pdu) : CClientLinkMgr × Option (Service × Pdu) := transTo m .msg pdu

def onChannelTrans (pdu : Pdu) : CClientLinkMgr × Option (Service × Pdu) := transTo m .channel pdu

def onDesktopTrans (pdu : Pdu) : CClientLinkMgr × Option (Service × Pdu) := transTo m .desktop pdu

/-- The host in a `CMLoginTrans` as the client sent it, and an empty text in other bodies. -/
def Body.sHost : Body → String
  | .loginTrans sHost => sHost
  | _ => ""

/-- `OnLoginTrans`: a login is passed on with the host of the link that its session id
leads to; the host written by the client stays if there is none. -/
def onLoginTrans (pdu : Pdu) : CClientLinkMgr × Option (Service × Pdu) :=
  if pdu.commandId = cmLogin then
    match m.getLinkBySessionId pdu.sessionId with
    | (m, some l) =>
      let strHost := (m.links l).peerHost
      (m.releaseRef l,
        some (.login, { pdu with commandId := cmLoginTrans, body := .loginTrans strHost }))
    | (m, none) =>
      (m, some (.login, { pdu with commandId := cmLoginTrans, body := .loginTrans pdu.body.sHost }))
  else transTo m .login pdu

/-- `UpdateUserLink`. When the user's link is the current link, the reference that
`GetLinkByUserId` took is not given back. -/
def updateUserLink (currentSessionId : UidCode) (sUserId : String) : CClientLinkMgr :=
  match m.getLinkBySessionId currentSessionId with
  | (m, none) => m
  | (m, some link) =>
    let m :=
      match m.getLinkByUserId sUserId with
      | (m, some userLink) =>
        if userLink ≠ link then (m.closeLink userLink true).releaseRef userLink else m
      | (m, none) => m
    (m.userArrived link sUserId).releaseRef link

def onCloseLink (pdu : Pdu) : CClientLinkMgr :=
  match m.getLinkBySessionId pdu.sessionId with
  | (m, none) => m
  | (m, some sessionLink) =>
    let (m, userLink) := m.getLinkByUserId (m.links sessionLink).userId
    let bUserLink := userLink = some sessionLink
    let m := (m.closeLink sessionLink bUserLink).releaseRef sessionLink
    match userLink with
    | some userLink => m.releaseRef userLink
    | none => m

def onLoginCMNotify (pdu : Pdu) : CClientLinkMgr :=
  match pdu.body with
  | .loginCMNotify sUserId => closeUserLink m (prefixCmStr ++ sUserId)
  | _ => m

/-- `OnLoginResult`. The session id of a host without one is uninitialised. -/
def onLoginResult (pdu : Pdu) (uninit : UidCode) : CClientLinkMgr :=
  match pdu.body with
  | .loginResult res =>
    let sessionId := m.getSessionByHost res.sHost uninit
    if res.type = .loginAck ∧ res.nErr = nonErr then
      sendAck (updateUserLink m sessionId (prefixCmStr ++ res.sUserId)) sessionId
    else
      let m := if res.type = .other then m else sendAck m sessionId
      match m.getLinkBySessionId sessionId with
      | (m, some l) => (m.closeLink l true).releaseRef l
      | (m, none) => m
  | _ => m

/-- `ProcPdu`: the links after a packet was processed, and what was handed to a server. -/
def procPdu (pdu : Pdu) (uninit : UidCode) : CClientLinkMgr × Option (Service × Pdu) :=
  match packetExecutor pdu.commandId with
  | some .onCloseLink => (onCloseLink m pdu, none)
  | some .onLoginTrans => onLoginTrans m pdu
  | some .onLoginCMNotify => (onLoginCMNotify m pdu, none)
  | some .onLoginResult => (onLoginResult m pdu uninit, none)
  | some .onMsgTrans => onMsgTrans m pdu
  | some .onClientTrans => (onClientTrans m pdu, none)
  | some .onClientExange => (onClientExange m pdu, none)
  | some .onChannelTrans => onChannelTrans m pdu
  | some .onDesktopTrans => onDesktopTrans m pdu
  | some .onCmLoginNotifyAck => (m, none)
  | none => (m, none)

end CTransimission

end ImServer
