import ImServer.Login.LoginCache

/-!
# The handlers of the login server

Logins, logouts and notifications as functions of the login cache (login/loginHandle.cpp).
Their messages are given by the fields that the handlers read; a text ends at its first
NUL, so that converting it with `c_str` changes nothing. What the user center answers, the
clock and the numbers of an uninitialised record come from the environment.
-/

namespace ImServer

namespace Login

open Redis

inductive ErrCode where
  | nonErr
  | errLoginForbidden
  | errCmPhpAuth
  | errCmAuthKickedout
  | errLoginAuth
  deriving DecidableEq, Repr

structure CMLoginTrans where
  userId : String
  loginToken : String
  deviceToken : String
  pushType : UInt32 := 0
  pushToken : String := ""
  loginIp : String
  loginPort : UInt32
  host : String
  deriving DecidableEq, Repr

/-- `CMLoginNotify`; `CMLOGIN_CLOSELINK` is its type 0. -/
structure CMLoginNotify where
  userId : String
  ip : String
  port : UInt32
  notifyType : Nat := 0
  host : String
  deriving DecidableEq, Repr

/-- `CMPHPLoginNotify`, as far as it is read. -/
structure CMPHPLoginNotify where
  userId : String
  deviceToken : String
  loginType : Nat
  deriving DecidableEq, Repr

def phpNotifyTypeLogin : Nat := 1

def phpNotifyTypeLogout : Nat := 2

structure CMPushTokenSync where
  userId : String
  pushType : UInt32
  pushToken : String
  deriving DecidableEq, Repr

/-- What a handler does not find in its message or in redis. -/
structure Env where
  /-- The code of the user center, or `none` if the url is not configured, the request
  fails or the answer cannot be parsed. -/
  answer : Option String := none
  /-- `m_nCheckInterval`. -/
  checkInterval : Int := 0
  /-- The time at which the interval is checked. -/
  checkTime : Nat := 0
  /-- The time at which the record is written. -/
  now : Nat := 0
  uninit : UserCache := {}

/-- The message that `Kickout` sends, and the CM server it goes to. -/
structure KickoutMsg where
  userId : String
  host : String
  ip : String
  port : UInt16
  deriving DecidableEq, Repr

structure LoginResult where
  redis : Redis
  err : ErrCode
  newLogin : Bool := false
  kickout : Option KickoutMsg := none

def verifyDeviceToken (token : String) : Bool := token ≠ ""

def checkCacheDevice (device cacheDevice : String) : Bool := device = cacheDevice

/-- `CheckAuth`; it is successful if the error code is `nonErr`. -/
def checkAuth : Option String → ErrCode
  | none => .errCmPhpAuth
  | some code =>
    if code = "200" then .nonErr
    else if code = "501" then .errCmAuthKickedout
    else .errLoginAuth

/-- Whether the last check of the user is recent enough. -/
def checkAuthInterval (env : Env) (rec : UserCache) (token : String) : Bool :=
  if token ≠ rec.loginToken then false
  else
    let preTime :=
      if rec.relogin ≠ 0 then CText.atoi rec.reloginTime else CText.atoi rec.loginTime
    if env.checkTime - preTime ≥ env.checkInterval then false else true

/-- The record that `SaveUserInfo` and `UpdateUserInfo` fill in. -/
def userCacheOfLogin (login : CMLoginTrans) : UserCache where
  status := 1
  ipAddr := login.loginIp
  ipPort := login.loginPort.toUInt16
  loginToken := login.loginToken
  deviceToken := login.deviceToken
  sessionId := login.host
  pushType := login.pushType.toUInt16
  pushToken := login.pushToken

def saveUserInfo (r : Redis) (login : CMLoginTrans) (now : Nat) : Redis :=
  let r := r.insertUserRec (cmKey login.userId) (userCacheOfLogin login) now
  let r := r.delDeviceRec (cmdtKey login.deviceToken)
  r.insertDeviceRec (cmdtKey login.deviceToken) login.userId

def updateUserInfo (r : Redis) (login : CMLoginTrans) (cacheDevice : String) (now : Nat) : Redis :=
  let r := r.updateUserRec (cmKey login.userId) (userCacheOfLogin login) now
  let r :=
    if checkCacheDevice cacheDevice login.deviceToken then r
    else r.delDeviceRec (cmdtKey cacheDevice)
  r.insertDeviceRec (cmdtKey login.deviceToken) login.userId

/-- `Kickout`. -/
def kickoutMsg (userId : String) (rec : UserCache) : KickoutMsg :=
  ⟨userId, rec.sessionId, rec.ipAddr, rec.ipPort⟩

/-- The result of the check that a login with the cached record `rec` needs. -/
def relogAuth (env : Env) (login : CMLoginTrans) (rec : UserCache) : ErrCode :=
  if login.deviceToken ≠ rec.deviceToken ∨ checkAuthInterval env rec login.loginToken = false then
    checkAuth env.answer
  else .nonErr

def onLogin (env : Env) (r : Redis) (login : CMLoginTrans) : LoginResult :=
  if login.userId = "" then ⟨r, .errLoginForbidden, false, none⟩
  else if verifyDeviceToken login.deviceToken = false then ⟨r, .errLoginForbidden, false, none⟩
  else
    match r.getUserRecord (cmKey login.userId) env.uninit with
    | some rec =>
      let err := relogAuth env login rec
      if err ≠ .nonErr then ⟨r, err, false, none⟩
      else
        { redis := updateUserInfo r login rec.deviceToken env.now
          err := .nonErr
          kickout :=
            if rec.status ≠ 0 ∧ checkCacheDevice login.deviceToken rec.deviceToken = false then
              some (kickoutMsg login.userId rec)
            else none }
    | none =>
      let err := checkAuth env.answer
      if err ≠ .nonErr then ⟨r, err, false, none⟩
      else ⟨saveUserInfo r login env.now, .nonErr, true, none⟩

/-- A device token up to its first colon. -/
def devicePrefix (token : String) : String := String.ofList (token.toList.takeWhile (· ≠ ':'))

def onLogout (env : Env) (r : Redis) (userId : String) : Redis :=
  match r.getUserRecord (cmKey userId) env.uninit with
  | some rec => (r.delUserRec (cmKey userId)).delDeviceRec (cmdtKey (devicePrefix rec.deviceToken))
  | none => r

/-- The record is online, on the link that the notification is about. -/
def CMLoginNotify.Matches (notify : CMLoginNotify) (rec : UserCache) : Prop :=
  notify.ip = rec.ipAddr ∧ notify.port.toNat = rec.ipPort.toNat ∧ rec.status = 1 ∧
    notify.host = rec.sessionId

instance (notify : CMLoginNotify) (rec : UserCache) : Decidable (notify.Matches rec) :=
  inferInstanceAs (Decidable (_ ∧ _))

/-- The user cache after `OnCmLoginNotify`, and whether `removeLoginCacheInfo` is to run. -/
def onCmLoginNotify (env : Env) (r : Redis) (notify : CMLoginNotify) : Redis × Bool :=
  match r.getUserRecord (cmKey notify.userId) env.uninit with
  | some rec =>
    if notify.notifyType = 0 ∧ notify.Matches rec then
      (r.setUserStatus (cmKey notify.userId) false, true)
    else (r, false)
  | none => (r, false)

structure PHPNotifyResult where
  redis : Redis
  kickout : Option KickoutMsg := none
  /-- The CM server that is told to close the link of the user. -/
  closeLink : Option (String × UInt16) := none

def onPHPLoginNotify (env : Env) (r : Redis) (notify : CMPHPLoginNotify) : PHPNotifyResult :=
  match r.getUserRecord (cmKey notify.userId) env.uninit with
  | some rec =>
    if notify.loginType = phpNotifyTypeLogin then
      if rec.deviceToken ≠ notify.deviceToken then
        { redis := (r.delUserRec (cmKey notify.userId)).delDeviceRec (cmdtKey notify.deviceToken)
          kickout := if rec.status = 1 then some (kickoutMsg notify.userId rec) else none }
      else { redis := r }
    else if notify.loginType = phpNotifyTypeLogout then
      let r := r.setUserStatus (cmKey notify.userId) false
      { redis := (r.delUserRec (cmKey notify.userId)).delDeviceRec (cmdtKey notify.deviceToken)
        closeLink := some (rec.ipAddr, rec.ipPort) }
    else { redis := r }
  | none => { redis := r }

def onPushTokenSync (r : Redis) (sync : CMPushTokenSync) : Redis :=
  if sync.pushType ≠ 0 ∧ sync.pushToken ≠ "" then
    r.setPushTypeAndToken (cmKey sync.userId) (toString sync.pushType.toNat) sync.pushToken
  else r

end Login

end ImServer
