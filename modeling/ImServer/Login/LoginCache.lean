import Mathlib.Logic.Function.Basic
import ImServer.Lib.CText

/-!
# The login cache

The login server keeps a redis hash for each user and one for each device
(login/loginCache.cpp). The commands are taken as atomic updates that succeed. A key that
is to expire is marked; a run of the model is shorter than the time that is left to it.
Times and the numbers that a record leaves uninitialised are arguments.
-/

namespace ImServer

/-- `sRedisFields`, as far as they are used, and `sDeviceUserFields`. -/
inductive RedisField where
  | cmIp
  | cmPort
  | status
  | loginToken
  | deviceToken
  | relogin
  | loginTime
  | reloginTime
  | sessionId
  | pushType
  | pushToken
  | isNewMsg
  | hideMsgOn
  | subscriber
  deriving DecidableEq, Repr

abbrev RedisHash := RedisField → Option String

/-- The fields that `hmset` takes. -/
abbrev RedisFields := List (RedisField × String)

def RedisHash.set (h : RedisHash) (fields : RedisFields) : RedisHash := fun f =>
  (fields.lookup f).or (h f)

structure Redis where
  hash : String → Option RedisHash := fun _ => none
  expires : String → Bool := fun _ => false

/-- `UserCache_t`. -/
structure UserCache where
  status : UInt8 := 0
  relogin : UInt8 := 0
  ipPort : UInt16 := 0
  ipAddr : String := ""
  loginToken : String := ""
  deviceToken : String := ""
  reloginTime : String := ""
  loginTime : String := ""
  sessionId : String := ""
  pushType : UInt16 := 0
  pushToken : String := ""
  deriving DecidableEq, Repr

namespace Redis

variable (r : Redis)

def hmset (key : String) (fields : RedisFields) : Redis :=
  { r with
    hash := Function.update r.hash key (some (((r.hash key).getD fun _ => none).set fields)) }

def del (key : String) : Redis :=
  { hash := Function.update r.hash key none, expires := Function.update r.expires key false }

def expire (key : String) : Redis := { r with expires := Function.update r.expires key true }

def persist (key : String) : Redis := { r with expires := Function.update r.expires key false }

/-- What `GetUserRecord` makes of the fields it got. -/
def userCacheOf (uninit : UserCache) (h : RedisHash) : UserCache where
  status := (h .status).elim uninit.status fun v => UInt8.ofInt (CText.atoi v)
  relogin := (h .relogin).elim uninit.relogin fun v => UInt8.ofInt (CText.atoi v)
  ipPort := (h .cmPort).elim uninit.ipPort fun v => UInt16.ofInt (CText.atoi v)
  ipAddr := (h .cmIp).getD ""
  loginToken := (h .loginToken).getD ""
  deviceToken := (h .deviceToken).getD ""
  reloginTime := (h .reloginTime).getD ""
  loginTime := (h .loginTime).getD ""
  sessionId := (h .sessionId).getD ""
  pushType := (h .pushType).elim uninit.pushType fun v => UInt16.ofInt (CText.atoi v)
  pushToken := (h .pushToken).getD ""

/-- `GetUserRecord`; `uninit` has the numbers of a record that is not initialised. -/
def getUserRecord (key : String) (uninit : UserCache) : Option UserCache :=
  (r.hash key).map (userCacheOf uninit)

def setUserStatus (key : String) (status : Bool) : Redis :=
  let r := r.hmset key [(.status, if status then "1" else "0")]
  if status then r.persist key else r.expire key

/-- The fields of a login that `UpdateUserRec` and `InsertUserRec` have in common. -/
def loginFields (rec : UserCache) (relogin : String) (now : Nat) : RedisFields :=
  [(.status, "1"), (.relogin, relogin), (.loginToken, rec.loginToken),
    (.deviceToken, rec.deviceToken), (.cmIp, rec.ipAddr), (.cmPort, toString rec.ipPort.toNat),
    (.reloginTime, toString now), (.sessionId, rec.sessionId)]

/-- Push fields are set only if the login has them. -/
def pushFields (rec : UserCache) : RedisFields :=
  (if rec.pushType ≠ 0 then [(.pushType, toString rec.pushType.toNat)] else []) ++
    if rec.pushToken ≠ "" then [(.pushToken, rec.pushToken)] else []

def updateUserRec (key : String) (rec : UserCache) (now : Nat) : Redis :=
  (r.hmset key (loginFields rec "1" now ++ pushFields rec)).persist key

def insertUserRec (key : String) (rec : UserCache) (now : Nat) : Redis :=
  (r.hmset key (loginFields rec "0" now ++ [(.loginTime, toString now)] ++ pushFields rec)).persist
    key

def delUserRec (key : String) : Redis := r.del key

def setPushTypeAndToken (key type token : String) : Redis :=
  r.hmset key [(.pushType, type), (.pushToken, token)]

def setIsNewMsgStatus (key : String) (status : Bool) : Redis :=
  r.hmset key [(.isNewMsg, if status then "1" else "0")]

def setHideMsgOnStatus (key : String) (status : Bool) : Redis :=
  r.hmset key [(.hideMsgOn, if status then "1" else "0")]

/-- `GetMsgPushStatus`: new messages, and hidden sound. -/
def getMsgPushStatus (key : String) : Bool × Bool :=
  let value (f : RedisField) : String := ((r.hash key).bind fun h => h f).getD ""
  (CText.atoi (value .isNewMsg) ≠ 0, CText.atoi (value .hideMsgOn) ≠ 0)

def insertDeviceRec (key user : String) : Redis := r.hmset key [(.subscriber, user)]

def delDeviceRec (key : String) : Redis := r.del key

/-- The key of a user. -/
def cmKey (user : String) : String := "CM_" ++ user

/-- The key of a device. -/
def cmdtKey (token : String) : String := "CMDT_" ++ token

theorem cmKey_inj {user user' : String} : cmKey user = cmKey user' ↔ user = user' := by
  simp [cmKey, String.append_right_inj]

theorem cmdtKey_inj {token token' : String} : cmdtKey token = cmdtKey token' ↔ token = token' := by
  simp [cmdtKey, String.append_right_inj]

theorem cmKey_ne_cmdtKey (user token : String) : cmKey user ≠ cmdtKey token := by
  intro h
  have htext := congrArg String.toList h
  simp [cmKey, cmdtKey] at htext

variable {r} {key key' : String}

@[simp] theorem hmset_self (fields : RedisFields) :
    (r.hmset key fields).hash key = some (((r.hash key).getD fun _ => none).set fields) :=
  Function.update_self ..

@[simp] theorem hmset_of_ne (fields : RedisFields) (h : key' ≠ key) :
    (r.hmset key fields).hash key' = r.hash key' := Function.update_of_ne h ..

@[simp] theorem del_self : (r.del key).hash key = none := Function.update_self ..

@[simp] theorem del_of_ne (h : key' ≠ key) : (r.del key).hash key' = r.hash key' :=
  Function.update_of_ne h ..

@[simp] theorem expire_hash : (r.expire key).hash = r.hash := rfl

@[simp] theorem persist_hash : (r.persist key).hash = r.hash := rfl

end Redis

end ImServer
