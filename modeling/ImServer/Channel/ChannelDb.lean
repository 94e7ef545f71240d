import ImServer.Data.CacheConn
import ImServer.Login.LoginCache
import ImServer.Login.RedisManager
import Mathlib.Data.Finset.Basic

/-!
# The redis data of the channel server

The channel server keeps, in the redis that it shares with the login server, the list of the
channels of each user and, for each channel, the sets of its online users, of its offline users and
of its administrators, and a hash with its status and whether it is muted (channel/redisMgr.cpp).
Whether a user is online stands in the records of the login server.

Commands are atomic and succeed. Keys are cut to 127 bytes, and a list of members goes to the client
library as one format text. A text ends at its first NUL.
-/

namespace ImServer

open Login (Text ChannelMap RedisClient ChannelRedis)
open Login.ChannelRedis (keyOf userChannelKey channelUserKey channelOfflineUserKey)

/-- The fields of a channel that `hmget` finds; 0 stands for one that is not there. -/
structure ChannelInfo where
  status : Nat := 0
  unspeak : Nat := 0
  deriving DecidableEq, Repr

def chnnNormal : Nat := 2

def chnnDismiss : Nat := 3

structure ChannelDb where
  sets : Text → Finset Text := fun _ => ∅
  lists : Text → ChannelMap := fun _ => []
  infos : Text → ChannelInfo := fun _ => {}

namespace ChannelDb

variable (client : RedisClient) (db : ChannelDb)

def updateSet (key : Text) (f : Finset Text → Finset Text) : ChannelDb :=
  { db with sets := Function.update db.sets key (f (db.sets key)) }

def updateList (key : Text) (f : ChannelMap → ChannelMap) : ChannelDb :=
  { db with lists := Function.update db.lists key (f (db.lists key)) }

def updateInfo (key : Text) (f : ChannelInfo → ChannelInfo) : ChannelDb :=
  { db with infos := Function.update db.infos key (f (db.infos key)) }

def sadd (key member : Text) : ChannelDb := db.updateSet key (insert member)

def srem (key member : Text) : ChannelDb := db.updateSet key (·.erase member)

/-- The key and the members of a command that is given as one text. -/
def listWords (name : String) (key : Text) (members : List Text) : Text × List Text :=
  match client.args (Cache.listText name key members) with
  | some (_ :: key :: words) => (key, words)
  | _ => (key, [])

def saddList (key : Text) (members : List Text) : ChannelDb :=
  let (key, words) := listWords client "SADD" key members
  db.updateSet key (· ∪ words.toFinset)

def sremList (key : Text) (members : List Text) : ChannelDb :=
  let (key, words) := listWords client "SREM" key members
  db.updateSet key (· \ words.toFinset)

def del (key : Text) : ChannelDb := db.updateSet key fun _ => ∅

def zadd (key member : Text) (score : Nat) : ChannelDb :=
  db.updateList key (ChannelMap.insertAt true member score)

def zrem (key member : Text) : ChannelDb := db.updateList key (·.filter (·.1 ≠ member))

def channelAdminKey (radioId : Text) : Text := keyOf "CHNN_ADMIN_" (CText.cStr radioId)

def channelInfoKey (radioId : Text) : Text := keyOf "CHNN_INFO_" (CText.cStr radioId)

def loginInfoKey (userId : String) : Text := keyOf "CM_" (CText.cStr (CText.bytes userId))

def getChannelInfo (radioId : Text) : ChannelInfo := db.infos (channelInfoKey radioId)

def setChannelInfo (radioId : Text) (info : ChannelInfo) : ChannelDb :=
  db.updateInfo (channelInfoKey radioId) fun _ => info

def setChannelStatus (radioId : Text) (status : Nat) : ChannelDb :=
  db.updateInfo (channelInfoKey radioId) fun info => { info with status := status }

def setChannelSpeak (radioId : Text) (unspeak : Nat) : ChannelDb :=
  db.updateInfo (channelInfoKey radioId) fun info => { info with unspeak := unspeak }

def getChannelAdmin (radioId : Text) : Finset Text := db.sets (channelAdminKey radioId)

def getChannelUser (radioId : Text) : Finset Text := db.sets (channelUserKey radioId)

def getChannelOfflineUser (radioId : Text) : Finset Text := db.sets (channelOfflineUserKey radioId)

def getUserChannel (userId : String) : ChannelMap := db.lists (userChannelKey userId)

def addChannelToUser (userId : String) (radioId : Text) (status : Nat) : ChannelDb :=
  db.zadd (userChannelKey userId) radioId status

def removeChannelToUser (userId : String) (radioId : Text) : ChannelDb :=
  db.zrem (userChannelKey userId) radioId

end ChannelDb

/-- The text that bytes encode, and none if they are not UTF-8. -/
def textOf (bytes : Text) : Option String := String.fromUTF8? bytes.toByteArray

theorem textOf_bytes (text : String) : textOf (CText.bytes text) = some text := by
  have hbytes : (CText.bytes text).toByteArray = text.toByteArray := by
    rw [← String.utf8Encode_toList]
    rfl
  rw [textOf, hbytes, String.fromUTF8?, dif_pos text.isValidUTF8]
  rfl

def RedisField.name : RedisField → String
  | .cmIp => "cm_ip"
  | .cmPort => "cm_port"
  | .status => "status"
  | .loginToken => "login_token"
  | .deviceToken => "device_token"
  | .relogin => "relogin"
  | .loginTime => "login_time"
  | .reloginTime => "relogin_time"
  | .sessionId => "session_id"
  | .pushType => "push_type"
  | .pushToken => "push_token"
  | .isNewMsg => "is_newmsg"
  | .hideMsgOn => "hidemsg_on"
  | .subscriber => "subscriber"

def RedisField.all : List RedisField :=
  [.cmIp, .cmPort, .status, .loginToken, .deviceToken, .relogin, .loginTime, .reloginTime, .sessionId,
    .pushType, .pushToken, .isNewMsg, .hideMsgOn, .subscriber]

namespace Redis

variable (client : RedisClient) (login : Redis)

/-- The value of a field, as `hmget` returns it; one that is not there is empty. -/
def fieldAt (key : Text) (field : RedisField) : String :=
  (((textOf key).bind login.hash).bind fun h => h field).getD ""

/-- `getUserLoginInfo`: the status. -/
def loginStatus (userId : String) : Int :=
  CText.atoi (login.fieldAt (ChannelDb.loginInfoKey userId) .status)

/-- The fields that `getUserLoginInfoList` asks for. -/
def loginInfoFields : List RedisField := [.status, .cmIp, .cmPort, .pushType, .pushToken]

/-- The value of the first field of one key in `hmgetAllBykeys`; none if the client library does
not accept the text. -/
def firstField (key : Text) : Option String :=
  (client.args (Cache.hmgetText (loginInfoFields.map fun f => CText.bytes f.name) key)).map fun words =>
    match words with
    | _ :: key :: field :: _ =>
      (RedisField.all.find? fun f => CText.bytes f.name = field).elim "" (login.fieldAt key)
    | _ => ""

/-- The user id in a key: what follows the last underscore. -/
def userOfKey (key : Text) : Text := (key.reverse.takeWhile (· ≠ 95)).reverse

/-- `getUserLoginInfoList`: each user id and status. -/
def loginStatusList (users : List String) : Option (List (Text × Int)) :=
  (users.map ChannelDb.loginInfoKey).dedup.mapM fun key =>
    (login.firstField client key).map fun status => (userOfKey key, CText.atoi status)

end Redis

end ImServer
