import ImServer.Channel.ChannelDb
import ImServer.Lib.Prog

/-!
# The notifications of a channel

Each notification that `OnChannelNotify` and `OnChannelPushSetNotify` receive becomes a task of a
thread pool, which changes the redis data by several commands (channel/channel_notify.cpp). What a
task sends to the members is left out. The records of the login server do not change while a task
runs.
-/

namespace ImServer

open Login (Text RedisClient)
open Login.ChannelRedis (channelUserKey channelOfflineUserKey)

/-- `SVRRadioNotifyType`. -/
inductive NotifyType where
  | unknown
  | nameChanged
  | iconChanged
  | noticeChanged
  | memberQuit
  | memberRemove
  | apply
  | invite
  | masterChanged
  | adminSet
  | adminUnset
  | dismiss
  | nospeak
  | speaking
  | create
  | forbidInterfacingOn
  | forbidInterfacingOff
  deriving DecidableEq, Repr

/-- `SVRRadioMsgNotify`, as far as it changes data. -/
structure SVRRadioMsgNotify where
  radioId : String
  oprUserId : String
  mnpledUserId : List String := []
  notifyType : NotifyType
  deriving DecidableEq, Repr

/-- `SVRRadioPushSetNotifyType`. -/
inductive PushSetType where
  | newMsg
  | hideMsgSoundOn
  | isHide
  | undisturb
  deriving DecidableEq, Repr

structure SVRRadioPushSetNotify where
  userId : String
  radioId : String
  notifyType : PushSetType
  status : Nat
  deriving DecidableEq, Repr

/-- A task of the pool, with the notification that it handles. -/
inductive Notice where
  | relation (msg : SVRRadioMsgNotify)
  | pushSet (msg : SVRRadioPushSetNotify)
  deriving DecidableEq, Repr

namespace Notice

variable (client : RedisClient) (login : Redis)

/-- A command with a list of members, which is not sent for an empty list. -/
def withList (members : List Text) (f : List Text → ChannelDb → ChannelDb) :
    List (ChannelDb → ChannelDb) :=
  if members = [] then [] else [f members]

/-- The users of an invitation that are put into the set of online users. -/
def onlineUsers (users : List String) : List Text :=
  (((login.loginStatusList client users).getD []).filter (·.2 = 1)).map Prod.fst

/-- The commands that change data. -/
def updates (msg : SVRRadioMsgNotify) : List (ChannelDb → ChannelDb) :=
  let radioId := CText.bytes msg.radioId
  let oprUser := CText.bytes msg.oprUserId
  let members := msg.mnpledUserId.map CText.bytes
  let userKey := channelUserKey radioId
  let offlineKey := channelOfflineUserKey radioId
  let adminKey := ChannelDb.channelAdminKey radioId
  match msg.notifyType with
  | .memberQuit =>
    [(·.srem userKey oprUser), (·.srem offlineKey oprUser),
      (·.removeChannelToUser msg.oprUserId radioId)]
  | .apply =>
    (·.addChannelToUser msg.oprUserId radioId 0) ::
      if login.loginStatus msg.oprUserId = 0 then [] else [(·.sadd userKey oprUser)]
  | .memberRemove =>
    withList members (fun members db => db.sremList client userKey members) ++
      withList members (fun members db => db.sremList client offlineKey members) ++
        msg.mnpledUserId.map fun user (db : ChannelDb) => db.removeChannelToUser user radioId
  | .invite =>
    (msg.mnpledUserId.map fun user (db : ChannelDb) => db.addChannelToUser user radioId 0) ++
      withList (onlineUsers client login msg.mnpledUserId) fun users db =>
        db.saddList client userKey users
  | .dismiss => [(·.setChannelStatus radioId chnnDismiss)]
  | .create => [(·.setChannelInfo radioId ⟨chnnNormal, 0⟩), (·.sadd adminKey oprUser)]
  | .nospeak => [(·.setChannelSpeak radioId 1)]
  | .speaking => [(·.setChannelSpeak radioId 0)]
  | .adminSet => withList members fun members db => db.saddList client adminKey members
  | .adminUnset => withList members fun members db => db.sremList client adminKey members
  | .masterChanged =>
    withList members (fun members db => db.saddList client adminKey members) ++
      [fun (db : ChannelDb) => db.srem adminKey oprUser]
  | _ => []

def updateUserChannelInfo (msg : SVRRadioMsgNotify) : Prog ChannelDb Unit :=
  .writes (updates client login msg) (.done ())

/-- The sets of a channel are deleted after its dismissal, if it has online users. -/
def insertChannelNotifyToDataBase (msg : SVRRadioMsgNotify) : Prog ChannelDb Unit :=
  (updateUserChannelInfo client login msg).bind fun _ =>
    if msg.notifyType = .dismiss then
      let radioId := CText.bytes msg.radioId
      .read (fun db => decide (db.getChannelUser radioId = ∅)) fun empty =>
        if empty then .done ()
        else .writes [(·.del (channelUserKey radioId)), (·.del (channelOfflineUserKey radioId))]
          (.done ())
    else .done ()

/-- The new settings. What `getChannelSetOnStatus` reads is lost, since it takes its result
parameter by value, so that the other setting is cleared. -/
def setOn (msg : SVRRadioPushSetNotify) : Nat :=
  if msg.notifyType = .isHide then if msg.status ≠ 0 then 0x01 else 0x00
  else if msg.status ≠ 0 then 0x10 else 0x00

def setChannelPushStatus (msg : SVRRadioPushSetNotify) : Prog ChannelDb Unit :=
  let radioId := CText.bytes msg.radioId
  .read (·.getUserChannel msg.userId) fun _ =>
    .modify (·.addChannelToUser msg.userId radioId (setOn msg)) (.done ())

def prog : Notice → Prog ChannelDb Unit
  | .relation msg => insertChannelNotifyToDataBase client login msg
  | .pushSet msg => setChannelPushStatus msg

/-- A notification that nothing interrupts, which is how one thread alone would handle it. -/
def handle (db : ChannelDb) (notice : Notice) : ChannelDb :=
  ((notice.prog client login).alone db).2

end Notice

end ImServer
