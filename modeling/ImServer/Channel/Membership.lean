import ImServer.Channel.ChannelRolls
import ImServer.Login.Presence

/-!
# Members of channels

The channel server and the login server write the same sets and lists: the one when a notification
says that users join or leave a channel, the other when a user logs in or a session ends. Here both
work on one redis, and what they receive is handled one after another. A record of what was received
goes along; the servers do not see it.
-/

namespace ImServer

open Login (Text RedisClient ChannelMap ChannelRedis Http Task LoginCall)
open Login.ChannelRedis (channelUserKey channelOfflineUserKey isPush)

namespace ChannelDb

/-- The data as the login server uses it, which takes the ids for strings. -/
def redis (db : ChannelDb) : ChannelRedis where
  members key userId := decide (CText.bytes userId ∈ db.sets key)
  lists := db.lists

/-- The data after the login server has changed lists and the sets that a user is in. -/
def withRedis (db : ChannelDb) (userId : String) (c : ChannelRedis) : ChannelDb :=
  { db with
    sets := fun key =>
      if c.members key userId then insert (CText.bytes userId) (db.sets key)
      else (db.sets key).erase (CText.bytes userId)
    lists := c.lists }

/-- Nothing is lost, if the login server has moved this user only. -/
theorem redis_withRedis {db : ChannelDb} {userId : String} {c : ChannelRedis}
    (h : ∀ key u, u ≠ userId → c.members key u = db.redis.members key u) :
    (db.withRedis userId c).redis = c := by
  have hmembers : (db.withRedis userId c).redis.members = c.members := by
    funext key u
    rw [Bool.eq_iff_iff]
    simp only [redis, withRedis]
    by_cases hu : u = userId
    · subst hu
      split
      · next htrue => simp [htrue]
      · next hfalse => simp [hfalse]
    · have hbytes : CText.bytes u ≠ CText.bytes userId := fun heq => hu (bytes_inj.mp heq)
      rw [h key u hu]
      split
      · simp [redis, hbytes]
      · simp [redis, hbytes]
  cases c
  exact congrArg (ChannelRedis.mk · _) hmembers

end ChannelDb

/-- The users that a notification lets join the channel. -/
def SVRRadioMsgNotify.joins (msg : SVRRadioMsgNotify) : List String :=
  match msg.notifyType with
  | .apply => [msg.oprUserId]
  | .invite => msg.mnpledUserId
  | _ => []

/-- The users that a notification lets leave the channel. -/
def SVRRadioMsgNotify.leaves (msg : SVRRadioMsgNotify) : List String :=
  match msg.notifyType with
  | .memberQuit => [msg.oprUserId]
  | .memberRemove => msg.mnpledUserId
  | _ => []

/-- What was received so far. -/
structure Past where
  created : String → Bool := fun _ => false
  dismissed : String → Bool := fun _ => false
  /-- Whether the latest notification by which the user joins or leaves the channel is a join. -/
  joined : String → String → Option Bool := fun _ _ => none
  /-- Whether a session of the user ended when his settings let him be told about the channel while
  he is offline, since he last logged in or left the channel. -/
  told : String → String → Bool := fun _ _ => false
  /-- Users whose session was ended by a handler that leaves them in their sets. -/
  unmoved : String → Bool := fun _ => false

structure Site where
  cache : Redis := {}
  db : ChannelDb := {}
  past : Past := {}

namespace Site

variable (client : RedisClient) (s : Site)

def LoggedIn (u : String) : Prop := s.cache.loginStatus u = 1

def Listed (c u : String) : Prop := CText.bytes c ∈ (s.db.getUserChannel u).ids

def Online (c u : String) : Prop := CText.bytes u ∈ s.db.getChannelUser (CText.bytes c)

def Offline (c u : String) : Prop := CText.bytes u ∈ s.db.getChannelOfflineUser (CText.bytes c)

instance (u : String) : Decidable (s.LoggedIn u) := inferInstanceAs (Decidable (_ = _))

instance (c u : String) : Decidable (s.Listed c u) := inferInstanceAs (Decidable (_ ∈ _))

instance (c u : String) : Decidable (s.Online c u) := inferInstanceAs (Decidable (_ ∈ _))

instance (c u : String) : Decidable (s.Offline c u) := inferInstanceAs (Decidable (_ ∈ _))

/-- The login server, before it gets a call, with the cache and the redis data of the site. -/
def server : Login.Server := ⟨s.cache, s.db.redis, []⟩

def notedPast (msg : SVRRadioMsgNotify) : Past where
  created :=
    if msg.notifyType = .create then Function.update s.past.created msg.radioId true
    else s.past.created
  dismissed :=
    if msg.notifyType = .dismiss then Function.update s.past.dismissed msg.radioId true
    else s.past.dismissed
  joined c u :=
    if c = msg.radioId ∧ u ∈ msg.joins then some true
    else if c = msg.radioId ∧ u ∈ msg.leaves then some false
    else s.past.joined c u
  told c u := if c = msg.radioId ∧ u ∈ msg.leaves then false else s.past.told c u
  unmoved := s.past.unmoved

/-- The settings that are kept for the user and, with the channel, on his list let him be told. -/
def allowsPush (cache : Redis) (c u : String) : Bool :=
  (s.db.getUserChannel u).any fun item =>
    item.1 = CText.bytes c &&
      isPush (cache.getMsgPushStatus (Redis.cmKey u)).1 (cache.getMsgPushStatus (Redis.cmKey u)).2 item.2

/-- `handled` is the login server after the handler and before its tasks. -/
def calledPast (userId : String) (handled : Login.Server) : Past :=
  let entered := handled.tasks.contains (.addLoginCacheInfo userId)
  let removed := handled.tasks.contains (.removeLoginCacheInfo userId)
  { s.past with
    told := fun c u =>
      if u = userId then !entered && (s.past.told c u || removed && s.allowsPush handled.cache c u)
      else s.past.told c u
    unmoved := Function.update s.past.unmoved userId
      (!entered && !removed && (s.past.unmoved userId ||
        s.LoggedIn userId && handled.cache.loginStatus userId ≠ 1)) }

/-- The site after a call, whose tasks have run. -/
def called (userId : String) (handled server : Login.Server) : Site where
  cache := server.cache
  db := s.db.withRedis userId server.channels
  past := s.calledPast userId handled

inductive Event where
  | notice (msg : SVRRadioMsgNotify)
  /-- A call and the answers that its tasks get. -/
  | call (call : LoginCall) (http : Task → Http)

def step : Event → Option Site
  | .notice msg =>
    some { s with
      db := (Notice.relation msg).handle client s.cache s.db
      past := s.notedPast msg }
  | .call call http =>
    let handled := call.handle s.server
    (handled.runTasks client http).map fun server => s.called call.userId handled server

end Site

end ImServer
