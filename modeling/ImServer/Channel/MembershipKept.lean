import ImServer.Channel.Membership

/-!
# Members are where notifications and logins put them

Every event restores the relation between the lists of the users, the sets of the channels and what
was received. A notification changes the places of the users it names, a call of a handler those of
its user.
-/

namespace ImServer

open Login (Text RedisClient Http Task LoginCall ShortLists ShortHttp)
open Login.ChannelRedis (channelUserKey channelOfflineUserKey isPush)

namespace Rolls

variable {login : Redis} {m : Rolls} {msg : SVRRadioMsgNotify} {c u : String}

theorem note_listed :
    u ∈ (m.note login (.relation msg)).listed c ↔
      (c = msg.radioId ∧ u ∈ msg.joins) ∨ (u ∈ m.listed c ∧ ¬ (c = msg.radioId ∧ u ∈ msg.leaves)) := by
  obtain ⟨radioId, oprUser, users, type⟩ := msg
  by_cases hc : c = radioId
  · subst hc
    cases type <;>
      simp [note, updateListed, updateSet, updateInfo, SVRRadioMsgNotify.joins,
        SVRRadioMsgNotify.leaves,
        or_comm]
  · cases type <;> simp [note, updateListed, updateSet, updateInfo, hc]

theorem note_online (hstatus : login.loginStatus u = 0 ∨ login.loginStatus u = 1) :
    u ∈ (m.note login (.relation msg)).sets .online c ↔
      (c = msg.radioId ∧ u ∈ msg.joins ∧ login.loginStatus u = 1) ∨
        (u ∈ m.sets .online c ∧ ¬ (c = msg.radioId ∧ u ∈ msg.leaves)) := by
  obtain ⟨radioId, oprUser, users, type⟩ := msg
  by_cases hc : c = radioId
  · subst hc
    cases type with
    | apply =>
      have hset : u ∈ (m.note login (.relation ⟨c, oprUser, users, .apply⟩)).sets .online c ↔
          u ∈ m.sets .online c ∨ (u = oprUser ∧ login.loginStatus u ≠ 0) := by
        simp [note, updateListed, updateSet]
      rw [hset]
      simp only [SVRRadioMsgNotify.joins, SVRRadioMsgNotify.leaves, List.mem_singleton,
        List.not_mem_nil]
      grind
    | _ =>
      simp [note, updateListed, updateSet, updateInfo, SVRRadioMsgNotify.joins,
        SVRRadioMsgNotify.leaves,
        or_comm]
  · cases type <;> simp [note, updateListed, updateSet, updateInfo, hc]

theorem note_offline :
    u ∈ (m.note login (.relation msg)).sets .offline c ↔
      u ∈ m.sets .offline c ∧ ¬ (c = msg.radioId ∧ u ∈ msg.leaves) := by
  obtain ⟨radioId, oprUser, users, type⟩ := msg
  by_cases hc : c = radioId
  · subst hc
    cases type <;>
      simp [note, updateListed, updateSet, updateInfo, SVRRadioMsgNotify.leaves]
  · cases type <;> simp [note, updateListed, updateSet, updateInfo, hc]

theorem note_gone :
    c ∈ (m.note login (.relation msg)).gone ↔ c ∈ m.gone ∨
      (msg.notifyType = .dismiss ∧ c = msg.radioId) := by
  obtain ⟨radioId, oprUser, users, type⟩ := msg
  cases type <;> simp [note, updateListed, updateSet, updateInfo, or_comm]

end Rolls

namespace Site

variable {client : RedisClient} {s s' : Site} {c u : String}

/-- Where a user stands with a channel. -/
structure Placed (s : Site) (c u : String) : Prop where
  listed : s.Online c u ∨ s.Offline c u → s.Listed c u
  online : s.LoggedIn u → s.Listed c u → s.Online c u
  away : ¬ s.LoggedIn u → s.past.unmoved u = false → ¬ s.Online c u
  offline : s.Offline c u ↔ s.past.told c u = true
  apart : s.LoggedIn u ∨ s.past.unmoved u = true → s.past.told c u = false
  joined : s.past.joined c u = some true → s.Listed c u
  left : s.past.joined c u = some false → ¬ s.Listed c u

/-- What every event keeps. The places of a user are kept for plain ids only, and for channels that
are not dismissed. -/
structure Kept (s : Site) : Prop where
  status : ∀ u, s.cache.userStatus u = 0 ∨ s.cache.userStatus u = 1
  short : ShortLists s.db.redis
  known : ∀ c u, s.past.joined c u ≠ none → PlainChannel c ∧ PlainMember u
  placed : ∀ c u, PlainChannel c → PlainMember u → s.past.dismissed c = false → Placed s c u

theorem loggedIn_iff (hu : PlainMember u) : s.LoggedIn u ↔ s.cache.userStatus u = 1 := by
  rw [LoggedIn, loginStatus_plain hu, Redis.userStatus]

/-- What the redis data shows. -/
def rolls (s : Site) : Rolls where
  info c := s.db.getChannelInfo (CText.bytes c)
  sets f c := {u | CText.bytes u ∈ s.db.sets (f.key (CText.bytes c))}
  listed c := {u | s.Listed c u}
  gone := {c | s.past.dismissed c = true}

theorem shows_rolls (s : Site) : Shows s.db s.rolls :=
  ⟨fun _ _ => rfl, fun _ _ _ _ _ _ => Iff.rfl, fun _ _ _ _ => Iff.rfl⟩

theorem dismissed_notedPast {msg : SVRRadioMsgNotify} (h : s.past.dismissed c = true) :
    (s.notedPast msg).dismissed c = true := by
  simp only [notedPast]
  split
  · by_cases heq : c = msg.radioId
    · rw [heq, Function.update_self]
    · rw [Function.update_of_ne heq, h]
  · exact h

/-- The places after a notification. -/
structure Noted (s s' : Site) (msg : SVRRadioMsgNotify) (c u : String) : Prop where
  listed : s'.Listed c u ↔
    (c = msg.radioId ∧ u ∈ msg.joins) ∨ (s.Listed c u ∧ ¬ (c = msg.radioId ∧ u ∈ msg.leaves))
  online : s'.Online c u ↔
    (c = msg.radioId ∧ u ∈ msg.joins ∧ s.LoggedIn u) ∨
      (s.Online c u ∧ ¬ (c = msg.radioId ∧ u ∈ msg.leaves))
  offline : s'.Offline c u ↔ s.Offline c u ∧ ¬ (c = msg.radioId ∧ u ∈ msg.leaves)

theorem noted_step (hclient : client.Documented) {msg : SVRRadioMsgNotify}
    (hplain : (Notice.relation msg).Plain)
    (hstatus : ∀ u, s.cache.userStatus u = 0 ∨ s.cache.userStatus u = 1)
    (hstep : step client s (.notice msg) = some s') (hc : PlainChannel c) (hu : PlainMember u)
    (hgone : s'.past.dismissed c = false) : Noted s s' msg c u := by
  cases hstep
  have hshows : Shows ((Notice.relation msg).handle client s.cache s.db)
      (s.rolls.note s.cache (.relation msg)) := (shows_rolls s).handle hclient hplain
  have hstatus : s.cache.loginStatus u = 0 ∨ s.cache.loginStatus u = 1 := by
    rw [loginStatus_plain hu]
    exact hstatus u
  have hgone : c ∉ (s.rolls.note s.cache (.relation msg)).gone := by
    rw [Rolls.note_gone]
    rintro (hbefore | ⟨htype, rfl⟩)
    · rw [dismissed_notedPast hbefore] at hgone
      cases hgone
    · simp [notedPast, htype] at hgone
  refine ⟨?_, ?_, ?_⟩
  · exact (hshows.listed c u hc hu).trans Rolls.note_listed
  · exact (hshows.sets .online c u hc hu (.inr hgone)).trans (Rolls.note_online hstatus)
  · exact (hshows.sets .offline c u hc hu (.inr hgone)).trans Rolls.note_offline

theorem joins_leaves {msg : SVRRadioMsgNotify} (hjoins : u ∈ msg.joins) : u ∉ msg.leaves := by
  obtain ⟨radioId, oprUser, users, type⟩ := msg
  cases type with
  | apply => exact List.not_mem_nil
  | invite => exact List.not_mem_nil
  | _ => cases hjoins

theorem Placed.noted {msg : SVRRadioMsgNotify} (h : Placed s c u) (hnoted : Noted s s' msg c u)
    (hcache : s'.cache = s.cache) (hpast : s'.past = s.notedPast msg) : Placed s' c u := by
  have hloggedIn : s'.LoggedIn u ↔ s.LoggedIn u := by rw [LoggedIn, hcache, LoggedIn]
  have hunmoved : s'.past.unmoved u = s.past.unmoved u := by rw [hpast, notedPast]
  have hboth : u ∈ msg.joins → u ∉ msg.leaves := joins_leaves
  have htold : s'.past.told c u =
      if c = msg.radioId ∧ u ∈ msg.leaves then false else s.past.told c u := by
    rw [hpast, notedPast]
  have hjoined : s'.past.joined c u =
      if c = msg.radioId ∧ u ∈ msg.joins then some true
      else if c = msg.radioId ∧ u ∈ msg.leaves then some false
      else s.past.joined c u := by
    rw [hpast, notedPast]
  obtain ⟨hlisted, honline, hoffline⟩ := hnoted
  exact
    { listed := by grind [h.listed]
      online := by grind [h.online]
      away := by grind [h.away]
      offline := by grind [h.offline]
      apart := by grind [h.apart]
      joined := by grind [h.joined]
      left := by grind [h.left] }

/-- The commands of a notification leave the lists alone, or put the channel on a list or take it
off one. -/
theorem lists_updates {login : Redis} {msg : SVRRadioMsgNotify} {f : ChannelDb → ChannelDb}
    (hf : f ∈ Notice.updates client login msg) :
    (∀ db, (f db).lists = db.lists) ∨
      (∃ user status, f = fun db => db.addChannelToUser user (CText.bytes msg.radioId) status) ∨
        ∃ user, f = fun db => db.removeChannelToUser user (CText.bytes msg.radioId) := by
  have hlist {members : List Text} {g : List Text → ChannelDb → ChannelDb}
      (hf : f ∈ Notice.withList members g) (hg : ∀ members db, (g members db).lists = db.lists)
      (db : ChannelDb) :
      (f db).lists = db.lists := by
    unfold Notice.withList at hf
    split at hf
    · cases hf
    · rw [List.mem_singleton.mp hf]
      exact hg members db
  obtain ⟨radioId, oprUser, users, type⟩ := msg
  cases type with
  | memberQuit =>
    simp only [Notice.updates, List.mem_cons, List.not_mem_nil, or_false] at hf
    obtain rfl | rfl | rfl := hf
    · exact .inl fun db => rfl
    · exact .inl fun db => rfl
    · exact .inr (.inr ⟨oprUser, rfl⟩)
  | apply =>
    obtain rfl | hf := List.mem_cons.mp hf
    · exact .inr (.inl ⟨oprUser, 0, rfl⟩)
    · split at hf
      · cases hf
      · rw [List.mem_singleton.mp hf]
        exact .inl fun db => rfl
  | memberRemove =>
    obtain hf | hf := List.mem_append.mp hf
    · obtain hf | hf := List.mem_append.mp hf
      · exact .inl (hlist hf fun _ _ => rfl)
      · exact .inl (hlist hf fun _ _ => rfl)
    · obtain ⟨user, -, rfl⟩ := List.mem_map.mp hf
      exact .inr (.inr ⟨user, rfl⟩)
  | invite =>
    obtain hf | hf := List.mem_append.mp hf
    · obtain ⟨user, -, rfl⟩ := List.mem_map.mp hf
      exact .inr (.inl ⟨user, 0, rfl⟩)
    · exact .inl (hlist hf fun _ _ => rfl)
  | adminSet =>
    simp only [Notice.updates] at hf
    exact .inl (hlist hf fun _ _ => rfl)
  | adminUnset =>
    simp only [Notice.updates] at hf
    exact .inl (hlist hf fun _ _ => rfl)
  | masterChanged =>
    obtain hf | hf := List.mem_append.mp hf
    · exact .inl (hlist hf fun _ _ => rfl)
    · rw [List.mem_singleton.mp hf]
      exact .inl fun db => rfl
  | create =>
    simp only [Notice.updates, List.mem_cons, List.not_mem_nil, or_false] at hf
    obtain rfl | rfl := hf
    · exact .inl fun db => rfl
    · exact .inl fun db => rfl
  | dismiss | nospeak | speaking =>
    rw [List.mem_singleton.mp hf]
    exact .inl fun db => rfl
  | _ => cases hf

theorem shortLists_handle {login : Redis} {db : ChannelDb} {msg : SVRRadioMsgNotify}
    (hshort : ShortLists db.redis) (hc : PlainChannel msg.radioId) :
    ShortLists ((Notice.relation msg).handle client login db).redis := by
  have hupdate : ∀ db : ChannelDb, ShortLists db.redis → ∀ f ∈ Notice.updates client login msg,
      ShortLists (f db).redis := by
    intro db hshort f hf key id hid
    obtain hlists | ⟨user, status, rfl⟩ | ⟨user, rfl⟩ := lists_updates hf
    · rw [ChannelDb.redis, hlists] at hid
      exact hshort key id hid
    · by_cases hkey : key = Login.ChannelRedis.userChannelKey user
      · subst hkey
        simp only [ChannelDb.redis, ChannelDb.addChannelToUser, ChannelDb.zadd, ChannelDb.updateList,
          Function.update_self, Login.ChannelMap.mem_ids_insertAt] at hid
        obtain rfl | hid := hid
        · exact hc.2.1
        · exact hshort _ id hid
      · simp only [ChannelDb.redis, ChannelDb.addChannelToUser, ChannelDb.zadd, ChannelDb.updateList,
          Function.update_of_ne hkey] at hid
        exact hshort key id hid
    · by_cases hkey : key = Login.ChannelRedis.userChannelKey user
      · subst hkey
        simp only [ChannelDb.redis, ChannelDb.removeChannelToUser, ChannelDb.zrem, ChannelDb.updateList,
          Function.update_self, Login.ChannelMap.ids, List.mem_map, List.mem_filter] at hid
        obtain ⟨item, ⟨hitem, -⟩, rfl⟩ := hid
        exact hshort _ _ (List.mem_map_of_mem hitem)
      · simp only [ChannelDb.redis, ChannelDb.removeChannelToUser, ChannelDb.zrem, ChannelDb.updateList,
          Function.update_of_ne hkey] at hid
        exact hshort key id hid
  have hfold : ShortLists ((Notice.updates client login msg).foldl (fun db f => f db) db).redis :=
    List.foldlRecOn (motive := fun db : ChannelDb => ShortLists db.redis) _ _ hshort hupdate
  rw [Notice.handle, Notice.prog, Notice.insertChannelNotifyToDataBase, Prog.alone_bind,
    Notice.updateUserChannelInfo, Prog.alone_writes, Prog.alone_done]
  split
  · rw [Prog.alone_read]
    split
    · exact hfold
    · rw [Prog.alone_writes]
      exact hfold
  · exact hfold

theorem joined_notedPast {msg : SVRRadioMsgNotify} (h : (s.notedPast msg).joined c u ≠ none) :
    s.past.joined c u ≠ none ∨ (c = msg.radioId ∧ (u ∈ msg.joins ∨ u ∈ msg.leaves)) := by
  simp only [notedPast] at h
  split at h
  · next hjoins => exact .inr ⟨hjoins.1, .inl hjoins.2⟩
  · split at h
    · next hleaves => exact .inr ⟨hleaves.1, .inr hleaves.2⟩
    · exact .inl h

theorem plainMember_of_mem {msg : SVRRadioMsgNotify} (hplain : (Notice.relation msg).Plain)
    (hu : u ∈ msg.joins ∨ u ∈ msg.leaves) : PlainMember u := by
  obtain ⟨-, huser, husers⟩ := hplain
  obtain ⟨radioId, oprUser, users, type⟩ := msg
  cases type with
  | apply | memberQuit =>
    simp only [SVRRadioMsgNotify.joins, SVRRadioMsgNotify.leaves, List.mem_singleton,
      List.not_mem_nil,
      or_false, false_or] at hu
    rwa [hu]
  | invite | memberRemove =>
    simp only [SVRRadioMsgNotify.joins, SVRRadioMsgNotify.leaves, List.not_mem_nil, or_false,
      false_or] at hu
    exact husers u hu
  | _ => simp [SVRRadioMsgNotify.joins, SVRRadioMsgNotify.leaves] at hu

theorem Kept.notice (hclient : client.Documented) (h : Kept s) {msg : SVRRadioMsgNotify}
    (hplain : (Notice.relation msg).Plain) (hstep : step client s (.notice msg) = some s') : Kept s' := by
  have heq := hstep
  cases heq
  refine ⟨h.status, shortLists_handle h.short hplain.1, fun c u hknown => ?_, fun c u hc hu hgone => ?_⟩
  · obtain hknown | ⟨rfl, hmem⟩ := joined_notedPast hknown
    · exact h.known c u hknown
    · exact ⟨hplain.1, plainMember_of_mem hplain hmem⟩
  · have hbefore : s.past.dismissed c = false :=
      eq_false_of_ne_true fun htrue => absurd (dismissed_notedPast htrue) (ne_true_of_eq_false hgone)
    exact (h.placed c u hc hu hbefore).noted
      (noted_step hclient hplain h.status hstep hc hu hgone) rfl rfl

theorem online_iff : s.Online c u ↔ s.db.redis.members (channelUserKey (CText.bytes c)) u = true := by
  simp [Online, ChannelDb.redis, ChannelDb.getChannelUser]

theorem offline_iff :
    s.Offline c u ↔ s.db.redis.members (channelOfflineUserKey (CText.bytes c)) u = true := by
  simp [Offline, ChannelDb.redis, ChannelDb.getChannelOfflineUser]

theorem listed_iff : s.Listed c u ↔ CText.bytes c ∈ (s.db.redis.getUserChannel u).ids := Iff.rfl

/-- The user stands with the channel as he did, by the data and by what has happened. -/
structure Same (s s' : Site) (c u : String) : Prop where
  loggedIn : s'.LoggedIn u ↔ s.LoggedIn u
  listed : s'.Listed c u ↔ s.Listed c u
  online : s'.Online c u ↔ s.Online c u
  offline : s'.Offline c u ↔ s.Offline c u
  joined : s'.past.joined c u = s.past.joined c u
  told : s'.past.told c u = s.past.told c u
  unmoved : s'.past.unmoved u = s.past.unmoved u

theorem Placed.same (h : Placed s c u) (hsame : Same s s' c u) : Placed s' c u := by
  obtain ⟨hloggedIn, hlisted, honline, hoffline, hjoined, htold, hunmoved⟩ := hsame
  constructor
  · rw [honline, hoffline, hlisted]
    exact h.listed
  · rw [hloggedIn, honline, hlisted]
    exact h.online
  · rw [hloggedIn, hunmoved, honline]
    exact h.away
  · rw [hoffline, htold]
    exact h.offline
  · rw [hloggedIn, hunmoved, htold]
    exact h.apart
  · rw [hjoined, hlisted]
    exact h.joined
  · rw [hjoined, hlisted]
    exact h.left

/-- The answers of the service: words that fit in their keys, and no channel that the user has
left. -/
def Answers (s : Site) (userId : String) (http : Http) : Prop :=
  ShortHttp http ∧
    ∀ radio ∈ http.radioIds.getD [], ∀ c ∈ textOf radio.radioId, s.past.joined c userId ≠ some false

/-- Ids are plain, and the service names no channel that the user has left. -/
def Good (s : Site) : Event → Prop
  | .notice msg => (Notice.relation msg).Plain
  | .call call http =>
    PlainMember call.userId ∧ ∀ task ∈ (call.handle s.server).tasks, s.Answers call.userId (http task)

theorem not_left_of_fetched {userId : String} {tasks : List Task} {http : Task → Http}
    (hanswers : ∀ task ∈ tasks, s.Answers userId (http task))
    (hfetched : Login.Fetched tasks http (CText.bytes c)) : s.past.joined c userId ≠ some false := by
  obtain ⟨task, htask, hid⟩ := hfetched
  obtain ⟨radio, hradio, heq⟩ := Login.mem_ids_getUserRadioIds hid
  exact (hanswers task htask).2 radio hradio c (by rw [heq, textOf_bytes]; exact rfl)

section Called

variable {userId : String} {handled server : Login.Server} {fetched : Text → Prop}

theorem Placed.stays (h : Placed s c userId) (huser : PlainMember userId) (htasks : handled.tasks = [])
    (hredis : (s.called userId handled server).db.redis = s.db.redis)
    (hcache : server.cache = handled.cache)
    (hstatus : handled.cache.userStatus userId = 1 → s.cache.userStatus userId = 1) :
    Placed (s.called userId handled server) c userId := by
  have hlisted : (s.called userId handled server).Listed c userId ↔ s.Listed c userId := by
    rw [listed_iff, hredis, listed_iff]
  have honline : (s.called userId handled server).Online c userId ↔ s.Online c userId := by
    rw [online_iff, hredis, online_iff]
  have hoffline : (s.called userId handled server).Offline c userId ↔ s.Offline c userId := by
    rw [offline_iff, hredis, offline_iff]
  have htold : (s.called userId handled server).past.told c userId = s.past.told c userId := by
    simp [called, calledPast, htasks]
  have hin : (s.called userId handled server).LoggedIn userId → s.LoggedIn userId := by
    rw [loggedIn_iff huser, loggedIn_iff huser, called, hcache]
    exact hstatus
  have hunmoved : (s.called userId handled server).past.unmoved userId = true ↔
      s.past.unmoved userId = true ∨
        (s.LoggedIn userId ∧ ¬ (s.called userId handled server).LoggedIn userId) := by
    have hlogin : (s.called userId handled server).LoggedIn userId ↔
        handled.cache.loginStatus userId = 1 := by rw [LoggedIn, called, hcache]
    rw [hlogin]
    simp [called, calledPast, htasks]
  exact
    { listed := by grind [h.listed]
      online := by grind [h.online]
      away := by grind [h.away]
      offline := by grind [h.offline]
      apart := by grind [h.apart]
      joined := fun hjoined => hlisted.mpr (h.joined hjoined)
      left := fun hleft hmem => h.left hleft (hlisted.mp hmem) }

theorem Placed.entered (h : Placed s c userId) (huser : PlainMember userId) (hc : PlainChannel c)
    (htasks : .addLoginCacheInfo userId ∈ handled.tasks)
    (hredis : (s.called userId handled server).db.redis = server.channels)
    (hstatus : server.cache.userStatus userId = 1)
    (hfetched : fetched (CText.bytes c) → s.past.joined c userId ≠ some false)
    (hentered : Login.Entered userId fetched s.db.redis server.channels) :
    Placed (s.called userId handled server) c userId := by
  have hin : (s.called userId handled server).LoggedIn userId := (loggedIn_iff huser).mpr hstatus
  have hlist : s.Listed c userId → (s.called userId handled server).Listed c userId := by
    rw [listed_iff, listed_iff, hredis]
    exact hentered.kept _
  have hnew : (s.called userId handled server).Listed c userId →
      s.Listed c userId ∨ s.past.joined c userId ≠ some false := by
    rw [listed_iff, listed_iff, hredis]
    exact fun hmem => (hentered.new _ hmem).imp_right hfetched
  have honline : (s.called userId handled server).Online c userId ↔
      (s.called userId handled server).Listed c userId ∨ s.Online c userId := by
    rw [online_iff, listed_iff, online_iff, hredis]
    exact hentered.online _ hc.2.1
  have hoffline : (s.called userId handled server).Offline c userId ↔
      ¬ (s.called userId handled server).Listed c userId ∧ s.Offline c userId := by
    rw [offline_iff, listed_iff, offline_iff, hredis]
    exact hentered.offline _ hc.2.1
  have htold : (s.called userId handled server).past.told c userId = false := by
    simp [called, calledPast, htasks]
  exact
    { listed := by grind [h.listed]
      online := fun _ hmem => honline.mpr (.inl hmem)
      away := fun hout => absurd hin hout
      offline := by grind [h.listed]
      apart := fun _ => htold
      joined := fun hjoined => hlist (h.joined hjoined)
      left := fun hleft hmem => (hnew hmem).elim (h.left hleft) (absurd hleft) }

/-- The task at the end of a session has moved the user. -/
theorem Placed.removed (h : Placed s c userId) (huser : PlainMember userId) (hc : PlainChannel c)
    (htasks : handled.tasks = [.removeLoginCacheInfo userId])
    (hredis : (s.called userId handled server).db.redis = server.channels)
    (hstatus : server.cache.userStatus userId = 0)
    (hfetched : fetched (CText.bytes c) → s.past.joined c userId ≠ some false)
    (hleft : Login.Left (isPush (handled.cache.getMsgPushStatus (Redis.cmKey userId)).1
      (handled.cache.getMsgPushStatus (Redis.cmKey userId)).2) userId fetched s.db.redis
      server.channels) :
    Placed (s.called userId handled server) c userId := by
  have hout : ¬ (s.called userId handled server).LoggedIn userId := by
    rw [loggedIn_iff huser, called, hstatus]
    decide
  have hlist : s.Listed c userId → (s.called userId handled server).Listed c userId := by
    rw [listed_iff, listed_iff, hredis]
    exact hleft.kept _
  have hnew : (s.called userId handled server).Listed c userId →
      s.Listed c userId ∨ s.past.joined c userId ≠ some false := by
    rw [listed_iff, listed_iff, hredis]
    exact fun hmem => (hleft.new _ hmem).imp_right hfetched
  have honline : (s.called userId handled server).Online c userId ↔
      ¬ s.Listed c userId ∧ s.Online c userId := by
    rw [online_iff, listed_iff, online_iff, hredis]
    exact hleft.online _ hc.2.1
  have hallows : s.allowsPush handled.cache c userId = true ↔
      ∃ item ∈ s.db.redis.getUserChannel userId, item.1 = CText.bytes c ∧
        isPush (handled.cache.getMsgPushStatus (Redis.cmKey userId)).1
          (handled.cache.getMsgPushStatus (Redis.cmKey userId)).2 item.2 = true := by
    rw [allowsPush, List.any_eq_true]
    simp only [Bool.and_eq_true, decide_eq_true_eq]
    rfl
  have hoffline : (s.called userId handled server).Offline c userId ↔
      s.allowsPush handled.cache c userId = true ∨ s.Offline c userId := by
    rw [offline_iff, hallows, offline_iff, hredis]
    exact hleft.offline _ hc.2.1
  have hpush : s.allowsPush handled.cache c userId = true → s.Listed c userId := by
    rw [hallows]
    rintro ⟨item, hitem, heq, -⟩
    exact List.mem_map.mpr ⟨item, hitem, heq⟩
  have htold : (s.called userId handled server).past.told c userId =
      (s.past.told c userId || s.allowsPush handled.cache c userId) := by
    simp [called, calledPast, htasks]
  have hunmoved : (s.called userId handled server).past.unmoved userId = false := by
    simp [called, calledPast, htasks]
  exact
    { listed := by grind [h.listed]
      online := fun hin => absurd hin hout
      away := by grind [h.listed]
      offline := by grind [h.offline]
      apart := fun hor => (hor.elim hout (ne_true_of_eq_false hunmoved)).elim
      joined := fun hjoined => hlist (h.joined hjoined)
      left := fun hleft hmem => (hnew hmem).elim (h.left hleft) (absurd hleft) }

/-- A call keeps the relation, if it keeps it for its user. -/
theorem Kept.called (h : Kept s) (huser : PlainMember userId)
    (hown : server.cache.userStatus userId = 0 ∨ server.cache.userStatus userId = 1)
    (hstatus : ∀ u, u ≠ userId → server.cache.userStatus u = s.cache.userStatus u)
    (hmembers : ∀ key u, u ≠ userId → server.channels.members key u = s.db.redis.members key u)
    (hgrows : Login.Grows userId fetched s.db.redis server.channels)
    (hfetched : ∀ id, fetched id → id.length ≤ 109)
    (hplaced : (s.called userId handled server).db.redis = server.channels →
      ∀ c, PlainChannel c → Placed s c userId → Placed (s.called userId handled server) c userId) :
    Kept (s.called userId handled server) := by
  have hredis : (s.called userId handled server).db.redis = server.channels :=
    ChannelDb.redis_withRedis hmembers
  refine ⟨fun u => ?_, ?_, h.known, fun c u hc hu hgone => ?_⟩
  · by_cases heq : u = userId
    · rwa [heq]
    · exact (hstatus u heq).symm ▸ h.status u
  · rw [hredis]
    exact hgrows.shortLists h.short hfetched
  · by_cases heq : u = userId
    · subst heq
      exact hplaced hredis c hc (h.placed c u hc hu hgone)
    · refine (h.placed c u hc hu hgone).same ⟨?_, ?_, ?_, ?_, rfl, ?_, ?_⟩
      · rw [loggedIn_iff hu, loggedIn_iff hu, Site.called, hstatus u heq]
      · have hkey := (listKey_inj hu huser).not.mpr heq
        rw [listed_iff, listed_iff, hredis, Login.ChannelRedis.getUserChannel, hgrows.lists _ hkey]
        rfl
      · rw [online_iff, online_iff, hredis, hmembers _ u heq]
      · rw [offline_iff, offline_iff, hredis, hmembers _ u heq]
      · simp [Site.called, calledPast, heq]
      · simp [Site.called, calledPast, heq]

theorem Kept.of_handled (hclient : client.Documented) (h : Kept s) {http : Task → Http}
    (huser : PlainMember userId) (hchannels : handled.channels = s.db.redis)
    (hhandled : Login.Handled userId s.cache handled)
    (hanswers : ∀ task ∈ handled.tasks, s.Answers userId (http task))
    (hrun : handled.runTasks client http = some server) : Kept (s.called userId handled server) := by
  have hplain : Login.PlainUser userId := huser.1.2
  have hshort : ShortLists handled.channels := hchannels ▸ h.short
  have hhttp : ∀ task ∈ handled.tasks, ShortHttp (http task) :=
    fun task htask => (hanswers task htask).1
  have hlength : ∀ id, Login.Fetched handled.tasks http id → id.length ≤ 109 := by
    rintro id ⟨task, htask, hid⟩
    exact (hhttp task htask).length_le hid
  have hfetched (c : String) : Login.Fetched handled.tasks http (CText.bytes c) →
      s.past.joined c userId ≠ some false := not_left_of_fetched hanswers
  cases hhandled with
  | idle hcache htasks =>
    obtain rfl := Login.Server.runTasks_nil htasks hrun
    refine h.called huser (hcache ▸ h.status userId) (fun u _ => by rw [hcache])
      (fun _ _ _ => by rw [hchannels]) (hchannels ▸ .refl) hlength fun hredis c _ hplaced => ?_
    exact hplaced.stays huser htasks (hredis.trans hchannels) rfl fun hin => by rwa [hcache] at hin
  | entered hcache htasks =>
    obtain ⟨hstatus, hentered⟩ :=
      Login.Server.runTasks_entered hclient hplain htasks hhttp hshort hrun
    rw [hchannels] at hentered
    have hown : server.cache.userStatus userId = 1 := (hstatus userId).trans hcache.own
    have hadd : .addLoginCacheInfo userId ∈ handled.tasks := by
      obtain heq | heq := htasks
      · simp [heq]
      · simp [heq]
    refine h.called huser (.inr hown) (fun u hu => ?_) hentered.others hentered.toGrows hlength
      fun hredis c hc hplaced => ?_
    · exact (hstatus u).trans (Redis.userStatus_eq (hcache.others u hu))
    · exact hplaced.entered huser hc hadd hredis hown (hfetched c) hentered
  | left hcache htasks =>
    obtain ⟨hsame, hleft⟩ := Login.Server.runTasks_left hclient hplain htasks hhttp hshort hrun
    rw [hchannels] at hleft
    have hown : server.cache.userStatus userId = 0 := hsame ▸ hcache.own
    refine h.called huser (.inl hown) (fun u hu => ?_) hleft.others hleft.toGrows hlength
      fun hredis c hc hplaced => ?_
    · rw [hsame]
      exact Redis.userStatus_eq (hcache.others u hu)
    · exact hplaced.removed huser hc htasks hredis hown (hfetched c) hleft
  | lost hcache htasks =>
    obtain rfl := Login.Server.runTasks_nil htasks hrun
    refine h.called huser (.inl hcache.own) (fun u hu => Redis.userStatus_eq (hcache.others u hu))
      (fun _ _ _ => by rw [hchannels]) (hchannels ▸ .refl) hlength fun hredis c _ hplaced => ?_
    refine hplaced.stays huser htasks (hredis.trans hchannels) rfl fun hin => ?_
    rw [hcache.own] at hin
    cases hin

end Called

theorem Kept.start : Kept {} where
  status u := .inl (show CText.atoi "" = 0 by decide)
  short _ _ hid := by cases hid
  known _ _ hknown := absurd rfl hknown
  placed _ _ _ _ _ := by
    constructor <;> simp [Online, Offline, Listed, ChannelDb.getChannelUser,
      ChannelDb.getChannelOfflineUser, ChannelDb.getUserChannel, Login.ChannelMap.ids]

theorem Kept.step (hclient : client.Documented) {e : Event} (h : Kept s) (hgood : s.Good e)
    (hstep : s.step client e = some s') : Kept s' := by
  cases e with
  | notice msg => exact h.notice hclient hgood hstep
  | call call http =>
    obtain ⟨server, hrun, rfl⟩ := Option.map_eq_some_iff.mp hstep
    exact h.of_handled hclient hgood.1 (call.channels_handle s.server)
      (call.handled (s := s.server) rfl) hgood.2 hrun

/-- In every run with plain ids, a user whose latest notification for a channel is a join has the
channel on his list. He is in its online set if and only if he is logged in, unless his session was
ended by a handler that does not move him, and in its offline set if and only if he is not logged in
and his settings let him be told when a session ended. One whose latest is a leave is nowhere. -/
theorem members_placed (hclient : client.Documented)
    (hreach : Run.Reaches (step client) Good {} s) (hgone : s.past.dismissed c = false) :
    (s.past.joined c u = some true →
      s.Listed c u ∧ ¬ (s.Online c u ∧ s.Offline c u) ∧ (s.LoggedIn u → s.Online c u) ∧
        (s.past.unmoved u = false → s.Online c u → s.LoggedIn u) ∧
          (s.Offline c u ↔ ¬ s.LoggedIn u ∧ s.past.told c u = true)) ∧
      (s.past.joined c u = some false → ¬ s.Listed c u ∧ ¬ s.Online c u ∧ ¬ s.Offline c u) := by
  have hkept : Kept s :=
    hreach.invariant Kept .start fun s e s' h hgood hstep => h.step hclient hgood hstep
  constructor
  · intro hjoined
    obtain ⟨hc, hu⟩ := hkept.known c u (by rw [hjoined]; exact Option.some_ne_none true)
    have hplaced := hkept.placed c u hc hu hgone
    have hlisted := hplaced.joined hjoined
    have htold (hmoved : s.LoggedIn u ∨ s.past.unmoved u = true) : ¬ s.Offline c u := by
      rw [hplaced.offline, hplaced.apart hmoved]
      exact Bool.false_ne_true
    refine ⟨hlisted, ?_, fun hin => hplaced.online hin hlisted, fun hmoved honline => ?_, ?_⟩
    · rintro ⟨honline, hoffline⟩
      by_cases hin : s.LoggedIn u
      · exact htold (.inl hin) hoffline
      · refine htold (.inr ?_) hoffline
        exact eq_true_of_ne_false fun hmoved => hplaced.away hin hmoved honline
    · exact Decidable.of_not_not fun hout => hplaced.away hout hmoved honline
    · rw [hplaced.offline]
      refine ⟨fun hoffline => ⟨fun hin => ?_, hoffline⟩, And.right⟩
      exact htold (.inl hin) (hplaced.offline.mpr hoffline)
  · intro hjoined
    obtain ⟨hc, hu⟩ := hkept.known c u (by rw [hjoined]; exact Option.some_ne_none false)
    have hplaced := hkept.placed c u hc hu hgone
    have hlisted := hplaced.left hjoined
    exact ⟨hlisted, fun honline => hlisted (hplaced.listed (.inl honline)),
      fun hoffline => hlisted (hplaced.listed (.inr hoffline))⟩

instance (http : Http) : Decidable (ShortHttp http) := inferInstanceAs (Decidable (∀ radio ∈ _, _ ∧ _))

instance (s : Site) (userId : String) (http : Http) : Decidable (s.Answers userId http) :=
  inferInstanceAs (Decidable (_ ∧ ∀ radio ∈ http.radioIds.getD [], ∀ c ∈ textOf radio.radioId, _))

instance (s : Site) : (e : Event) → Decidable (s.Good e)
  | .notice msg => inferInstanceAs (Decidable (Notice.relation msg).Plain)
  | .call _ _ => inferInstanceAs (Decidable (_ ∧ ∀ task ∈ _, _))

/-- The channel is on the lists of its members, and each of them is in the one set or the other,
in the online set if and only if he is logged in; others are nowhere. -/
def Refines (s : Site) (c u : String) : Prop :=
  s.past.created c = true → s.past.dismissed c = false →
    (s.past.joined c u = some true →
      s.Listed c u ∧ (s.Online c u ↔ s.LoggedIn u) ∧ (s.Offline c u ↔ ¬ s.Online c u)) ∧
      (s.past.joined c u = some false → ¬ s.Listed c u ∧ ¬ s.Online c u ∧ ¬ s.Offline c u)

instance (s : Site) (c u : String) : Decidable (s.Refines c u) :=
  inferInstanceAs (Decidable (_ → _ → (_ → _ ∧ _ ∧ _) ∧ (_ → _)))

def noticeOf (type : NotifyType) (user : String) (users : List String := []) : Event :=
  .notice { radioId := "5", oprUserId := user, mnpledUserId := users, notifyType := type }

def loginOf (user : String) (http : Http) : Event :=
  .call (.login { answer := some "200" }
    { userId := user, loginToken := "k", deviceToken := "d", loginIp := "10.0.0.9", loginPort := 8000,
      host := "10.0.0.1:80" }) fun _ => http

def closeOf (user : String) : Event :=
  .call (.cmLoginNotify {} { userId := user, ip := "10.0.0.9", port := 8000, host := "10.0.0.1:80" })
    fun _ => {}

/-- User 2 logs in and joins channel 5, and is told about it when his link is closed. -/
theorem members_placed_closed :
    ∃ s, Run.run (step Login.Server.splitClient) {}
        [noticeOf .create "1", loginOf "2" {}, noticeOf .apply "2", closeOf "2"] = some s ∧
      s.Listed "5" "2" ∧ s.Offline "5" "2" ∧ ¬ s.Online "5" "2" := by
  have hrun : (Run.runGood (step Login.Server.splitClient) Good {}
      [noticeOf .create "1", loginOf "2" {}, noticeOf .apply "2", closeOf "2"]).map (fun s =>
        (s.past.dismissed "5", s.past.joined "5" "2", s.past.told "5" "2", decide (s.LoggedIn "2"))) =
          some (false, some true, true, false) := by
    decide +kernel
  obtain ⟨s, hgood, heq⟩ := Option.map_eq_some_iff.mp hrun
  simp only [Prod.mk.injEq, decide_eq_false_iff_not] at heq
  obtain ⟨hgone, hjoined, htold, hout⟩ := heq
  obtain ⟨hlisted, hapart, -, -, hoffline⟩ :=
    (members_placed Login.Server.documented_splitClient (Run.reaches_of_runGood hgood) hgone).1 hjoined
  have hin := hoffline.mpr ⟨hout, htold⟩
  exact ⟨s, Run.run_of_runGood hgood, hlisted, hin, fun honline => hapart ⟨honline, hin⟩⟩

/-- Runs that lead elsewhere: a user joins while he is logged out; one who has switched off new
messages has his link closed; a logged-in user logs out; one with a blank in his id is invited; one
who has quit logs in, and the service still names the channel. -/
def departures : List (List Event) :=
  [[noticeOf .create "1", noticeOf .apply "2"],
    [noticeOf .create "1", loginOf "2" { setOn := some (false, true) }, noticeOf .apply "2",
      closeOf "2"],
    [noticeOf .create "1", loginOf "2" {}, noticeOf .apply "2", .call (.logout {} "2") fun _ => {}],
    [noticeOf .create "1", loginOf "2 x" {}, noticeOf .invite "1" ["2 x"]],
    [noticeOf .create "1", noticeOf .apply "2", noticeOf .memberQuit "2",
      loginOf "2" (Login.Server.oneChannel "5")]]

theorem not_refines : departures ≠ [] ∧ ∀ events ∈ departures,
    ∃ s, Run.run (step Login.Server.splitClient) {} events = some s ∧ ¬ ∀ c u, s.Refines c u := by
  have hruns : ∀ events ∈ departures, (Run.run (step Login.Server.splitClient) {} events).map
      (fun s => decide (s.Refines "5" "2" ∧ s.Refines "5" "2 x")) = some false := by
    decide +kernel
  refine ⟨List.cons_ne_nil _ _, fun events hevents => ?_⟩
  obtain ⟨s, hrun, heq⟩ := Option.map_eq_some_iff.mp (hruns events hevents)
  exact ⟨s, hrun, fun hrefines => of_decide_eq_false heq ⟨hrefines "5" "2", hrefines "5" "2 x"⟩⟩

end Site

end ImServer
