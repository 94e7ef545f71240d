import ImServer.Login.ChannelSets

/-!
# What a call changes for its user

A call of a handler changes the status of the user that it is about. The tasks it adds move this
user between the sets of his channels. Nothing is changed for another user. Settings of channels
with ids that fit in their keys do not disturb each other.
-/

namespace ImServer

namespace Redis

/-- The status in the record of a user; 0 if there is none. -/
def userStatus (r : Redis) (userId : String) : Int :=
  CText.atoi (((r.hash (cmKey userId)).bind fun h => h .status).getD "")

/-- The user has this status now, and other users have the records they had. -/
structure SetsStatus (userId : String) (status : Int) (r r' : Redis) : Prop where
  own : r'.userStatus userId = status
  others : ∀ u, u ≠ userId → r'.hash (cmKey u) = r.hash (cmKey u)

variable {r r' r'' : Redis} {userId : String} {status : Int}

theorem userStatus_eq {u : String} (h : r'.hash (cmKey u) = r.hash (cmKey u)) :
    r'.userStatus u = r.userStatus u := by
  rw [userStatus, h, userStatus]

theorem hash_hmset_cmKey {u : String} (hu : u ≠ userId) (fields : RedisFields) :
    (r.hmset (cmKey userId) fields).hash (cmKey u) = r.hash (cmKey u) :=
  hmset_of_ne fields fun hkey => hu (cmKey_inj.mp hkey)

theorem hash_hmset_cmdtKey (token u : String) (fields : RedisFields) :
    (r.hmset (cmdtKey token) fields).hash (cmKey u) = r.hash (cmKey u) :=
  hmset_of_ne fields (cmKey_ne_cmdtKey u token)

theorem hash_del_cmdtKey (token u : String) : (r.del (cmdtKey token)).hash (cmKey u) = r.hash (cmKey u) :=
  del_of_ne (cmKey_ne_cmdtKey u token)

theorem SetsStatus.hmset {fields : RedisFields} {value : String}
    (hlookup : fields.lookup .status = some value) :
    SetsStatus userId (CText.atoi value) r (r.hmset (cmKey userId) fields) where
  own := by
    rw [userStatus, hmset_self, Option.bind_some, RedisHash.set, hlookup, Option.some_or,
      Option.getD_some]
  others _ hu := hash_hmset_cmKey hu fields

theorem SetsStatus.insertDeviceRec (h : SetsStatus userId status r r') (token user : String) :
    SetsStatus userId status r (r'.insertDeviceRec (cmdtKey token) user) where
  own := (userStatus_eq (hash_hmset_cmdtKey token userId _)).trans h.own
  others u hu := (hash_hmset_cmdtKey token u _).trans (h.others u hu)

theorem SetsStatus.delDeviceRec (h : SetsStatus userId status r r') (token : String) :
    SetsStatus userId status r (r'.delDeviceRec (cmdtKey token)) where
  own := (userStatus_eq (hash_del_cmdtKey token userId)).trans h.own
  others u hu := (hash_del_cmdtKey token u).trans (h.others u hu)

theorem SetsStatus.delUserRec : SetsStatus userId 0 r (r.delUserRec (cmKey userId)) where
  own := by
    rw [userStatus, Redis.delUserRec, del_self]
    decide
  others _ hu := del_of_ne fun hkey => hu (cmKey_inj.mp hkey)

theorem SetsStatus.trans {status' : Int} (h : SetsStatus userId status r r')
    (h' : SetsStatus userId status' r' r'') : SetsStatus userId status' r r'' where
  own := h'.own
  others u hu := (h'.others u hu).trans (h.others u hu)

theorem SetsStatus.setUserStatus (r : Redis) (userId : String) :
    SetsStatus userId 0 r (r.setUserStatus (cmKey userId) false) := by
  have hset : SetsStatus userId (CText.atoi "0") r (r.hmset (cmKey userId) [(.status, "0")]) := .hmset rfl
  exact ⟨hset.own.trans (by decide), hset.others⟩

end Redis

namespace Login

open Redis

theorem setsStatus_saveUserInfo (r : Redis) (login : CMLoginTrans) (now : Nat) :
    SetsStatus login.userId 1 r (saveUserInfo r login now) := by
  have hset : SetsStatus login.userId (CText.atoi "1") r
      (r.insertUserRec (cmKey login.userId) (userCacheOfLogin login) now) := by
    have hset : SetsStatus login.userId (CText.atoi "1") r (r.hmset (cmKey login.userId)
        (loginFields (userCacheOfLogin login) "0" now ++ [(.loginTime, toString now)] ++
          pushFields (userCacheOfLogin login))) := .hmset rfl
    exact ⟨hset.own, hset.others⟩
  rw [show CText.atoi "1" = 1 by decide] at hset
  exact (hset.delDeviceRec _).insertDeviceRec _ _

theorem setsStatus_updateUserInfo (r : Redis) (login : CMLoginTrans) (device : String) (now : Nat) :
    SetsStatus login.userId 1 r (updateUserInfo r login device now) := by
  have hset : SetsStatus login.userId (CText.atoi "1") r
      (r.updateUserRec (cmKey login.userId) (userCacheOfLogin login) now) := by
    have hset : SetsStatus login.userId (CText.atoi "1") r (r.hmset (cmKey login.userId)
        (loginFields (userCacheOfLogin login) "1" now ++ pushFields (userCacheOfLogin login))) :=
      .hmset rfl
    exact ⟨hset.own, hset.others⟩
  rw [show CText.atoi "1" = 1 by decide] at hset
  unfold updateUserInfo
  dsimp only
  split
  · exact hset.insertDeviceRec _ _
  · exact (hset.delDeviceRec _).insertDeviceRec _ _

/-- What a handler does with a server that has no tasks; `r` is the user cache before. -/
inductive Handled (userId : String) (r : Redis) (s : Server) : Prop where
  | idle (hcache : s.cache = r) (htasks : s.tasks = [])
  | entered (hcache : SetsStatus userId 1 r s.cache)
      (htasks : s.tasks = [.addLoginCacheInfo userId] ∨
        s.tasks = [.loginChannelPush userId, .addLoginCacheInfo userId])
  | left (hcache : SetsStatus userId 0 r s.cache) (htasks : s.tasks = [.removeLoginCacheInfo userId])
  /-- The session ends, and no task moves the user. -/
  | lost (hcache : SetsStatus userId 0 r s.cache) (htasks : s.tasks = [])

/-- A call of a handler of the login server. -/
inductive LoginCall where
  | login (env : Env) (msg : CMLoginTrans)
  | logout (env : Env) (userId : String)
  | cmLoginNotify (env : Env) (msg : CMLoginNotify)
  | phpLoginNotify (env : Env) (msg : CMPHPLoginNotify)

namespace LoginCall

def userId : LoginCall → String
  | .login _ msg => msg.userId
  | .logout _ userId => userId
  | .cmLoginNotify _ msg => msg.userId
  | .phpLoginNotify _ msg => msg.userId

def handle (s : Server) : LoginCall → Server
  | .login env msg => s.login env msg
  | .logout env userId => { s with cache := onLogout env s.cache userId }
  | .cmLoginNotify env msg => s.cmLoginNotify env msg
  | .phpLoginNotify env msg => s.phpLoginNotify env msg

theorem channels_handle (s : Server) (call : LoginCall) : (call.handle s).channels = s.channels := by
  cases call <;> rfl

end LoginCall

section Handlers

variable {s : Server} (env : Env)

/-- A login is refused and changes nothing, or the user has status 1. -/
theorem onLogin_status (r : Redis) (msg : CMLoginTrans) :
    ((onLogin env r msg).err ≠ .nonErr ∧ (onLogin env r msg).newLogin = false ∧
        (onLogin env r msg).redis = r) ∨
      ((onLogin env r msg).err = .nonErr ∧ SetsStatus msg.userId 1 r (onLogin env r msg).redis) := by
  unfold onLogin
  split
  · exact .inl ⟨show ErrCode.errLoginForbidden ≠ .nonErr by decide, rfl, rfl⟩
  · split
    · exact .inl ⟨show ErrCode.errLoginForbidden ≠ .nonErr by decide, rfl, rfl⟩
    · split
      · next rec _ =>
        dsimp only
        split
        · next herr => exact .inl ⟨herr, rfl, rfl⟩
        · exact .inr ⟨rfl, setsStatus_updateUserInfo r msg rec.deviceToken env.now⟩
      · dsimp only
        split
        · next herr => exact .inl ⟨herr, rfl, rfl⟩
        · exact .inr ⟨rfl, setsStatus_saveUserInfo r msg env.now⟩

theorem handled_login (hs : s.tasks = []) (msg : CMLoginTrans) :
    Handled msg.userId s.cache (s.login env msg) := by
  obtain ⟨herr, hnew, hredis⟩ | ⟨herr, hredis⟩ := onLogin_status env s.cache msg
  · exact .idle hredis (by simp [Server.login, Server.addTasks, hs, herr, hnew])
  · refine .entered hredis ?_
    simp only [Server.login, Server.addTasks, hs, herr, if_true, List.nil_append]
    split
    · exact .inr rfl
    · exact .inl rfl

theorem handled_logout (hs : s.tasks = []) (userId : String) :
    Handled userId s.cache { s with cache := onLogout env s.cache userId } := by
  unfold onLogout
  split
  · exact .lost (SetsStatus.delUserRec.delDeviceRec _) hs
  · exact .idle rfl hs

theorem handled_cmLoginNotify (hs : s.tasks = []) (msg : CMLoginNotify) :
    Handled msg.userId s.cache (s.cmLoginNotify env msg) := by
  have hcases : onCmLoginNotify env s.cache msg = (s.cache, false) ∨
      onCmLoginNotify env s.cache msg = (s.cache.setUserStatus (cmKey msg.userId) false, true) := by
    unfold onCmLoginNotify
    split
    · split
      · exact .inr rfl
      · exact .inl rfl
    · exact .inl rfl
  unfold Server.cmLoginNotify
  obtain heq | heq := hcases
  · rw [heq]
    exact .idle rfl (by simp [Server.addTasks, hs])
  · rw [heq]
    exact .left (SetsStatus.setUserStatus s.cache msg.userId) (by simp [Server.addTasks, hs])

theorem handled_phpLoginNotify (hs : s.tasks = []) (msg : CMPHPLoginNotify) :
    Handled msg.userId s.cache (s.phpLoginNotify env msg) := by
  have hdel (r : Redis) : SetsStatus msg.userId 0 r
      ((r.delUserRec (cmKey msg.userId)).delDeviceRec (cmdtKey msg.deviceToken)) :=
    SetsStatus.delUserRec.delDeviceRec _
  unfold Server.phpLoginNotify onPHPLoginNotify
  split
  · split
    · split
      · exact .lost (hdel s.cache) (by simp [Server.addTasks, hs])
      · exact .idle rfl (by simp [Server.addTasks, hs])
    · split
      · refine .left ?_ (by simp [Server.addTasks, hs])
        exact (SetsStatus.setUserStatus s.cache msg.userId).trans (hdel _)
      · exact .idle rfl (by simp [Server.addTasks, hs])
  · exact .idle rfl (by simp [Server.addTasks, hs])

theorem LoginCall.handled (hs : s.tasks = []) (call : LoginCall) :
    Handled call.userId s.cache (call.handle s) := by
  cases call with
  | login env msg => exact handled_login env hs msg
  | logout env userId => exact handled_logout env hs userId
  | cmLoginNotify env msg => exact handled_cmLoginNotify env hs msg
  | phpLoginNotify env msg => exact handled_phpLoginNotify env hs msg

end Handlers

open ChannelRedis

/-- All tasks run, in the order in which they were added. -/
def Server.runTasks (client : RedisClient) (http : Task → Http) (s : Server) : Option Server :=
  Run.run (fun s task => s.runTask client (http task) task) { s with tasks := [] } s.tasks

/-- The ids on lists fit in the keys of their channels. -/
def ShortLists (c : ChannelRedis) : Prop := ∀ key, ∀ id ∈ (c.lists key).ids, id.length ≤ 109

/-- The service answers with words that fit in the keys of their channels. -/
def ShortHttp (http : Http) : Prop :=
  ∀ radio ∈ http.radioIds.getD [], IsWord radio.radioId ∧ radio.radioId.length ≤ 109

theorem ShortHttp.plain {http : Http} (h : ShortHttp http) : PlainHttp http :=
  fun radio hradio => (h radio hradio).1

theorem mem_ids_getUserRadioIds {http : Http} {id : Text} (h : id ∈ (getUserRadioIds http).ids) :
    ∃ radio ∈ http.radioIds.getD [], radio.radioId = id := by
  obtain ⟨item, hitem, rfl⟩ := List.mem_map.mp h
  have hitems : ∀ item ∈ getUserRadioIds http,
      ∃ radio ∈ http.radioIds.getD [], radio.radioId = item.1 := by
    refine List.foldlRecOn (motive := fun map : ChannelMap =>
      ∀ item ∈ map, ∃ radio ∈ http.radioIds.getD [], radio.radioId = item.1) _ _
      (by intro item hitem; cases hitem) ?_
    intro map hmap radio hradio item hitem
    obtain rfl | hitem := mem_emplace hitem
    · exact ⟨radio, hradio, rfl⟩
    · exact hmap item hitem
  exact hitems item hitem

theorem ShortHttp.length_le {http : Http} (h : ShortHttp http) {id : Text}
    (hid : id ∈ (getUserRadioIds http).ids) : id.length ≤ 109 := by
  obtain ⟨radio, hradio, rfl⟩ := mem_ids_getUserRadioIds hid
  exact (h radio hradio).2

theorem channelUserKey_inj {a b : Text} (ha : a.length ≤ 109) (hb : b.length ≤ 109) :
    channelUserKey a = channelUserKey b ↔ a = b := by
  have hpre : (CText.bytes "CHNN_USER_").length = 10 := by decide
  rw [channelUserKey, channelUserKey, keyOf, keyOf,
    List.take_of_length_le (by rw [List.length_append]; omega),
    List.take_of_length_le (by rw [List.length_append]; omega), List.append_cancel_left_eq]

theorem channelOfflineUserKey_inj {a b : Text} (ha : a.length ≤ 109) (hb : b.length ≤ 109) :
    channelOfflineUserKey a = channelOfflineUserKey b ↔ a = b := by
  have hpre : (CText.bytes "CHNN_OFFLINE_USER_").length = 18 := by decide
  rw [channelOfflineUserKey, channelOfflineUserKey, keyOf, keyOf,
    List.take_of_length_le (by rw [List.length_append]; omega),
    List.take_of_length_le (by rw [List.length_append]; omega), List.append_cancel_left_eq]

/-- The list of the user has grown by some that are `fetched`; other lists are the same. -/
structure Grows (userId : String) (fetched : Text → Prop) (c c' : ChannelRedis) : Prop where
  lists : ∀ key, key ≠ userChannelKey userId → c'.lists key = c.lists key
  kept : ∀ id ∈ (c.getUserChannel userId).ids, id ∈ (c'.getUserChannel userId).ids
  new : ∀ id ∈ (c'.getUserChannel userId).ids, id ∈ (c.getUserChannel userId).ids ∨ fetched id

/-- The user has come into the online sets of all channels on his list, and out of the offline
sets. -/
structure Entered (userId : String) (fetched : Text → Prop) (c c' : ChannelRedis) : Prop
    extends Grows userId fetched c c' where
  others : ∀ key u, u ≠ userId → c'.members key u = c.members key u
  online : ∀ id : Text, id.length ≤ 109 →
    (c'.members (channelUserKey id) userId = true ↔
      id ∈ (c'.getUserChannel userId).ids ∨ c.members (channelUserKey id) userId = true)
  offline : ∀ id : Text, id.length ≤ 109 →
    (c'.members (channelOfflineUserKey id) userId = true ↔
      id ∉ (c'.getUserChannel userId).ids ∧ c.members (channelOfflineUserKey id) userId = true)

/-- The user has come out of the online sets of all channels that were on his list, and into the
offline sets of those that he is told about. -/
structure Left (push : Nat → Bool) (userId : String) (fetched : Text → Prop)
    (c c' : ChannelRedis) : Prop
    extends Grows userId fetched c c' where
  others : ∀ key u, u ≠ userId → c'.members key u = c.members key u
  online : ∀ id : Text, id.length ≤ 109 →
    (c'.members (channelUserKey id) userId = true ↔
      id ∉ (c.getUserChannel userId).ids ∧ c.members (channelUserKey id) userId = true)
  offline : ∀ id : Text, id.length ≤ 109 →
    (c'.members (channelOfflineUserKey id) userId = true ↔
      (∃ item ∈ c.getUserChannel userId, item.1 = id ∧ push item.2 = true) ∨
        c.members (channelOfflineUserKey id) userId = true)

section Tasks

variable {client : RedisClient} {http : Http} {userId : String} {fetched : Text → Prop}
variable {c c₁ c' : ChannelRedis}

theorem Grows.refl : Grows userId fetched c c := ⟨fun _ _ => rfl, fun _ h => h, fun _ h => .inl h⟩

theorem Grows.trans (h : Grows userId fetched c c₁) (h' : Grows userId fetched c₁ c') :
    Grows userId fetched c c' where
  lists key hkey := (h'.lists key hkey).trans (h.lists key hkey)
  kept id hid := h'.kept id (h.kept id hid)
  new id hid := (h'.new id hid).elim (h.new id) .inr

theorem Grows.mono {fetched' : Text → Prop} (h : Grows userId fetched c c')
    (hfetched : ∀ id, fetched id → fetched' id) : Grows userId fetched' c c' :=
  ⟨h.lists, h.kept, fun id hid => (h.new id hid).imp_right (hfetched id)⟩

theorem Grows.shortLists (h : Grows userId fetched c c') (hshort : ShortLists c)
    (hfetched : ∀ id, fetched id → id.length ≤ 109) : ShortLists c' := by
  intro key id hid
  by_cases hkey : key = userChannelKey userId
  · subst hkey
    exact (h.new id hid).elim (hshort _ id) (hfetched id)
  · rw [h.lists key hkey] at hid
    exact hshort key id hid

theorem addChannelToUser_short (hclient : client.Documented) (huser : PlainUser userId)
    (hhttp : ShortHttp http) (hne : getUserRadioIds http ≠ [])
    (hstore : c.addChannelToUser client userId (getUserRadioIds http) = some c₁) :
    c₁.members = c.members ∧ (∀ key, key ≠ userChannelKey userId → c₁.lists key = c.lists key) ∧
      ∀ id, id ∈ (c₁.getUserChannel userId).ids ↔
        id ∈ (c.getUserChannel userId).ids ∨ id ∈ (getUserRadioIds http).ids := by
  have hplain := plainMap_getUserRadioIds hhttp.plain
  have hcut : ((getUserRadioIds http).map fun item => (cutId item, item.2)) = getUserRadioIds http := by
    refine (List.map_congr_left fun item hitem => ?_).trans (List.map_id _)
    have hdecimal := (isWord_decimal (hplain item hitem).2).2
    have hlen := hhttp.length_le (List.mem_map_of_mem hitem)
    rw [cutId, List.take_of_length_le (by omega)]
    rfl
  rw [ChannelRedis.addChannelToUser, zadd_words hclient (isWord_userChannelKey huser) hplain hne, hcut]
    at hstore
  cases hstore
  refine ⟨rfl, fun key hkey => Function.update_of_ne hkey _ _, fun id => ?_⟩
  rw [getUserChannel, mem_ids_insertPairs]
  simp [ChannelMap.ids, getUserChannel]

/-- A move into the online sets of all channels on the list. -/
theorem Entered.move (hgrows : Grows userId fetched c c₁) (hmembers : c₁.members = c.members)
    (hshort : ShortLists c₁) {map : ChannelMap}
    (hmap : ∀ id, id ∈ (c₁.getUserChannel userId).ids ↔ id ∈ map.ids) :
    Entered userId fetched c (c₁.moveOnlineUserToChannel map userId) := by
  have hne (id id' : Text) : channelOfflineUserKey id ≠ channelUserKey id' :=
    (channelUserKey_ne_offline id' id).symm
  have hlists : (c₁.moveOnlineUserToChannel map userId).lists = c₁.lists := lists_move c₁
  have hlist : (c₁.moveOnlineUserToChannel map userId).getUserChannel userId =
      c₁.getUserChannel userId := congrFun hlists _
  have hids : ∀ id ∈ map.ids, id.length ≤ 109 := fun id hid => hshort _ id ((hmap id).mpr hid)
  refine ⟨⟨fun key hkey => ?_, ?_, ?_⟩, fun key u hu => ?_, fun id hid => ?_, fun id hid => ?_⟩
  · rw [hlists]
    exact hgrows.lists key hkey
  · rw [hlist]
    exact hgrows.kept
  · rw [hlist]
    exact hgrows.new
  · rw [Bool.eq_iff_iff, moveOnlineUserToChannel, member_move_iff hne, hmembers]
    simp [hu]
  · have hitem : (∃ item ∈ map, channelUserKey id = channelUserKey item.1) ↔ id ∈ map.ids := by
      simp only [ChannelMap.ids, List.mem_map]
      refine exists_congr fun item => and_congr_right fun hitem => ?_
      rw [channelUserKey_inj hid (hids _ (List.mem_map_of_mem hitem)), eq_comm]
    rw [hlist, hmap, moveOnlineUserToChannel, member_move_iff hne, hmembers]
    simp [hitem, channelUserKey_ne_offline]
  · have hitem : (∃ item ∈ map, channelOfflineUserKey id = channelOfflineUserKey item.1) ↔
        id ∈ map.ids := by
      simp only [ChannelMap.ids, List.mem_map]
      refine exists_congr fun item => and_congr_right fun hitem => ?_
      rw [channelOfflineUserKey_inj hid (hids _ (List.mem_map_of_mem hitem)), eq_comm]
    rw [hlist, hmap, moveOnlineUserToChannel, member_move_iff hne, hmembers]
    simp [hitem, hne, and_comm]

/-- A move out of the online sets of all channels on the list. -/
theorem Left.move (hshort : ShortLists c) (newMsg hideSound : Bool) :
    Left (isPush newMsg hideSound) userId fetched c
      (c.moveOfflineUserToChannel (c.getUserChannel userId) userId newMsg hideSound) := by
  have hne := channelUserKey_ne_offline
  have hlists : (c.moveOfflineUserToChannel (c.getUserChannel userId) userId newMsg hideSound).lists =
      c.lists := lists_move c
  have hlist : (c.moveOfflineUserToChannel (c.getUserChannel userId) userId newMsg
      hideSound).getUserChannel userId = c.getUserChannel userId := congrFun hlists _
  refine ⟨⟨fun key _ => congrFun hlists key, ?_, ?_⟩, fun key u hu => ?_, fun id hid => ?_,
    fun id hid => ?_⟩
  · rw [hlist]
    exact fun id hid => hid
  · rw [hlist]
    exact fun id hid => .inl hid
  · rw [Bool.eq_iff_iff, moveOfflineUserToChannel, member_move_iff hne]
    simp [hu]
  · have hitem : (∃ item ∈ c.getUserChannel userId, channelUserKey id = channelUserKey item.1) ↔
        id ∈ (c.getUserChannel userId).ids := by
      simp only [ChannelMap.ids, List.mem_map]
      refine exists_congr fun item => and_congr_right fun hitem => ?_
      rw [channelUserKey_inj hid (hshort _ _ (List.mem_map_of_mem hitem)), eq_comm]
    rw [moveOfflineUserToChannel, member_move_iff hne, eq_self, true_and, hitem, and_comm]
    simp [hne]
  · have hitem : (∃ item ∈ c.getUserChannel userId, isPush newMsg hideSound item.2 = true ∧
        channelOfflineUserKey id = channelOfflineUserKey item.1) ↔
          ∃ item ∈ c.getUserChannel userId, item.1 = id ∧ isPush newMsg hideSound item.2 = true := by
      refine exists_congr fun item => and_congr_right fun hitem => ?_
      rw [channelOfflineUserKey_inj hid (hshort _ _ (List.mem_map_of_mem hitem)), @eq_comm _ id,
        and_comm]
    rw [moveOfflineUserToChannel, member_move_iff hne, hitem]
    simp [fun id' => (hne id' id).symm]

theorem addLoginCacheInfo_entered (hclient : client.Documented) (huser : PlainUser userId)
    (hhttp : ShortHttp http) (hshort : ShortLists c)
    (htask : addLoginCacheInfo client http c userId = some c') :
    Entered userId (· ∈ (getUserRadioIds http).ids) c c' := by
  unfold addLoginCacheInfo at htask
  dsimp only at htask
  split at htask
  · next hempty =>
    split at htask
    · next hne =>
      obtain ⟨c₁, hstore, rfl⟩ := Option.map_eq_some_iff.mp htask
      obtain ⟨hmembers, hlists, hids⟩ := addChannelToUser_short hclient huser hhttp hne hstore
      have hgrows : Grows userId (· ∈ (getUserRadioIds http).ids) c c₁ :=
        ⟨hlists, fun id hid => (hids id).mpr (.inl hid), fun id => (hids id).mp⟩
      refine .move hgrows hmembers (hgrows.shortLists hshort fun id => hhttp.length_le) fun id => ?_
      rw [hids, hempty]
      simp [ChannelMap.ids]
    · cases htask
      have hmap (id : Text) : id ∈ (c.getUserChannel userId).ids ↔ id ∈ ChannelMap.ids [] := by
        rw [hempty]
      exact .move .refl rfl hshort hmap
  · cases htask
    exact .move .refl rfl hshort fun id => Iff.rfl

theorem removeLoginCacheInfo_left (hclient : client.Documented) (huser : PlainUser userId)
    (hhttp : ShortHttp http) (hshort : ShortLists c) {cache : Redis}
    (htask : removeLoginCacheInfo client http cache c userId = some c') :
    Left (isPush (cache.getMsgPushStatus (cmKey userId)).1 (cache.getMsgPushStatus (cmKey userId)).2)
      userId (· ∈ (getUserRadioIds http).ids) c c' := by
  unfold removeLoginCacheInfo at htask
  dsimp only at htask
  split at htask
  · next hempty =>
    -- The user is moved between no sets.
    have hleft : ∀ c', c'.members = c.members → Grows userId (· ∈ (getUserRadioIds http).ids) c c' →
        Left (isPush (cache.getMsgPushStatus (cmKey userId)).1 (cache.getMsgPushStatus (cmKey userId)).2)
          userId (· ∈ (getUserRadioIds http).ids) c c' := by
      intro c' hmembers hgrows
      refine ⟨hgrows, fun key u _ => by rw [hmembers], fun id _ => ?_, fun id _ => ?_⟩
      · simp [hmembers, hempty, ChannelMap.ids]
      · simp [hmembers, hempty]
    split at htask
    · next hne =>
      obtain ⟨hmembers, hlists, hids⟩ := addChannelToUser_short hclient huser hhttp hne htask
      exact hleft c' hmembers ⟨hlists, fun id hid => (hids id).mpr (.inl hid), fun id => (hids id).mp⟩
    · cases htask
      exact hleft c rfl .refl
  · cases htask
    exact .move hshort _ _

/-- A new login stores the list and the settings that it fetches. -/
theorem loginChannelPush_grows (hclient : client.Documented) (huser : PlainUser userId)
    (hhttp : ShortHttp http) {cache cache' : Redis}
    (htask : loginChannelPush client http cache c userId = some (cache', c')) :
    (∀ u, cache'.userStatus u = cache.userStatus u) ∧ c'.members = c.members ∧
      Grows userId (· ∈ (getUserRadioIds http).ids) c c' := by
  have hset (r : Redis) (field : RedisField) (value : String) (hfield : field ≠ .status) (u : String) :
      (r.hmset (cmKey userId) [(field, value)]).userStatus u = r.userStatus u := by
    by_cases hu : u = userId
    · subst hu
      have hlookup : ([(field, value)] : RedisFields).lookup .status = none := by
        rw [List.lookup_cons, beq_false_of_ne hfield.symm, List.lookup_nil]
      rw [userStatus, hmset_self, Option.bind_some, RedisHash.set, hlookup, Option.none_or, userStatus]
      cases r.hash (cmKey u) with
      | none => rfl
      | some hash => rfl
    · exact userStatus_eq (hash_hmset_cmKey hu _)
  unfold loginChannelPush at htask
  obtain ⟨c₁, hstore, heq⟩ := Option.map_eq_some_iff.mp htask
  obtain ⟨rfl, rfl⟩ := Prod.mk.inj heq
  refine ⟨fun u => ?_, ?_⟩
  · exact (hset _ _ _ (by decide) u).trans (hset _ _ _ (by decide) u)
  · split at hstore
    · next hne =>
      obtain ⟨hmembers, hlists, hids⟩ := addChannelToUser_short hclient huser hhttp hne hstore
      exact ⟨hmembers, hlists, fun id hid => (hids id).mpr (.inl hid), fun id => (hids id).mp⟩
    · cases hstore
      exact ⟨rfl, .refl⟩

/-- A channel that the answers to the tasks name. -/
def Fetched (tasks : List Task) (answers : Task → Http) (id : Text) : Prop :=
  ∃ task ∈ tasks, id ∈ (getUserRadioIds (answers task)).ids

variable {answers : Task → Http} {s s' : Server}

theorem Server.runTasks_nil (htasks : s.tasks = []) (hrun : s.runTasks client answers = some s') :
    s' = s := by
  obtain ⟨cache, channels, tasks⟩ := s
  cases htasks
  cases hrun
  rfl

theorem Server.runTasks_entered (hclient : client.Documented) (huser : PlainUser userId)
    (htasks : s.tasks = [.addLoginCacheInfo userId] ∨
      s.tasks = [.loginChannelPush userId, .addLoginCacheInfo userId])
    (hanswers : ∀ task ∈ s.tasks, ShortHttp (answers task)) (hshort : ShortLists s.channels)
    (hrun : s.runTasks client answers = some s') :
    (∀ u, s'.cache.userStatus u = s.cache.userStatus u) ∧
      Entered userId (Fetched s.tasks answers) s.channels s'.channels := by
  obtain heq | heq := htasks
  · rw [heq] at hanswers
    rw [runTasks, heq] at hrun
    obtain ⟨s₁, hadd, hrest⟩ := Run.run_cons.mp hrun
    cases hrest
    obtain ⟨c', htask, rfl⟩ := Option.map_eq_some_iff.mp hadd
    have hentered :=
      addLoginCacheInfo_entered hclient huser (hanswers _ List.mem_cons_self) hshort htask
    refine ⟨fun u => rfl, { hentered with toGrows := hentered.toGrows.mono fun id hid => ?_ }⟩
    exact ⟨_, heq ▸ List.mem_cons_self, hid⟩
  · rw [heq] at hanswers
    rw [runTasks, heq] at hrun
    obtain ⟨s₁, hpush, hrest⟩ := Run.run_cons.mp hrun
    obtain ⟨s₂, hadd, hrest⟩ := Run.run_cons.mp hrest
    cases hrest
    obtain ⟨⟨cache, c₁⟩, htask₁, rfl⟩ := Option.map_eq_some_iff.mp hpush
    obtain ⟨c', htask₂, rfl⟩ := Option.map_eq_some_iff.mp hadd
    obtain ⟨hstatus, hmembers, hgrows⟩ :=
      loginChannelPush_grows hclient huser (hanswers _ List.mem_cons_self) htask₁
    have hadded : ShortHttp (answers (.addLoginCacheInfo userId)) := hanswers _ (by simp)
    have hshort₁ : ShortLists c₁ :=
      hgrows.shortLists hshort fun id => (hanswers _ List.mem_cons_self).length_le
    have hentered := addLoginCacheInfo_entered hclient huser hadded hshort₁ htask₂
    have hfetched (task : Task) (htask : task ∈ s.tasks) (id : Text)
        (hid : id ∈ (getUserRadioIds (answers task)).ids) : Fetched s.tasks answers id :=
          ⟨task, htask, hid⟩
    refine ⟨hstatus, (hgrows.mono (hfetched _ (by simp [heq]))).trans
      (hentered.toGrows.mono (hfetched _ (by simp [heq]))), ?_, ?_, ?_⟩
    · exact fun key u hu => (hentered.others key u hu).trans (by rw [hmembers])
    · exact fun id hid => (hentered.online id hid).trans (by rw [hmembers])
    · exact fun id hid => (hentered.offline id hid).trans (by rw [hmembers])

theorem Server.runTasks_left (hclient : client.Documented) (huser : PlainUser userId)
    (htasks : s.tasks = [.removeLoginCacheInfo userId])
    (hanswers : ∀ task ∈ s.tasks, ShortHttp (answers task)) (hshort : ShortLists s.channels)
    (hrun : s.runTasks client answers = some s') :
    s'.cache = s.cache ∧
      Left (isPush (s.cache.getMsgPushStatus (cmKey userId)).1 (s.cache.getMsgPushStatus (cmKey userId)).2)
        userId (Fetched s.tasks answers) s.channels s'.channels := by
  rw [htasks] at hanswers
  rw [runTasks, htasks] at hrun
  obtain ⟨s₁, hremove, hrest⟩ := Run.run_cons.mp hrun
  cases hrest
  obtain ⟨c', htask, rfl⟩ := Option.map_eq_some_iff.mp hremove
  have hleft := removeLoginCacheInfo_left hclient huser (hanswers _ List.mem_cons_self) hshort htask
  refine ⟨rfl, { hleft with toGrows := hleft.toGrows.mono fun id hid => ?_ }⟩
  exact ⟨_, htasks ▸ List.mem_cons_self, hid⟩

end Tasks

end Login

end ImServer
