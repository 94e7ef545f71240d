import Mathlib.Data.FinEnum
import ImServer.Login.LoginHandle
import ImServer.Login.RedisManager

/-!
# Users in the sets of their channels

Handlers of the login server leave the work on channels to the tasks of a thread pool
(login/loginHandle.cpp), which run in any order. A task reads the list of the user's channels,
or fetches it, and moves the user between the sets of these channels. A user is in sets of
channels on his list only, and these are all online or all offline.
-/

namespace ImServer

namespace Login

open Redis ChannelRedis

/-- `RadioSetOn_t`. -/
structure RadioSetOn where
  radioId : Text
  isHidden : Int
  isUndisturb : Int
  deriving DecidableEq, Repr

/-- The answers of the HTTP services; `none` is a failure. -/
structure Http where
  radioIds : Option (List RadioSetOn) := none
  /-- Notices of new messages, and sound of hidden ones. -/
  setOn : Option (Bool × Bool) := none

def RadioSetOn.setOn (radio : RadioSetOn) : Nat :=
  (if radio.isHidden ≠ 0 then 0x01 else 0x00) ||| (if radio.isUndisturb ≠ 0 then 0x10 else 0x00)

def getUserRadioIds (http : Http) : ChannelMap :=
  (http.radioIds.getD []).foldl (fun map radio => map.emplace radio.radioId radio.setOn) []

variable (client : RedisClient) (http : Http)

def addLoginCacheInfo (c : ChannelRedis) (userId : String) : Option ChannelRedis :=
  let map := c.getUserChannel userId
  if map = [] then
    let map := getUserRadioIds http
    if map ≠ [] then (c.addChannelToUser client userId map).map (·.moveOnlineUserToChannel map userId)
    else some c
  else some (c.moveOnlineUserToChannel map userId)

/-- The list that is fetched is stored, but the user is not moved then. -/
def removeLoginCacheInfo (cache : Redis) (c : ChannelRedis) (userId : String) :
    Option ChannelRedis :=
  let map := c.getUserChannel userId
  if map = [] then
    let map := getUserRadioIds http
    if map ≠ [] then c.addChannelToUser client userId map else some c
  else
    let (newMsg, hideSound) := cache.getMsgPushStatus (cmKey userId)
    some (c.moveOfflineUserToChannel map userId newMsg hideSound)

def loginChannelPush (cache : Redis) (c : ChannelRedis) (userId : String) :
    Option (Redis × ChannelRedis) :=
  let map := getUserRadioIds http
  let stored := if map ≠ [] then c.addChannelToUser client userId map else some c
  let (newMsg, hideSoundOn) := http.setOn.getD (true, true)
  let cache := cache.setIsNewMsgStatus (cmKey userId) newMsg
  let cache := cache.setHideMsgOnStatus (cmKey userId) hideSoundOn
  stored.map fun c => (cache, c)

inductive Task where
  | addLoginCacheInfo (userId : String)
  | removeLoginCacheInfo (userId : String)
  | loginChannelPush (userId : String)
  deriving DecidableEq, Repr

def Task.userId : Task → String
  | .addLoginCacheInfo userId => userId
  | .removeLoginCacheInfo userId => userId
  | .loginChannelPush userId => userId

structure Server where
  cache : Redis
  channels : ChannelRedis
  tasks : List Task := []

namespace Server

variable (s : Server)

inductive Event where
  | login (env : Env) (msg : CMLoginTrans)
  | logout (env : Env) (userId : String)
  | cmLoginNotify (env : Env) (msg : CMLoginNotify)
  | phpLoginNotify (env : Env) (msg : CMPHPLoginNotify)
  | pushTokenSync (msg : CMPushTokenSync)
  /-- A thread runs a task, which gets answers from the HTTP services. -/
  | task (i : Nat) (http : Http)

def addTasks (tasks : List Task) : Server := { s with tasks := s.tasks ++ tasks }

def login (env : Env) (msg : CMLoginTrans) : Server :=
  let res := onLogin env s.cache msg
  let push : List Task := if res.newLogin then [.loginChannelPush msg.userId] else []
  let add : List Task := if res.err = .nonErr then [.addLoginCacheInfo msg.userId] else []
  { s with cache := res.redis }.addTasks (push ++ add)

def cmLoginNotify (env : Env) (msg : CMLoginNotify) : Server :=
  let (cache, remove) := onCmLoginNotify env s.cache msg
  { s with cache := cache }.addTasks (if remove then [.removeLoginCacheInfo msg.userId] else [])

def phpLoginNotify (env : Env) (msg : CMPHPLoginNotify) : Server :=
  let res := onPHPLoginNotify env s.cache msg
  { s with cache := res.redis }.addTasks
    (if res.closeLink.isSome then [.removeLoginCacheInfo msg.userId] else [])

def runTask (task : Task) : Option Server :=
  match task with
  | .addLoginCacheInfo userId =>
    (Login.addLoginCacheInfo client http s.channels userId).map fun c => { s with channels := c }
  | .removeLoginCacheInfo userId =>
    (Login.removeLoginCacheInfo client http s.cache s.channels userId).map fun c =>
      { s with channels := c }
  | .loginChannelPush userId =>
    (Login.loginChannelPush client http s.cache s.channels userId).map fun (cache, c) =>
      { s with cache := cache, channels := c }

def step : Event → Option Server
  | .login env msg => some (s.login env msg)
  | .logout env userId => some { s with cache := onLogout env s.cache userId }
  | .cmLoginNotify env msg => some (s.cmLoginNotify env msg)
  | .phpLoginNotify env msg => some (s.phpLoginNotify env msg)
  | .pushTokenSync msg => some { s with cache := onPushTokenSync s.cache msg }
  | .task i http =>
    match s.tasks[i]? with
    | some task => { s with tasks := s.tasks.eraseIdx i }.runTask client http task
    | none => none

end Server

/-- A user is in sets of channels on his list only, and in no online set or in no offline
set. -/
structure Tidy (c : ChannelRedis) : Prop where
  listed : ∀ u key, c.members key u = true →
    ∃ id ∈ (c.getUserChannel u).ids, key = channelUserKey id ∨ key = channelOfflineUserKey id
  apart : ∀ u, (∀ id, c.members (channelUserKey id) u = false) ∨
    ∀ id, c.members (channelOfflineUserKey id) u = false

/-- The same members, and no channel has left a list. -/
structure Grown (c c' : ChannelRedis) : Prop where
  members : c'.members = c.members
  lists : ∀ u, ∀ id ∈ (c.getUserChannel u).ids, id ∈ (c'.getUserChannel u).ids

variable {c c' : ChannelRedis} {userId : String} {map : ChannelMap}

theorem Tidy.grown (h : Tidy c) (hgrown : Grown c c') : Tidy c' := by
  constructor
  · intro u key hmember
    rw [hgrown.members] at hmember
    obtain ⟨id, hid, hkey⟩ := h.listed u key hmember
    exact ⟨id, hgrown.lists u id hid, hkey⟩
  · rw [hgrown.members]
    exact h.apart

/-- The user is on no set but those of `map`, and the channels of `map` are on his list, up to
their keys. -/
structure Covers (c : ChannelRedis) (userId : String) (map : ChannelMap) : Prop where
  member : ∀ key, c.members key userId = true →
    ∃ id ∈ map.ids, key = channelUserKey id ∨ key = channelOfflineUserKey id
  listed : ∀ id ∈ map.ids, ∃ id' ∈ (c.getUserChannel userId).ids,
    channelUserKey id' = channelUserKey id ∧ channelOfflineUserKey id' = channelOfflineUserKey id

theorem Tidy.covers (h : Tidy c) (userId : String) : Covers c userId (c.getUserChannel userId) :=
  ⟨h.listed userId, fun id hid => ⟨id, hid, rfl, rfl⟩⟩

/-- The two families of sets, in one of the two orders. -/
def Families (src dst : Text → Text) : Prop :=
  (src = channelUserKey ∧ dst = channelOfflineUserKey) ∨
    (src = channelOfflineUserKey ∧ dst = channelUserKey)

section Move

variable {src dst : Text → Text} {push : Nat → Bool}

theorem Families.ne (h : Families src dst) (id id' : Text) : src id ≠ dst id' := by
  obtain ⟨rfl, rfl⟩ | ⟨rfl, rfl⟩ := h
  · exact channelUserKey_ne_offline id id'
  · exact (channelUserKey_ne_offline id' id).symm

theorem Families.or_comm (h : Families src dst) {id key : Text} :
    (key = channelUserKey id ∨ key = channelOfflineUserKey id) ↔ (key = src id ∨ key = dst id) := by
  obtain ⟨rfl, rfl⟩ | ⟨rfl, rfl⟩ := h
  · exact Iff.rfl
  · exact Or.comm

/-- After a move over all his channels, the user is in no set of the one family. -/
theorem Covers.not_member_move (h : Covers c userId map) (hfam : Families src dst) (id : Text) :
    (map.foldl (moveMember src dst push userId) c).members (src id) userId = false := by
  by_contra htrue
  obtain hbefore | ⟨-, id', -, heq⟩ := member_move hfam.ne c (Bool.not_eq_false _ ▸ htrue)
  · obtain ⟨id', hid', hkey⟩ := h.member _ hbefore
    obtain heq | heq := hfam.or_comm.mp hkey
    · rw [heq, ChannelRedis.not_member_move hfam.ne hid'] at htrue
      exact htrue rfl
    · exact hfam.ne id id' heq
  · exact hfam.ne id id' heq

theorem Tidy.move (h : Tidy c) (hcovers : Covers c userId map) (hfam : Families src dst) :
    Tidy (map.foldl (moveMember src dst push userId) c) := by
  have hlists : ∀ u, (map.foldl (moveMember src dst push userId) c).getUserChannel u =
      c.getUserChannel u := by
    intro u
    rw [getUserChannel, lists_move]
    rfl
  constructor
  · intro u key hmember
    rw [hlists]
    obtain hbefore | ⟨rfl, id, hid, rfl⟩ := member_move hfam.ne c hmember
    · exact h.listed u key hbefore
    · obtain ⟨id', hid', hkeys⟩ := hcovers.listed id hid
      refine ⟨id', hid', ?_⟩
      rw [hkeys.1, hkeys.2]
      exact hfam.or_comm.mpr (.inr rfl)
  · intro u
    by_cases hu : u = userId
    · subst hu
      have hsrc : ∀ id, (map.foldl (moveMember src dst push u) c).members (src id) u = false :=
        hcovers.not_member_move hfam
      obtain ⟨rfl, rfl⟩ | ⟨rfl, rfl⟩ := hfam
      · exact .inl hsrc
      · exact .inr hsrc
    · -- Another user is where he was.
      have hkeep : ∀ key, c.members key u = false →
          (map.foldl (moveMember src dst push userId) c).members key u = false := by
        intro key hfalse
        by_contra htrue
        obtain hbefore | ⟨heq, -⟩ := member_move hfam.ne c (Bool.not_eq_false _ ▸ htrue)
        · rw [hfalse] at hbefore
          cases hbefore
        · exact hu heq
      obtain hnone | hnone := h.apart u
      · exact .inl fun id => hkeep _ (hnone id)
      · exact .inr fun id => hkeep _ (hnone id)

end Move

/-- A user id without blanks and percent signs. -/
def PlainUser (userId : String) : Prop := 32 ∉ CText.bytes userId ∧ 37 ∉ CText.bytes userId

/-- The HTTP service answers with channel ids that are words. -/
def PlainHttp (http : Http) : Prop := ∀ radio ∈ http.radioIds.getD [], IsWord radio.radioId

instance (userId : String) : Decidable (PlainUser userId) := inferInstanceAs (Decidable (_ ∧ _))

instance (http : Http) : Decidable (PlainHttp http) :=
  inferInstanceAs (Decidable (∀ radio ∈ _, _))

theorem mem_emplace {item : Text × Nat} {id : Text} {setOn : Nat}
    (h : item ∈ map.emplace id setOn) : item = (id, setOn) ∨ item ∈ map := by
  unfold ChannelMap.emplace at h
  induction map with
  | nil => exact .inl (List.mem_singleton.mp h)
  | cons first map ih =>
    unfold ChannelMap.insertAt at h
    split at h
    · exact .inr h
    · split at h
      · exact List.mem_cons.mp h
      · rcases List.mem_cons.mp h with rfl | h
        · exact .inr List.mem_cons_self
        · exact (ih h).imp_right (List.mem_cons_of_mem _)

theorem setOn_mem (radio : RadioSetOn) : radio.setOn ∈ [0, 1, 16, 17] := by
  unfold RadioSetOn.setOn
  split
  · split
    · decide
    · decide
  · split
    · decide
    · decide

theorem plainMap_getUserRadioIds {http : Http} (h : PlainHttp http) :
    PlainMap (getUserRadioIds http) := by
  unfold getUserRadioIds
  refine List.foldlRecOn _ _ (by intro item hitem; cases hitem) ?_
  intro map hmap radio hradio item hitem
  obtain rfl | hitem := mem_emplace hitem
  · exact ⟨h radio hradio, setOn_mem radio⟩
  · exact hmap item hitem

theorem isWord_userChannelKey (h : PlainUser userId) : IsWord (userChannelKey userId) := by
  have hpre : IsWord (CText.bytes "USER_CHNNSTATUS_") := by decide
  refine isWord_take ⟨?_, ?_, ?_⟩ (by decide)
  · exact List.append_ne_nil_of_left_ne_nil hpre.1 _
  · rw [List.mem_append]
    exact not_or.mpr ⟨hpre.2.1, h.1⟩
  · rw [List.mem_append]
    exact not_or.mpr ⟨hpre.2.2, h.2⟩

theorem channelKeys_cutId {item : Text × Nat} (h : item.2 ∈ [0, 1, 16, 17]) :
    channelUserKey (cutId item) = channelUserKey item.1 ∧
      channelOfflineUserKey (cutId item) = channelOfflineUserKey item.1 := by
  have hlen := (isWord_decimal h).2
  have honline : (CText.bytes "CHNN_USER_").length = 10 := by decide
  have hoffline : (CText.bytes "CHNN_OFFLINE_USER_").length = 18 := by decide
  constructor
  · rw [channelUserKey, channelUserKey, cutId, keyOf_take (by omega)]
  · rw [channelOfflineUserKey, channelOfflineUserKey, cutId, keyOf_take (by omega)]

theorem addChannelToUser_plain {client : RedisClient} (hclient : client.Documented)
    (huser : PlainUser userId) (hmap : PlainMap map) (hne : map ≠ []) (c : ChannelRedis) :
    ∃ c', c.addChannelToUser client userId map = some c' ∧ Grown c c' ∧
      ∀ id ∈ map.ids, ∃ id' ∈ (c'.getUserChannel userId).ids,
        channelUserKey id' = channelUserKey id ∧
          channelOfflineUserKey id' = channelOfflineUserKey id := by
  refine ⟨_, zadd_words hclient (isWord_userChannelKey huser) hmap hne c, ⟨rfl, ?_⟩, ?_⟩
  · intro u id hid
    rw [getUserChannel, mem_ids_insertPairs]
    exact .inl hid
  · intro id hid
    obtain ⟨item, hitem, rfl⟩ := List.mem_map.mp hid
    refine ⟨cutId item, ?_, channelKeys_cutId (hmap item hitem).2⟩
    have hpair : (cutId item, item.2) ∈ map.map fun item => (cutId item, item.2) :=
      List.mem_map.mpr ⟨item, hitem, rfl⟩
    rw [getUserChannel, mem_ids_insertPairs, List.mem_map]
    refine .inr ⟨rfl, (cutId item, item.2), hpair, ?_⟩
    -- `rfl` would compute the cut
    dsimp only

variable {client : RedisClient} {http : Http} {cache : Redis}

theorem Tidy.not_member (h : Tidy c) (hempty : c.getUserChannel userId = []) (key : Text) :
    c.members key userId = false := by
  by_contra htrue
  obtain ⟨id, hid, -⟩ := h.listed userId key (Bool.not_eq_false _ ▸ htrue)
  rw [hempty] at hid
  cases hid

theorem Tidy.addLoginCacheInfo (h : Tidy c) (hclient : client.Documented)
    (huser : PlainUser userId) (hhttp : PlainHttp http)
    (htask : addLoginCacheInfo client http c userId = some c') : Tidy c' := by
  have hfam : Families channelOfflineUserKey channelUserKey := .inr ⟨rfl, rfl⟩
  unfold Login.addLoginCacheInfo at htask
  dsimp only at htask
  split at htask
  · next hempty =>
    split at htask
    · next hne =>
      obtain ⟨c₁, hstored, hgrown, hlisted⟩ :=
        addChannelToUser_plain hclient huser (plainMap_getUserRadioIds hhttp) hne c
      rw [hstored] at htask
      cases htask
      refine (h.grown hgrown).move ⟨?_, hlisted⟩ hfam
      intro key hmember
      rw [hgrown.members, h.not_member hempty] at hmember
      cases hmember
    · cases htask
      exact h
  · cases htask
    exact h.move (h.covers userId) hfam

theorem Tidy.removeLoginCacheInfo (h : Tidy c) (hclient : client.Documented)
    (huser : PlainUser userId) (hhttp : PlainHttp http)
    (htask : removeLoginCacheInfo client http cache c userId = some c') :
    Tidy c' ∧ ∀ id, c'.members (channelUserKey id) userId = false := by
  have hfam : Families channelUserKey channelOfflineUserKey := .inl ⟨rfl, rfl⟩
  unfold Login.removeLoginCacheInfo at htask
  dsimp only at htask
  split at htask
  · next hempty =>
    split at htask
    · next hne =>
      obtain ⟨c₁, hstored, hgrown, -⟩ :=
        addChannelToUser_plain hclient huser (plainMap_getUserRadioIds hhttp) hne c
      rw [hstored] at htask
      cases htask
      refine ⟨h.grown hgrown, ?_⟩
      intro id
      rw [hgrown.members]
      exact h.not_member hempty _
    · cases htask
      exact ⟨h, fun id => h.not_member hempty _⟩
  · cases htask
    exact ⟨h.move (h.covers userId) hfam, (h.covers userId).not_member_move hfam⟩

theorem Tidy.loginChannelPush (h : Tidy c) (hclient : client.Documented)
    (huser : PlainUser userId) (hhttp : PlainHttp http) {cache' : Redis}
    (htask : loginChannelPush client http cache c userId = some (cache', c')) : Tidy c' := by
  unfold Login.loginChannelPush at htask
  dsimp only at htask
  split at htask
  · next hne =>
    obtain ⟨c₁, hstored, hgrown, -⟩ :=
      addChannelToUser_plain hclient huser (plainMap_getUserRadioIds hhttp) hne c
    rw [hstored] at htask
    cases htask
    exact h.grown hgrown
  · cases htask
    exact h

namespace Server

variable {s s' : Server}

/-- A task that runs is for a user with a plain id, and is answered with plain channel ids. -/
def Plain (s : Server) : Event → Prop
  | .task i http => (∀ task ∈ s.tasks[i]?, PlainUser task.userId) ∧ PlainHttp http
  | _ => True

instance (s : Server) (e : Event) : Decidable (s.Plain e) := by
  cases e <;> unfold Plain <;> infer_instance

theorem tidy_runTask {task : Task} (h : Tidy s.channels) (hclient : client.Documented)
    (huser : PlainUser task.userId) (hhttp : PlainHttp http)
    (hrun : s.runTask client http task = some s') : Tidy s'.channels := by
  cases task with
  | addLoginCacheInfo userId =>
    obtain ⟨c, htask, rfl⟩ := Option.map_eq_some_iff.mp hrun
    exact h.addLoginCacheInfo hclient huser hhttp htask
  | removeLoginCacheInfo userId =>
    obtain ⟨c, htask, rfl⟩ := Option.map_eq_some_iff.mp hrun
    exact (h.removeLoginCacheInfo hclient huser hhttp htask).1
  | loginChannelPush userId =>
    obtain ⟨⟨cache, c⟩, htask, rfl⟩ := Option.map_eq_some_iff.mp hrun
    exact h.loginChannelPush hclient huser hhttp htask

theorem tidy_step {e : Event} (h : Tidy s.channels) (hclient : client.Documented) (hplain : s.Plain e)
    (hstep : s.step client e = some s') : Tidy s'.channels := by
  cases e with
  | task i http =>
    simp only [step] at hstep
    split at hstep
    · next task htask =>
      have htaken : Tidy ({ s with tasks := s.tasks.eraseIdx i } : Server).channels := h
      exact tidy_runTask htaken hclient (hplain.1 task htask) hplain.2 hstep
    · cases hstep
  | login env msg =>
    cases hstep
    exact h
  | logout env userId =>
    cases hstep
    exact h
  | cmLoginNotify env msg =>
    cases hstep
    exact h
  | phpLoginNotify env msg =>
    cases hstep
    exact h
  | pushTokenSync msg =>
    cases hstep
    exact h

/-- No user is in any set; lists of channels may be there already. -/
def start (cache : Redis) (lists : Text → ChannelMap) : Server where
  cache := cache
  channels := { lists := lists }

/-- What is claimed of the sets in a state: no user is in both sets of a channel, and one whose
record is removed is in no set of users who are online. -/
structure SetsKept (client : RedisClient) (s : Server) : Prop where
  apart : ∀ u id, ¬ (s.channels.members (channelUserKey id) u = true ∧
    s.channels.members (channelOfflineUserKey id) u = true)
  removed : ∀ i http u s', s.tasks[i]? = some (.removeLoginCacheInfo u) → s.Plain (.task i http) →
    s.step client (.task i http) = some s' → ∀ id, s'.channels.members (channelUserKey id) u = false

/-- In every run with plain ids, no user is in both sets of a channel, and after
`removeLoginCacheInfo` the user is in no online set. -/
theorem sets_kept {cache : Redis} {lists : Text → ChannelMap} (hclient : client.Documented)
    (hreach : Run.Reaches (step client) Plain (start cache lists) s) : SetsKept client s := by
  have htidy : Tidy s.channels := by
    refine hreach.invariant (fun s => Tidy s.channels) ⟨?_, ?_⟩ ?_
    · intro u key hmember
      cases hmember
    · exact fun u => .inl fun id => rfl
    · exact fun s e s' h hplain hstep => tidy_step h hclient hplain hstep
  constructor
  · rintro u id ⟨honline, hoffline⟩
    obtain hnone | hnone := htidy.apart u
    · rw [hnone id] at honline
      cases honline
    · rw [hnone id] at hoffline
      cases hoffline
  · intro i http u s' htask hplain hstep
    simp only [step, htask] at hstep
    obtain ⟨c, hremove, rfl⟩ := Option.map_eq_some_iff.mp hstep
    exact (htidy.removeLoginCacheInfo hclient (hplain.1 _ htask) hplain.2 hremove).2

/-- A client that reads decimal numbers, and splits every text at its blanks. -/
def splitClient : RedisClient where
  args text := some (CText.words text)
  score text :=
    if text ≠ [] ∧ ∀ b ∈ text, 48 ≤ b ∧ b ≤ 57 then
      some (text.foldl (fun n b => 10 * n + (b.toNat - 48)) 0)
    else none

theorem documented_splitClient : splitClient.Documented := by
  refine ⟨fun _ _ => rfl, fun n _ => ?_⟩
  have hne : decimal n ≠ [] := CText.bytes_toString_ne_nil n
  have hdigits : ∀ b ∈ decimal n, 48 ≤ b ∧ b ≤ 57 := fun b => CText.mem_bytes_toString
  exact (if_pos ⟨hne, hdigits⟩).trans (congrArg some (CText.foldl_bytes_toString n))

/-- The service says that the user is in one channel. -/
def oneChannel (id : String) : Http where
  radioIds := some [⟨CText.bytes id, 0, 0⟩]

/-- User 7 logs in and his channel is fetched; then his link is closed. -/
def loginAndClose (id : String) : List Event :=
  [.login { answer := some "200" }
      { userId := "7", loginToken := "k", deviceToken := "d", loginIp := "10.0.0.9",
        loginPort := 8000, host := "10.0.0.1:80" },
    .task 1 (oneChannel id),
    .cmLoginNotify {} { userId := "7", ip := "10.0.0.9", port := 8000, host := "10.0.0.1:80" }]

/-- The user is online in channel 5 until his removal runs. -/
theorem sets_kept_one_channel :
    ∃ s, Run.run (step splitClient) (start {} fun _ => []) (loginAndClose "5") = some s ∧
      s.channels.members (channelUserKey (CText.bytes "5")) "7" = true ∧
      s.tasks = [.loginChannelPush "7", .removeLoginCacheInfo "7"] ∧ SetsKept splitClient s := by
  have hrun : (Run.runGood (step splitClient) Plain (start {} fun _ => []) (loginAndClose "5")).map
      (fun s => (s.channels.members (channelUserKey (CText.bytes "5")) "7", s.tasks)) =
        some (true, [.loginChannelPush "7", .removeLoginCacheInfo "7"]) := by
    decide +kernel
  obtain ⟨s, hgood, heq⟩ := Option.map_eq_some_iff.mp hrun
  obtain ⟨hmember, htasks⟩ := Prod.mk.inj heq
  exact ⟨s, Run.run_of_runGood hgood, hmember, htasks,
    sets_kept documented_splitClient (Run.reaches_of_runGood hgood)⟩

/-- The list of a channel with blanks in its id is stored as other channels, and the user
stays in the online set after his removal. -/
theorem not_removed_blank :
    ∃ s, Run.run (step splitClient) (start {} fun _ => [])
        (loginAndClose "a 0 b" ++ [.task 1 {}]) = some s ∧
      s.tasks = [.loginChannelPush "7"] ∧
      s.channels.members (channelUserKey (CText.bytes "a 0 b")) "7" = true := by
  have hrun : (Run.run (step splitClient) (start {} fun _ => [])
      (loginAndClose "a 0 b" ++ [.task 1 {}])).map (fun s =>
        (s.tasks, s.channels.members (channelUserKey (CText.bytes "a 0 b")) "7")) =
          some ([.loginChannelPush "7"], true) := by
    decide +kernel
  obtain ⟨s, hsome, heq⟩ := Option.map_eq_some_iff.mp hrun
  obtain ⟨htasks, hmember⟩ := Prod.mk.inj heq
  exact ⟨s, hsome, htasks, hmember⟩

end Server

end Login

end ImServer
