import ImServer.Channel.ChannelNotify
import ImServer.Lib.Serial
import ImServer.Login.ChannelSets

/-!
# The order of notifications

The tasks of the notifications that a connection delivers go to a pool with several threads
(channel/thread_pool.h), so that they overlap, and one may overtake another. If tasks that overlap
touch different members, entries and fields, the redis data is in the end what it is when the
notifications are handled one after another.
-/

namespace ImServer

open Login (Text RedisClient ChannelMap)
open Login.ChannelRedis (userChannelKey channelUserKey channelOfflineUserKey)

/-- The smallest parts of the redis data that a command changes, so that commands on different ones
commute. -/
inductive Place where
  | member (key member : Text)
  | entry (key radioId : Text)
  | status (key : Text)
  | unspeak (key : Text)
  deriving DecidableEq, Repr

/-- What is at a place: a member counts as 0, and nothing is there for one that the set does not
have. -/
def ChannelDb.look (db : ChannelDb) : Place → Option Nat
  | .member key member => if member ∈ db.sets key then some 0 else none
  | .entry key radioId => (db.lists key).lookup radioId
  | .status key => some (db.infos key).status
  | .unspeak key => some (db.infos key).unspeak

/-- A place, or all members of a set. -/
inductive Region where
  | place (p : Place)
  | set (key : Text)
  deriving DecidableEq, Repr

def Region.Has : Region → Place → Prop
  | .place p, q => p = q
  | .set key, .member key' _ => key = key'
  | .set _, _ => False

def Region.meets : Region → Region → Bool
  | .place p, .place q => p = q
  | .set key, .place (.member key' _) | .place (.member key' _), .set key => key = key'
  | .set key, .set key' => key = key'
  | _, _ => false

theorem Region.meets_of_has {r r' : Region} {p : Place} (h : r.Has p) (h' : r'.Has p) :
    r.meets r' = true := by
  cases r with
  | place q =>
    cases h
    cases r' with
    | place q' => exact decide_eq_true h'.symm
    | set key =>
      cases p with
      | member key' member => exact decide_eq_true h'
      | entry | status | unspeak => cases h'
  | set key =>
    cases p with
    | entry | status | unspeak => cases h
    | member key' member =>
      cases h
      cases r' with
      | place q' =>
        cases h'
        exact decide_eq_true rfl
      | set key' => exact decide_eq_true h'.symm

theorem ChannelMap.lookup_cons (item : Text × Nat) (map : ChannelMap) (id : Text) :
    List.lookup id (item :: map) = if id = item.1 then some item.2 else map.lookup id := by
  rw [List.lookup_cons]
  by_cases h : id = item.1
  · rw [if_pos h, beq_iff_eq.mpr h]
  · rw [if_neg h, beq_eq_false_iff_ne.mpr h]

theorem ChannelMap.lookup_insertAt (map : ChannelMap) (id id' : Text) (setOn : Nat) :
    (ChannelMap.insertAt true id setOn map).lookup id' =
      if id' = id then some setOn else map.lookup id' := by
  induction map with
  | nil => exact lookup_cons ..
  | cons item rest ih =>
    unfold ChannelMap.insertAt
    split
    · next heq =>
      rw [if_pos rfl, lookup_cons, lookup_cons, heq]
      by_cases h : id' = id <;> simp [h]
    · next hne =>
      split
      · exact lookup_cons ..
      · rw [lookup_cons, lookup_cons, ih]
        by_cases h : id' = item.1
        · rw [if_pos h, if_neg fun heq => hne (h.symm.trans heq), if_pos h]
        · rw [if_neg h, if_neg h]

theorem ChannelMap.lookup_filter_ne (map : ChannelMap) (id id' : Text) :
    List.lookup id' (map.filter (·.1 ≠ id)) = if id' = id then none else map.lookup id' := by
  induction map with
  | nil => simp
  | cons item rest ih =>
    rw [List.filter_cons, lookup_cons]
    by_cases hitem : item.1 = id
    · rw [if_neg (by simpa using hitem), ih]
      by_cases h : id' = id
      · rw [if_pos h, if_pos h]
      · rw [if_neg h, if_neg h, if_neg fun heq => h (heq.trans hitem)]
    · rw [if_pos (by simpa using hitem), lookup_cons, ih]
      by_cases h : id' = item.1
      · rw [if_pos h, if_neg fun heq => hitem (h.symm.trans heq), if_pos h]
      · rw [if_neg h, if_neg h]

namespace ChannelDb

theorem local_updateSet {key : Text} {f : Finset Text → Finset Text} (touched : Text → Prop)
    (hkeep : ∀ set u, ¬ touched u → (u ∈ f set ↔ u ∈ set))
    (hwrite : ∀ set set' u, touched u → (u ∈ f set ↔ u ∈ f set')) :
    Local look {p | ∃ u, touched u ∧ p = .member key u} (·.updateSet key f) fun _ => () where
  keeps db p hp := by
    cases p with
    | entry | status | unspeak => rfl
    | member key' u =>
      by_cases hkey : key' = key
      · subst hkey
        have hu : ¬ touched u := fun hu => hp ⟨u, hu, rfl⟩
        simp [look, updateSet, hkeep _ u hu]
      · simp [look, updateSet, hkey]
  write db db' _ := by
    rintro p ⟨u, hu, rfl⟩
    simp [look, updateSet, hwrite (db.sets key) (db'.sets key) u hu]
  read _ _ _ := rfl

theorem local_sadd (key member : Text) :
    Local look {p | ∃ u, u = member ∧ p = .member key u} (·.sadd key member) fun _ => () :=
  local_updateSet (· = member) (fun set u hu => by simp [hu]) fun set set' u hu => by simp [hu]

theorem local_srem (key member : Text) :
    Local look {p | ∃ u, u = member ∧ p = .member key u} (·.srem key member) fun _ => () :=
  local_updateSet (· = member) (fun set u hu => by simp [hu]) fun set set' u hu => by simp [hu]

theorem local_del (key : Text) :
    Local look {p | ∃ u, True ∧ p = .member key u} (·.del key) fun _ => () :=
  local_updateSet (fun _ => True) (fun _ _ hu => absurd trivial hu) fun _ _ _ _ => Iff.rfl

theorem local_saddList (client : RedisClient) (key : Text) (members : List Text) :
    Local look {p | ∃ u, u ∈ (listWords client "SADD" key members).2 ∧
        p = .member (listWords client "SADD" key members).1 u}
      (·.saddList client key members) fun _ => () :=
  local_updateSet (f := (· ∪ (listWords client "SADD" key members).2.toFinset))
    (· ∈ (listWords client "SADD" key members).2) (fun set u hu => by simp [hu])
    fun set set' u hu => by simp [hu]

theorem local_sremList (client : RedisClient) (key : Text) (members : List Text) :
    Local look {p | ∃ u, u ∈ (listWords client "SREM" key members).2 ∧
        p = .member (listWords client "SREM" key members).1 u}
      (·.sremList client key members) fun _ => () :=
  local_updateSet (f := (· \ (listWords client "SREM" key members).2.toFinset))
    (· ∈ (listWords client "SREM" key members).2) (fun set u hu => by simp [hu])
    fun set set' u hu => by simp [hu]

theorem local_updateList {key radioId : Text} {f : ChannelMap → ChannelMap} {entry : Option Nat}
    (hf : ∀ (map : ChannelMap) id,
      List.lookup id (f map) = if id = radioId then entry else map.lookup id) :
    Local look {.entry key radioId} (·.updateList key f) fun _ => () where
  keeps db p hp := by
    cases p with
    | member | status | unspeak => rfl
    | entry key' id =>
      by_cases hkey : key' = key
      · subst hkey
        have hid : id ≠ radioId := by
          rintro rfl
          exact hp rfl
        simp [look, updateList, hf, hid]
      · simp [look, updateList, hkey]
  write db db' _ := by
    rintro p rfl
    simp [look, updateList, hf]
  read _ _ _ := rfl

theorem local_addChannelToUser (user : String) (radioId : Text) (status : Nat) :
    Local look {.entry (userChannelKey user) radioId} (·.addChannelToUser user radioId status)
      fun _ => () :=
  local_updateList fun map id => ChannelMap.lookup_insertAt map radioId id status

theorem local_removeChannelToUser (user : String) (radioId : Text) :
    Local look {.entry (userChannelKey user) radioId} (·.removeChannelToUser user radioId)
      fun _ => () :=
  local_updateList fun map id => ChannelMap.lookup_filter_ne map radioId id

theorem local_updateInfo {key : Text} {f : ChannelInfo → ChannelInfo} (touched : Set Place)
    (hstatus : .status key ∉ touched → ∀ info, (f info).status = info.status)
    (hunspeak : .unspeak key ∉ touched → ∀ info, (f info).unspeak = info.unspeak)
    (hwrite : ∀ db db', SameOn look touched (updateInfo db key f) (updateInfo db' key f)) :
    Local look touched (·.updateInfo key f) fun _ => () where
  keeps db p hp := by
    cases p with
    | member | entry => rfl
    | status key' =>
      by_cases hkey : key' = key
      · subst hkey
        simp [look, updateInfo, hstatus hp]
      · simp [look, updateInfo, hkey]
    | unspeak key' =>
      by_cases hkey : key' = key
      · subst hkey
        simp [look, updateInfo, hunspeak hp]
      · simp [look, updateInfo, hkey]
  write db db' _ := hwrite db db'
  read _ _ _ := rfl

theorem local_setChannelInfo (radioId : Text) (info : ChannelInfo) :
    Local look {.status (channelInfoKey radioId), .unspeak (channelInfoKey radioId)}
      (·.setChannelInfo radioId info) fun _ => () := by
  refine local_updateInfo _ (fun h => absurd (.inl rfl) h) (fun h => absurd (.inr rfl) h) ?_
  rintro db db' p (rfl | rfl) <;> simp [look, updateInfo]

theorem local_setChannelStatus (radioId : Text) (status : Nat) :
    Local look {.status (channelInfoKey radioId)} (·.setChannelStatus radioId status) fun _ => () := by
  refine local_updateInfo _ (fun h => absurd rfl h) (fun _ _ => rfl) ?_
  rintro db db' p rfl
  simp [look, updateInfo]

theorem local_setChannelSpeak (radioId : Text) (unspeak : Nat) :
    Local look {.unspeak (channelInfoKey radioId)} (·.setChannelSpeak radioId unspeak) fun _ => () := by
  refine local_updateInfo _ (fun _ _ => rfl) (fun h => absurd rfl h) ?_
  rintro db db' p rfl
  simp [look, updateInfo]

end ChannelDb

namespace Notice

variable (client : RedisClient) (login : Redis)

def listRegions (name : String) (key : Text) (members : List Text) : List Region :=
  let (key, words) := ChannelDb.listWords client name key members
  words.map fun word => .place (.member key word)

/-- What a notification touches. -/
def touches : Notice → List Region
  | .relation msg =>
    let radioId := CText.bytes msg.radioId
    let oprUser := CText.bytes msg.oprUserId
    let members := msg.mnpledUserId.map CText.bytes
    let userKey := channelUserKey radioId
    let offlineKey := channelOfflineUserKey radioId
    let adminKey := ChannelDb.channelAdminKey radioId
    let infoKey := ChannelDb.channelInfoKey radioId
    let entry (user : String) : Region := .place (.entry (userChannelKey user) radioId)
    match msg.notifyType with
    | .memberQuit =>
      [.place (.member userKey oprUser), .place (.member offlineKey oprUser), entry msg.oprUserId]
    | .apply =>
      entry msg.oprUserId ::
        if login.loginStatus msg.oprUserId = 0 then [] else [.place (.member userKey oprUser)]
    | .memberRemove =>
      listRegions client "SREM" userKey members ++ listRegions client "SREM" offlineKey members ++
        msg.mnpledUserId.map entry
    | .invite =>
      msg.mnpledUserId.map entry ++
        listRegions client "SADD" userKey (onlineUsers client login msg.mnpledUserId)
    | .dismiss => [.place (.status infoKey), .set userKey, .set offlineKey]
    | .create => [.place (.status infoKey), .place (.unspeak infoKey),
      .place (.member adminKey oprUser)]
    | .nospeak | .speaking => [.place (.unspeak infoKey)]
    | .adminSet => listRegions client "SADD" adminKey members
    | .adminUnset => listRegions client "SREM" adminKey members
    | .masterChanged =>
      listRegions client "SADD" adminKey members ++ [.place (.member adminKey oprUser)]
    | _ => []
  | .pushSet msg => [.place (.entry (userChannelKey msg.userId) (CText.bytes msg.radioId))]

/-- Two notifications touch something that both touch. -/
def meets (n n' : Notice) : Bool :=
  (n.touches client login).any fun r => (n'.touches client login).any r.meets

def places (n : Notice) : Set Place := {p | ∃ r ∈ n.touches client login, r.Has p}

variable {client} {login}

theorem disjoint_places {n n' : Notice} (h : ¬ n.meets client login n' = true) :
    Disjoint (n'.places client login) (n.places client login) := by
  refine Set.disjoint_left.mpr ?_
  rintro p ⟨r', hr', hp'⟩ ⟨r, hr, hp⟩
  exact h (List.any_eq_true.mpr ⟨r, hr, List.any_eq_true.mpr ⟨r', hr', Region.meets_of_has hp hp'⟩⟩)

theorem local_places {n : Notice} {f : ChannelDb → ChannelDb} {touched : Set Place}
    (h : Local ChannelDb.look touched f fun _ => ())
    (hsub : ∀ p ∈ touched, ∃ r ∈ n.touches client login, r.Has p) :
    Local ChannelDb.look (n.places client login) f fun _ => () :=
  h.mono hsub

theorem local_listRegions {name : String} {key : Text} {members : List Text} {p : Place}
    (hp : ∃ u, u ∈ (ChannelDb.listWords client name key members).2 ∧
      p = .member (ChannelDb.listWords client name key members).1 u) :
    ∃ r ∈ listRegions client name key members, r.Has p := by
  obtain ⟨u, hu, rfl⟩ := hp
  exact ⟨_, List.mem_map_of_mem hu, rfl⟩

/-- A command with a list of members that goes over the places of its words. -/
theorem local_withList {n : Notice} {members : List Text} {f : List Text → ChannelDb → ChannelDb}
    {name : String} {key : Text}
    (h : Local ChannelDb.look {p | ∃ u, u ∈ (ChannelDb.listWords client name key members).2 ∧
      p = .member (ChannelDb.listWords client name key members).1 u} (f members) fun _ => ())
    (hsub : ∀ r ∈ listRegions client name key members, r ∈ n.touches client login) :
    ∀ g ∈ withList members f, Local ChannelDb.look (n.places client login) g fun _ => () := by
  intro g hg
  unfold withList at hg
  split at hg
  · cases hg
  · rw [List.mem_singleton.mp hg]
    refine local_places h fun p hp => ?_
    obtain ⟨r, hr, hhas⟩ := local_listRegions hp
    exact ⟨r, hsub r hr, hhas⟩

theorem local_member {n : Notice} {key member : Text} {f : ChannelDb → ChannelDb}
    (h : Local ChannelDb.look {p | ∃ u, u = member ∧ p = .member key u} f fun _ => ())
    (htouch : Region.place (.member key member) ∈ n.touches client login) :
    Local ChannelDb.look (n.places client login) f fun _ => () := by
  refine local_places h ?_
  rintro p ⟨u, rfl, rfl⟩
  exact ⟨_, htouch, rfl⟩

theorem local_place {n : Notice} {p : Place} {f : ChannelDb → ChannelDb}
    (h : Local ChannelDb.look {p} f fun _ => ()) (htouch : Region.place p ∈ n.touches client login) :
    Local ChannelDb.look (n.places client login) f fun _ => () := by
  refine local_places h ?_
  rintro q rfl
  exact ⟨_, htouch, rfl⟩

open ChannelDb in
theorem local_updates (msg : SVRRadioMsgNotify) :
    ∀ f ∈ updates client login msg,
      Local look ((relation msg).places client login) f fun _ => () := by
  obtain ⟨radioId, oprUserId, users, type⟩ := msg
  intro f hf
  cases type with
  | memberQuit =>
    simp only [updates, List.mem_cons, List.not_mem_nil, or_false] at hf
    obtain rfl | rfl | rfl := hf
    · exact local_member (local_srem ..) (by simp [touches])
    · exact local_member (local_srem ..) (by simp [touches])
    · exact local_place (local_removeChannelToUser ..) (by simp [touches])
  | apply =>
    simp only [updates, List.mem_cons] at hf
    obtain rfl | hf := hf
    · exact local_place (local_addChannelToUser ..) (by simp [touches])
    · split at hf
      · cases hf
      · next hstatus =>
        rw [List.mem_singleton.mp hf]
        exact local_member (local_sadd ..) (by simp [touches, hstatus])
  | memberRemove =>
    simp only [updates, List.mem_append, List.mem_map] at hf
    obtain (hf | hf) | ⟨user, huser, rfl⟩ := hf
    · exact local_withList (local_sremList ..) (fun r hr => by simp [touches, hr]) f hf
    · exact local_withList (local_sremList ..) (fun r hr => by simp [touches, hr]) f hf
    · refine local_place (local_removeChannelToUser ..) ?_
      exact List.mem_append_right _ (List.mem_map_of_mem huser)
  | invite =>
    simp only [updates, List.mem_append, List.mem_map] at hf
    obtain ⟨user, huser, rfl⟩ | hf := hf
    · refine local_place (local_addChannelToUser ..) ?_
      exact List.mem_append_left _ (List.mem_map_of_mem huser)
    · exact local_withList (local_saddList ..) (fun r hr => by simp [touches, hr]) f hf
  | dismiss =>
    simp only [updates, List.mem_singleton] at hf
    rw [hf]
    exact local_place (local_setChannelStatus ..) (by simp [touches])
  | create =>
    simp only [updates, List.mem_cons, List.not_mem_nil, or_false] at hf
    obtain rfl | rfl := hf
    · refine local_places (local_setChannelInfo ..) ?_
      rintro p (rfl | rfl)
      · exact ⟨.place _, by simp [touches], rfl⟩
      · exact ⟨.place _, by simp [touches], rfl⟩
    · exact local_member (local_sadd ..) (by simp [touches])
  | nospeak | speaking =>
    simp only [updates, List.mem_singleton] at hf
    rw [hf]
    exact local_place (local_setChannelSpeak ..) (by simp [touches])
  | adminSet =>
    simp only [updates] at hf
    exact local_withList (local_saddList ..) (fun r hr => by simpa [touches] using hr) f hf
  | adminUnset =>
    simp only [updates] at hf
    exact local_withList (local_sremList ..) (fun r hr => by simpa [touches] using hr) f hf
  | masterChanged =>
    simp only [updates, List.mem_append, List.mem_singleton] at hf
    obtain hf | rfl := hf
    · exact local_withList (local_saddList ..) (fun r hr => by simp [touches, hr]) f hf
    · exact local_member (local_srem ..) (by simp [touches])
  | _ => cases hf

/-- Every command of a notification stays within what the notification touches. -/
theorem within_prog (n : Notice) :
    (n.prog client login).Within ChannelDb.look (n.places client login) := by
  cases n with
  | relation msg =>
    refine Prog.Within.bind (Prog.Within.writes _ (.done ()) (local_updates msg)) fun _ => ?_
    split
    · next hdismiss =>
      have hset {key : Text} (hkey : Region.set key ∈ (relation msg).touches client login) {p : Place}
          (hp : ∃ u, True ∧ p = .member key u) :
          ∃ r ∈ (relation msg).touches client login, r.Has p := by
        obtain ⟨u, -, rfl⟩ := hp
        exact ⟨_, hkey, rfl⟩
      have honline : Region.set (channelUserKey (CText.bytes msg.radioId)) ∈
          (relation msg).touches client login := by simp [touches, hdismiss]
      have hoffline : Region.set (channelOfflineUserKey (CText.bytes msg.radioId)) ∈
          (relation msg).touches client login := by simp [touches, hdismiss]
      refine .cmd (Local.look _ fun db db' hsame => ?_) fun db => ?_
      · have hempty : db.getChannelUser (CText.bytes msg.radioId) = ∅ ↔
            db'.getChannelUser (CText.bytes msg.radioId) = ∅ := by
          rw [Finset.eq_empty_iff_forall_notMem, Finset.eq_empty_iff_forall_notMem]
          refine forall_congr' fun u => not_congr ?_
          have hu := hsame _ (hset honline ⟨u, trivial, rfl⟩)
          simp only [ChannelDb.look] at hu
          unfold ChannelDb.getChannelUser
          split at hu <;> split at hu <;> simp_all
        simp only [hempty]
      · dsimp only
        split
        · exact .done ()
        · refine Prog.Within.writes _ (.done ()) ?_
          simp only [List.mem_cons, List.not_mem_nil, or_false, forall_eq_or_imp, forall_eq]
          exact ⟨local_places (ChannelDb.local_del _) fun p => hset honline,
            local_places (ChannelDb.local_del _) fun p => hset hoffline⟩
    · exact .done ()
  | pushSet msg =>
    refine .cmd (Local.look _ fun _ _ _ => rfl) fun _ => ?_
    exact Prog.Within.writes [_] (.done ()) fun f hf => by
      rw [List.mem_singleton.mp hf]
      exact local_place (ChannelDb.local_addChannelToUser ..) (by simp [touches])

/-- The same sets, the same entries with the same settings on each list, and the same hashes. -/
structure SameData (db db' : ChannelDb) : Prop where
  sets : db.sets = db'.sets
  lists : ∀ key radioId, (db.lists key).lookup radioId = (db'.lists key).lookup radioId
  infos : db.infos = db'.infos

theorem sameData_of_look {db db' : ChannelDb} (h : db.look = db'.look) : SameData db db' where
  sets := by
    funext key
    ext u
    have hu := congrFun h (.member key u)
    simp only [ChannelDb.look] at hu
    split at hu <;> split at hu <;> simp_all
  lists key radioId := congrFun h (.entry key radioId)
  infos := by
    funext key
    have hstatus := congrFun h (.status key)
    have hunspeak := congrFun h (.unspeak key)
    simp only [ChannelDb.look, Option.some.injEq] at hstatus hunspeak
    cases hinfo : db.infos key
    cases hinfo' : db'.infos key
    simp_all

variable {ω : Type} [DecidableEq ω]

/-- The threads of the pool with the tasks of the notifications. -/
abbrev step (client : RedisClient) (login : Redis) :
    Service ω Notice ChannelDb → Service.Event ω Notice → Option (Service ω Notice ChannelDb) :=
  Service.step (prog client login)

/-- Notifications that overlap touch different things, so that no thread changes what another one is
working on. -/
abbrev Apart (client : RedisClient) (login : Redis) :
    Service ω Notice ChannelDb → Service.Event ω Notice → Prop :=
  Service.Apart fun n n' => n.meets client login n' = true

/-- When all is done, the data is that of the notifications one after another. -/
theorem notices_in_order {db : ChannelDb} {s : Service ω Notice ChannelDb}
    (h : Run.Reaches (step client login) (Apart client login) { store := db } s)
    (hqueue : s.crew.queue = []) (hidle : ∀ w, s.crew.running w = none) :
    SameData s.store (s.crew.added.foldl (handle client login) db) := by
  refine sameData_of_look ?_
  rw [Service.view_store within_prog (fun n n' => disjoint_places) h hqueue hidle, Service.serial,
    Prog.runAll, List.foldl_map]
  rfl

/-- User 2 enters a channel, and `second` is a notification of his too. -/
def applyAnd (radioId : String) (second : NotifyType) : List (Service.Event (Bool) Notice) :=
  [.add (.relation { radioId := "5", oprUserId := "2", notifyType := .apply }),
    .add (.relation { radioId := radioId, oprUserId := "2", notifyType := second }), .take false,
    .take true, .turn true]

/-- Two applications for different channels, the second of which is done first. -/
theorem notices_in_order_apart :
    (∃ s, Run.runGood (step Login.Server.splitClient {}) (Apart Login.Server.splitClient {})
        { store := {} } (applyAnd "6" .apply ++ [.turn false, .finish false, .finish true]) = some s ∧
      s.crew.queue = [] ∧ (∀ w, s.crew.running w = none) ∧
      SameData s.store (s.crew.added.foldl (handle Login.Server.splitClient {}) {})) := by
  obtain ⟨s, hs⟩ := Option.isSome_iff_exists.mp
    (by decide +kernel : (Run.runGood (step Login.Server.splitClient {})
      (Apart Login.Server.splitClient {}) { store := {} }
      (applyAnd "6" .apply ++ [.turn false, .finish false, .finish true])).isSome)
  have hdone : ∀ s ∈ Run.runGood (step Login.Server.splitClient {}) (Apart Login.Server.splitClient {})
      { store := {} } (applyAnd "6" .apply ++ [.turn false, .finish false, .finish true]),
      s.crew.queue = [] ∧ ∀ w, s.crew.running w = none := by decide +kernel
  obtain ⟨hqueue, hidle⟩ := hdone s hs
  exact ⟨s, hs, hqueue, hidle, notices_in_order (Run.reaches_of_runGood hs) hqueue hidle⟩

/-- The user quits the channel, and the task of his application is done last. -/
def quitOvertakes : List (Service.Event (Bool) Notice) :=
  applyAnd "5" .memberQuit ++
    [Service.Event.turn true, .turn true, .finish true, .turn false, .finish false]

theorem not_notices_in_order :
    ¬ ∀ s : Service (Bool) Notice ChannelDb,
        Run.Reaches (step Login.Server.splitClient {}) (fun _ _ => True) { store := {} } s →
          s.crew.queue = [] → (∀ w, s.crew.running w = none) →
            SameData s.store (s.crew.added.foldl (handle Login.Server.splitClient {}) {}) := by
  intro hsame
  obtain ⟨s, hs⟩ := Option.isSome_iff_exists.mp
    (by decide +kernel : (Run.runGood (step Login.Server.splitClient {}) (fun _ _ => True)
      { store := {} } quitOvertakes).isSome)
  have hbad : ∀ s ∈ Run.runGood (step Login.Server.splitClient {}) (fun _ _ => True) { store := {} }
      quitOvertakes, s.crew.queue = [] ∧ (∀ w, s.crew.running w = none) ∧
        (s.store.lists (userChannelKey "2")).lookup (CText.bytes "5") ≠
          ((s.crew.added.foldl (handle Login.Server.splitClient {}) {}).lists
            (userChannelKey "2")).lookup (CText.bytes "5") := by decide +kernel
  obtain ⟨hqueue, hidle, hlist⟩ := hbad s hs
  exact hlist ((hsame s (Run.reaches_of_runGood hs) hqueue hidle).lists _ _)

end Notice

end ImServer
