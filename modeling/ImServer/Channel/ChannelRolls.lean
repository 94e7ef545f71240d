import ImServer.Channel.ChannelNotify
import Mathlib.Data.Set.Insert

/-!
# What notifications say about channels

Apart from keys and texts a channel has an information record, three sets of users and the users on
whose lists it is, and a notification changes these. As long as ids are plain (not too long for
their keys, and single words of a command), the redis data shows just this after each notification.
-/

namespace ImServer

open Login (Text RedisClient ChannelMap)
open Login.ChannelRedis (IsWord keyOf userChannelKey channelUserKey channelOfflineUserKey)

theorem bytes_inj {a b : String} : CText.bytes a = CText.bytes b ↔ a = b :=
  CText.bytes_injective.eq_iff

/-- The families of sets that each channel has. -/
inductive Family where
  | online
  | offline
  | admin
  deriving DecidableEq, Repr

def Family.key : Family → Text → Text
  | .online => channelUserKey
  | .offline => channelOfflineUserKey
  | .admin => ChannelDb.channelAdminKey

structure Rolls where
  info : String → ChannelInfo := fun _ => {}
  sets : Family → String → Set String := fun _ _ => ∅
  /-- The users who have the channel on their lists. -/
  listed : String → Set String := fun _ => ∅
  /-- Channels that were dismissed. -/
  gone : Set String := ∅

namespace Rolls

variable (client : RedisClient) (login : Redis) (m : Rolls)

def updateInfo (radioId : String) (f : ChannelInfo → ChannelInfo) : Rolls :=
  { m with info := Function.update m.info radioId (f (m.info radioId)) }

def updateSet (family : Family) (radioId : String) (f : Set String → Set String) : Rolls :=
  { m with
    sets := Function.update m.sets family
      (Function.update (m.sets family) radioId (f (m.sets family radioId))) }

def updateListed (radioId : String) (f : Set String → Set String) : Rolls :=
  { m with listed := Function.update m.listed radioId (f (m.listed radioId)) }

def note : Notice → Rolls
  | .relation msg =>
    let radioId := msg.radioId
    let users := {user | user ∈ msg.mnpledUserId}
    match msg.notifyType with
    | .memberQuit =>
      ((m.updateSet .online radioId (· \ {msg.oprUserId})).updateSet .offline radioId
        (· \ {msg.oprUserId})).updateListed radioId (· \ {msg.oprUserId})
    | .apply =>
      (m.updateListed radioId (insert msg.oprUserId)).updateSet .online radioId fun set =>
        set ∪ {user | user = msg.oprUserId ∧ login.loginStatus user ≠ 0}
    | .memberRemove =>
      ((m.updateSet .online radioId (· \ users)).updateSet .offline radioId (· \ users)).updateListed
        radioId (· \ users)
    | .invite =>
      (m.updateListed radioId (· ∪ users)).updateSet .online radioId fun set =>
        set ∪ {user | user ∈ users ∧ login.loginStatus user = 1}
    | .dismiss =>
      { m.updateInfo radioId fun info => { info with status := chnnDismiss } with
        gone := insert radioId m.gone }
    | .create =>
      (m.updateInfo radioId fun _ => ⟨chnnNormal, 0⟩).updateSet .admin radioId (insert msg.oprUserId)
    | .nospeak => m.updateInfo radioId fun info => { info with unspeak := 1 }
    | .speaking => m.updateInfo radioId fun info => { info with unspeak := 0 }
    | .adminSet => m.updateSet .admin radioId (· ∪ users)
    | .adminUnset => m.updateSet .admin radioId (· \ users)
    | .masterChanged =>
      (m.updateSet .admin radioId (· ∪ users)).updateSet .admin radioId (· \ {msg.oprUserId})
    | _ => m
  | .pushSet msg => m.updateListed msg.radioId (insert msg.userId)

end Rolls

/-- A channel id that fits in all its keys, is one word of a command and has no NUL. -/
def PlainChannel (radioId : String) : Prop :=
  IsWord (CText.bytes radioId) ∧ (CText.bytes radioId).length ≤ 109 ∧ 0 ∉ CText.bytes radioId

/-- A user id that fits in its keys, is one word of a command and has no underscore and no NUL. -/
def PlainMember (userId : String) : Prop :=
  IsWord (CText.bytes userId) ∧ (CText.bytes userId).length ≤ 111 ∧ 95 ∉ CText.bytes userId ∧
    0 ∉ CText.bytes userId

instance (radioId : String) : Decidable (PlainChannel radioId) := inferInstanceAs (Decidable (_ ∧ _))

instance (userId : String) : Decidable (PlainMember userId) := inferInstanceAs (Decidable (_ ∧ _))

def Notice.Plain : Notice → Prop
  | .relation msg =>
    PlainChannel msg.radioId ∧ PlainMember msg.oprUserId ∧ ∀ user ∈ msg.mnpledUserId, PlainMember user
  | .pushSet msg => PlainChannel msg.radioId ∧ PlainMember msg.userId

instance : (notice : Notice) → Decidable notice.Plain
  | .relation _ => inferInstanceAs (Decidable (_ ∧ _ ∧ _))
  | .pushSet _ => inferInstanceAs (Decidable (_ ∧ _))

theorem PlainChannel.cStr {c : String} (hc : PlainChannel c) :
    CText.cStr (CText.bytes c) = CText.bytes c :=
  CText.cStr_eq_self_iff.mpr hc.2.2

theorem keyOf_inj {pre : String} {a b : Text} (ha : (CText.bytes pre).length + a.length ≤ 127)
    (hb : (CText.bytes pre).length + b.length ≤ 127) : keyOf pre a = keyOf pre b ↔ a = b := by
  rw [keyOf, keyOf, List.take_of_length_le (by simpa using ha),
    List.take_of_length_le (by simpa using hb), List.append_cancel_left_eq]

/-- What the keys of a family begin with. -/
def Family.start : Family → Text
  | .online => CText.bytes "CHNN_USER_"
  | .offline => CText.bytes "CHNN_OFFLINE_USER_"
  | .admin => CText.bytes "CHNN_ADMIN_"

/-- The letter in which the keys of the families differ. -/
def Family.letter : Family → UInt8
  | .online => 85
  | .offline => 79
  | .admin => 65

theorem Family.letter_inj {f g : Family} : f.letter = g.letter ↔ f = g := by
  constructor
  · cases f <;> cases g <;> decide
  · rintro rfl
    rfl

theorem Family.length_start_le (f : Family) : f.start.length ≤ 18 := by
  cases f <;> decide

theorem Family.getElem?_start (f : Family) : f.start[5]? = some f.letter := by
  cases f <;> decide

theorem Family.key_eq (f : Family) {c : String} (hc : PlainChannel c) :
    f.key (CText.bytes c) = f.start ++ CText.bytes c := by
  have hstart := f.length_start_le
  have hlength := hc.2.1
  have hcut : f.key (CText.bytes c) = (f.start ++ CText.bytes c).take 127 := by
    cases f with
    | online => rfl
    | offline => rfl
    | admin =>
      rw [Family.key, ChannelDb.channelAdminKey, hc.cStr]
      rfl
  rw [hcut]
  refine List.take_of_length_le ?_
  rw [List.length_append]
  omega

theorem key_inj {f g : Family} {c d : String} (hc : PlainChannel c) (hd : PlainChannel d) :
    f.key (CText.bytes c) = g.key (CText.bytes d) ↔ f = g ∧ c = d := by
  constructor
  · intro h
    rw [f.key_eq hc, g.key_eq hd] at h
    have hletter (k : Family) (rest : Text) : (k.start ++ rest)[5]? = some k.letter := by
      have hfive := k.getElem?_start
      rwa [List.getElem?_append_left (List.getElem?_eq_some_iff.mp hfive).1]
    have hfamily : some f.letter = some g.letter := by
      rw [← hletter f (CText.bytes c), h, hletter]
    obtain rfl := Family.letter_inj.mp (Option.some.inj hfamily)
    exact ⟨rfl, bytes_inj.mp (List.append_cancel_left h)⟩
  · rintro ⟨rfl, rfl⟩
    rfl

theorem infoKey_inj {c d : String} (hc : PlainChannel c) (hd : PlainChannel d) :
    ChannelDb.channelInfoKey (CText.bytes c) = ChannelDb.channelInfoKey (CText.bytes d) ↔ c = d := by
  have hpre : (CText.bytes "CHNN_INFO_").length = 10 := by decide
  have hclen := hc.2.1
  have hdlen := hd.2.1
  rw [ChannelDb.channelInfoKey, ChannelDb.channelInfoKey, hc.cStr, hd.cStr,
    keyOf_inj (by omega) (by omega), bytes_inj]

theorem listKey_inj {u v : String} (hu : PlainMember u) (hv : PlainMember v) :
    userChannelKey u = userChannelKey v ↔ u = v := by
  have hpre : (CText.bytes "USER_CHNNSTATUS_").length = 16 := by decide
  have hulen := hu.2.1
  have hvlen := hv.2.1
  rw [userChannelKey, userChannelKey, keyOf_inj (by omega) (by omega), bytes_inj]

theorem isWord_append {a b : Text} (ha : IsWord a) (hb : IsWord b) : IsWord (a ++ b) := by
  refine ⟨fun h => ha.1 (List.append_eq_nil_iff.mp h).1, ?_, ?_⟩
  · rw [List.mem_append]
    exact not_or.mpr ⟨ha.2.1, hb.2.1⟩
  · rw [List.mem_append]
    exact not_or.mpr ⟨ha.2.2, hb.2.2⟩

theorem isWord_key (f : Family) {c : String}
    (hc : PlainChannel c) : IsWord (f.key (CText.bytes c)) := by
  rw [f.key_eq hc]
  exact isWord_append (by cases f <;> decide) hc.1

variable {client : RedisClient} {login : Redis}

theorem listWords_of_words (hclient : client.Documented) {name : String} {key : Text}
    {members : List Text} (hname : IsWord (CText.bytes name)) (hkey : IsWord key)
    (hmembers : ∀ member ∈ members, IsWord member) :
    ChannelDb.listWords client name key members = (key, members) := by
  have htext : Cache.listText name key members =
      [32].intercalate (CText.bytes name :: key :: members) := by
    rw [CText.intercalate_cons]
    simp [Cache.listText, Cache.blanked]
  have hwords : ∀ word ∈ CText.bytes name :: key :: members, IsWord word := by
    simp only [List.mem_cons, forall_eq_or_imp]
    exact ⟨hname, hkey, hmembers⟩
  have hformat : 37 ∉ Cache.listText name key members := by
    simp only [Cache.listText, Cache.blanked, List.mem_append, List.mem_cons, List.mem_flatMap, not_or]
    refine ⟨⟨hname.2.2, by decide, hkey.2.2⟩, ?_⟩
    rintro ⟨member, hmember, heq | hmem⟩
    · exact absurd heq (by decide)
    · exact (hmembers member hmember).2.2 hmem
  rw [ChannelDb.listWords, hclient.args _ hformat, htext, CText.words_intercalate (by simp)
    fun word hword => ⟨(hwords word hword).1, (hwords word hword).2.1⟩]

theorem saddList_plain (hclient : client.Documented) (db : ChannelDb) {f : Family} {c : String}
    (hc : PlainChannel c) {members : List Text} (hmembers : ∀ member ∈ members, IsWord member) :
    db.saddList client (f.key (CText.bytes c)) members =
      db.updateSet (f.key (CText.bytes c)) (· ∪ members.toFinset) := by
  rw [ChannelDb.saddList, listWords_of_words hclient (by decide) (isWord_key f hc) hmembers]

theorem sremList_plain (hclient : client.Documented) (db : ChannelDb) {f : Family} {c : String}
    (hc : PlainChannel c) {members : List Text} (hmembers : ∀ member ∈ members, IsWord member) :
    db.sremList client (f.key (CText.bytes c)) members =
      db.updateSet (f.key (CText.bytes c)) (· \ members.toFinset) := by
  rw [ChannelDb.sremList, listWords_of_words hclient (by decide) (isWord_key f hc) hmembers]

theorem ChannelDb.updateSet_self {db : ChannelDb} {key : Text} {f : Finset Text → Finset Text}
    (hf : f (db.sets key) = db.sets key) : db.updateSet key f = db := by
  rw [updateSet, hf, Function.update_eq_self]

theorem isWord_bytes {users : List String} (husers : ∀ user ∈ users, PlainMember user) :
    ∀ member ∈ users.map CText.bytes, IsWord member := by
  intro member hmember
  obtain ⟨user, huser, rfl⟩ := List.mem_map.mp hmember
  exact (husers user huser).1

theorem loginInfoKey_eq {u : String} (hu : PlainMember u) :
    ChannelDb.loginInfoKey u = CText.bytes "CM_" ++ CText.bytes u := by
  have hpre : (CText.bytes "CM_").length = 3 := by decide
  have hlen := hu.2.1
  rw [ChannelDb.loginInfoKey, CText.cStr_eq_self_iff.mpr hu.2.2.2, keyOf,
    List.take_of_length_le (by rw [List.length_append]; omega)]

theorem loginInfoKey_plain {u : String} (hu : PlainMember u) :
    ChannelDb.loginInfoKey u = CText.bytes (Redis.cmKey u) := by
  rw [loginInfoKey_eq hu]
  simp [Redis.cmKey, CText.bytes]

/-- The status that a notification sees is that of the record of the user. -/
theorem loginStatus_plain {u : String} (hu : PlainMember u) :
    login.loginStatus u =
      CText.atoi (((login.hash (Redis.cmKey u)).bind fun h => h .status).getD "") := by
  rw [Redis.loginStatus, Redis.fieldAt, loginInfoKey_plain hu, textOf_bytes]
  rfl

theorem hmgetText_plain {u : String} (hu : PlainMember u) :
    Cache.hmgetText (Redis.loginInfoFields.map fun f => CText.bytes f.name) (ChannelDb.loginInfoKey u) =
      [32].intercalate (CText.bytes "HMGET" :: ChannelDb.loginInfoKey u ::
        Redis.loginInfoFields.map fun f => CText.bytes f.name) := by
  have hnul : 0 ∉ ChannelDb.loginInfoKey u := by
    rw [loginInfoKey_eq hu, List.mem_append]
    exact not_or.mpr ⟨by decide, hu.2.2.2⟩
  have hcstr : Cache.cstr (ChannelDb.loginInfoKey u) = ChannelDb.loginInfoKey u := by
    refine List.takeWhile_eq_self_iff.mpr fun b hb => decide_eq_true ?_
    rintro rfl
    exact hnul hb
  have hfields : Cache.cstr (Cache.blanked (Redis.loginInfoFields.map fun f => CText.bytes f.name)) =
      (Redis.loginInfoFields.map fun f => CText.bytes f.name).flatMap (32 :: ·) := by decide +kernel
  have hsize :
      ((Redis.loginInfoFields.map fun f => CText.bytes f.name).flatMap (32 :: ·)).length = 42 := by
    decide +kernel
  have hcommand : CText.bytes "HMGET " = CText.bytes "HMGET" ++ [32] := by decide +kernel
  have hcmdlen : (CText.bytes "HMGET").length = 5 := by decide +kernel
  have hpre : (CText.bytes "CM_").length = 3 := by decide
  have hlen := hu.2.1
  rw [Cache.hmgetText, hcstr, hfields, List.take_of_length_le, CText.intercalate_cons, hcommand]
  · simp
  · rw [hcommand, loginInfoKey_eq hu]
    simp only [List.length_append, hsize, hcmdlen, hpre, List.length_singleton]
    omega

theorem isWord_loginInfoKey {u : String} (hu : PlainMember u) : IsWord (ChannelDb.loginInfoKey u) := by
  rw [loginInfoKey_eq hu]
  exact isWord_append (by decide) hu.1

theorem firstField_plain (hclient : client.Documented) {u : String} (hu : PlainMember u) :
    login.firstField client (ChannelDb.loginInfoKey u) =
      some (login.fieldAt (ChannelDb.loginInfoKey u) .status) := by
  have hwords : ∀ word ∈ CText.bytes "HMGET" :: ChannelDb.loginInfoKey u ::
      Redis.loginInfoFields.map fun f => CText.bytes f.name, IsWord word := by
    simp only [List.mem_cons, forall_eq_or_imp]
    exact ⟨by decide +kernel, isWord_loginInfoKey hu, by decide +kernel⟩
  have hformat : 37 ∉ Cache.hmgetText (Redis.loginInfoFields.map fun f => CText.bytes f.name)
      (ChannelDb.loginInfoKey u) := by
    rw [hmgetText_plain hu, CText.intercalate_cons, List.mem_append, List.mem_flatMap]
    rintro (hmem | ⟨word, hword, hmem⟩)
    · exact (hwords _ List.mem_cons_self).2.2 hmem
    · obtain heq | hmem := List.mem_cons.mp hmem
      · exact absurd heq (by decide)
      · exact (hwords word (List.mem_cons_of_mem _ hword)).2.2 hmem
  rw [Redis.firstField, hclient.args _ hformat, hmgetText_plain hu, CText.words_intercalate (by simp)
    fun word hword => ⟨(hwords word hword).1, (hwords word hword).2.1⟩]
  have hfind : (RedisField.all.find? fun f => CText.bytes f.name = CText.bytes "status") =
      some .status := by decide +kernel
  obtain ⟨rest, hrest⟩ : ∃ rest, (Redis.loginInfoFields.map fun f => CText.bytes f.name) =
      CText.bytes "status" :: rest := ⟨_, rfl⟩
  rw [hrest]
  simp only [Option.map_some, hfind, Option.elim_some]

theorem userOfKey_plain {u : String} (hu : PlainMember u) :
    Redis.userOfKey (ChannelDb.loginInfoKey u) = CText.bytes u := by
  have hkey : ChannelDb.loginInfoKey u = [67, 77] ++ 95 :: CText.bytes u := by
    have hpre : CText.bytes "CM_" = [67, 77, 95] := by decide
    rw [loginInfoKey_eq hu, hpre]
    rfl
  have hall : ∀ b ∈ (CText.bytes u).reverse, decide (b ≠ 95) = true := by
    intro b hb
    refine decide_eq_true ?_
    rintro rfl
    exact hu.2.2.1 (List.mem_reverse.mp hb)
  rw [Redis.userOfKey, hkey, List.reverse_append, List.reverse_cons, List.append_assoc,
    List.takeWhile_append_of_pos hall]
  simp

theorem loginStatusList_plain (login : Redis) (hclient : client.Documented) {users : List String}
    (husers : ∀ user ∈ users, PlainMember user) :
    ∃ infos, login.loginStatusList client users = some infos ∧
      ∀ info, info ∈ infos ↔ ∃ user ∈ users, info = (CText.bytes user, login.loginStatus user) := by
  have hkeys : ∀ keys : List Text, (∀ key ∈ keys, ∃ user ∈ users, key = ChannelDb.loginInfoKey user) →
      ∃ infos, (keys.mapM fun key => (login.firstField client key).map fun status =>
          (Redis.userOfKey key, CText.atoi status)) = some infos ∧
        ∀ info, info ∈ infos ↔ ∃ user ∈ users, ChannelDb.loginInfoKey user ∈ keys ∧
          info = (CText.bytes user, login.loginStatus user) := by
    intro keys hkeys
    induction keys with
    | nil => exact ⟨[], rfl, by simp⟩
    | cons key keys ih =>
      obtain ⟨infos, hinfos, hmem⟩ := ih fun key hkey => hkeys key (List.mem_cons_of_mem _ hkey)
      obtain ⟨user, huser, rfl⟩ := hkeys key List.mem_cons_self
      have hplain := husers user huser
      refine ⟨(CText.bytes user, login.loginStatus user) :: infos, ?_, fun info => ?_⟩
      · rw [List.mapM_cons, hinfos, firstField_plain hclient hplain, userOfKey_plain hplain]
        rfl
      · rw [List.mem_cons, hmem]
        constructor
        · rintro (rfl | ⟨user', huser', hkey', rfl⟩)
          · exact ⟨user, huser, List.mem_cons_self, rfl⟩
          · exact ⟨user', huser', List.mem_cons_of_mem _ hkey', rfl⟩
        · rintro ⟨user', huser', hkey', rfl⟩
          obtain heq | hkey' := List.mem_cons.mp hkey'
          · rw [loginInfoKey_plain hplain, loginInfoKey_plain (husers user' huser'), bytes_inj,
              Redis.cmKey_inj] at heq
            exact .inl (by rw [heq])
          · exact .inr ⟨user', huser', hkey', rfl⟩
  obtain ⟨infos, hinfos, hmem⟩ := hkeys (users.map ChannelDb.loginInfoKey).dedup fun key hkey => by
    obtain ⟨user, huser, rfl⟩ := List.mem_map.mp (List.mem_dedup.mp hkey)
    exact ⟨user, huser, rfl⟩
  refine ⟨infos, hinfos, fun info => (hmem info).trans ?_⟩
  constructor
  · rintro ⟨user, huser, -, rfl⟩
    exact ⟨user, huser, rfl⟩
  · rintro ⟨user, huser, rfl⟩
    exact ⟨user, huser, List.mem_dedup.mpr (List.mem_map_of_mem huser), rfl⟩

theorem mem_onlineUsers (hclient : client.Documented) {users : List String}
    (husers : ∀ user ∈ users, PlainMember user) {member : Text} :
    member ∈ Notice.onlineUsers client login users ↔
      ∃ user ∈ users, login.loginStatus user = 1 ∧ member = CText.bytes user := by
  obtain ⟨infos, hinfos, hmem⟩ := loginStatusList_plain login hclient husers
  rw [Notice.onlineUsers, hinfos, Option.getD_some, List.mem_map]
  constructor
  · rintro ⟨info, hinfo, rfl⟩
    obtain ⟨hinfo, hstatus⟩ := List.mem_filter.mp hinfo
    obtain ⟨user, huser, rfl⟩ := (hmem info).mp hinfo
    exact ⟨user, huser, by simpa using hstatus, rfl⟩
  · rintro ⟨user, huser, hstatus, rfl⟩
    refine ⟨(CText.bytes user, login.loginStatus user), List.mem_filter.mpr ⟨?_, ?_⟩, rfl⟩
    · exact (hmem _).mpr ⟨user, huser, rfl⟩
    · simpa using hstatus

/-- The redis data shows the rolls of plain channels and users, up to the online and offline sets of
channels that were dismissed. -/
structure Shows (db : ChannelDb) (m : Rolls) : Prop where
  info : ∀ c, PlainChannel c → db.getChannelInfo (CText.bytes c) = m.info c
  sets : ∀ f c u, PlainChannel c → PlainMember u → f = .admin ∨ c ∉ m.gone →
    (CText.bytes u ∈ db.sets (f.key (CText.bytes c)) ↔ u ∈ m.sets f c)
  listed : ∀ c u, PlainChannel c → PlainMember u →
    (CText.bytes c ∈ (db.getUserChannel u).ids ↔ u ∈ m.listed c)

namespace Shows

variable {db : ChannelDb} {m : Rolls} {radioId : String}

theorem start : Shows {} {} where
  info _ _ := rfl
  sets _ _ _ _ _ _ := by simp
  listed _ _ _ _ := by simp [ChannelDb.getUserChannel, ChannelMap.ids]

theorem updateInfo (h : Shows db m) (hc : PlainChannel radioId) (f : ChannelInfo → ChannelInfo) :
    Shows (db.updateInfo (ChannelDb.channelInfoKey (CText.bytes radioId)) f)
      (m.updateInfo radioId f) where
  info c hplain := by
    have hinfo := h.info c hplain
    by_cases heq : c = radioId
    · subst heq
      simp only [ChannelDb.getChannelInfo] at hinfo
      simp [ChannelDb.getChannelInfo, ChannelDb.updateInfo, Rolls.updateInfo, hinfo]
    · have hkey := (infoKey_inj hplain hc).not.mpr heq
      simpa [ChannelDb.getChannelInfo, ChannelDb.updateInfo, Rolls.updateInfo, hkey, heq] using hinfo
  sets := h.sets
  listed := h.listed

theorem updateSet (h : Shows db m) (hc : PlainChannel radioId) (f : Family)
    {g : Finset Text → Finset Text} {g' : Set String → Set String}
    (hg : ∀ set set' u, PlainMember u → (CText.bytes u ∈ set ↔ u ∈ set') →
      (CText.bytes u ∈ g set ↔ u ∈ g' set')) :
    Shows (db.updateSet (f.key (CText.bytes radioId)) g) (m.updateSet f radioId g') where
  info := h.info
  sets f' c u hplain hu hgone := by
    have hsets := h.sets f' c u hplain hu hgone
    by_cases heq : f' = f ∧ c = radioId
    · obtain ⟨rfl, rfl⟩ := heq
      simp only [ChannelDb.updateSet, Rolls.updateSet, Function.update_self]
      exact hg _ _ u hu hsets
    · have hkey := (key_inj (f := f') (g := f) hplain hc).not.mpr heq
      have hother : (m.updateSet f radioId g').sets f' c = m.sets f' c := by
        by_cases hf : f' = f
        · subst hf
          simp [Rolls.updateSet, show c ≠ radioId from fun hc => heq ⟨rfl, hc⟩]
        · simp [Rolls.updateSet, hf]
      rw [hother]
      simpa [ChannelDb.updateSet, hkey] using hsets
  listed := h.listed

theorem updateListed (h : Shows db m) (hc : PlainChannel radioId) {user : String}
    (huser : PlainMember user) {g : ChannelMap → ChannelMap} {g' : Set String → Set String}
    (hself : CText.bytes radioId ∈ (g (db.getUserChannel user)).ids ↔ user ∈ g' (m.listed radioId))
    (hchannel : ∀ c, c ≠ radioId →
      (CText.bytes c ∈ (g (db.getUserChannel user)).ids ↔ CText.bytes c ∈ (db.getUserChannel user).ids))
    (huserOther : ∀ u set, u ≠ user → (u ∈ g' set ↔ u ∈ set)) :
    Shows (db.updateList (userChannelKey user) g) (m.updateListed radioId g') where
  info := h.info
  sets := h.sets
  listed c u hplain hu := by
    have hlisted := h.listed c u hplain hu
    have hlist : (db.updateList (userChannelKey user) g).getUserChannel u =
        if u = user then g (db.getUserChannel user) else db.getUserChannel u := by
      have hkey := listKey_inj hu huser
      by_cases heq : u = user
      · subst heq
        simp [ChannelDb.updateList, ChannelDb.getUserChannel]
      · simp [ChannelDb.updateList, ChannelDb.getUserChannel, heq, hkey.not.mpr heq]
    have hrolls : (m.updateListed radioId g').listed c =
        if c = radioId then g' (m.listed radioId) else m.listed c := by
      by_cases heq : c = radioId
      · subst heq
        simp [Rolls.updateListed]
      · simp [Rolls.updateListed, heq]
    rw [hlist, hrolls]
    by_cases hue : u = user
    · subst hue
      rw [if_pos rfl]
      by_cases hce : c = radioId
      · subst hce
        rwa [if_pos rfl]
      · rw [if_neg hce, hchannel c hce, hlisted]
    · rw [if_neg hue]
      by_cases hce : c = radioId
      · subst hce
        rw [if_pos rfl, huserOther u _ hue, hlisted]
      · rw [if_neg hce, hlisted]

theorem addChannelToUser (h : Shows db m) (hc : PlainChannel radioId) {user : String}
    (huser : PlainMember user) (status : Nat) :
    Shows (db.addChannelToUser user (CText.bytes radioId) status)
      (m.updateListed radioId (insert user)) := by
  refine h.updateListed hc huser ?_ ?_ ?_
  · simp [ChannelMap.mem_ids_insertAt]
  · intro c hce
    rw [ChannelMap.mem_ids_insertAt, or_iff_right fun heq => hce (bytes_inj.mp heq)]
  · intro u set hue
    simp [hue]

theorem removeChannelToUser (h : Shows db m) (hc : PlainChannel radioId) {user : String}
    (huser : PlainMember user) :
    Shows (db.removeChannelToUser user (CText.bytes radioId))
      (m.updateListed radioId (· \ {user})) := by
  have hmem (map : ChannelMap) (id : Text) :
      id ∈ ChannelMap.ids (map.filter (·.1 ≠ CText.bytes radioId)) ↔
        id ∈ map.ids ∧ id ≠ CText.bytes radioId := by
    simp only [ChannelMap.ids, List.mem_map, List.mem_filter, decide_eq_true_eq]
    constructor
    · rintro ⟨item, ⟨hitem, hne⟩, rfl⟩
      exact ⟨⟨item, hitem, rfl⟩, hne⟩
    · rintro ⟨⟨item, hitem, rfl⟩, hne⟩
      exact ⟨item, ⟨hitem, hne⟩, rfl⟩
  refine h.updateListed hc huser ?_ ?_ ?_
  · rw [hmem]
    simp
  · intro c hce
    rw [hmem, and_iff_left fun heq => hce (bytes_inj.mp heq)]
  · intro u set hue
    simp [hue]

theorem del (h : Shows db m) (hc : PlainChannel radioId) {f : Family} (hf : f ≠ .admin)
    (hgone : radioId ∈ m.gone) : Shows (db.del (f.key (CText.bytes radioId))) m where
  info := h.info
  sets f' c u hplain hu hshown := by
    have hkey : f'.key (CText.bytes c) ≠ f.key (CText.bytes radioId) := by
      rw [ne_eq, key_inj hplain hc]
      rintro ⟨rfl, rfl⟩
      exact hshown.elim hf fun hgone' => hgone' hgone
    simp only [ChannelDb.del, ChannelDb.updateSet, Function.update_of_ne hkey]
    exact h.sets f' c u hplain hu hshown
  listed := h.listed

end Shows

namespace Rolls

variable {m : Rolls} {radioId : String}

theorem updateSet_self {f : Family} {g : Set String → Set String} (hg : ∀ set, g set = set) :
    m.updateSet f radioId g = m := by
  rw [updateSet, hg, Function.update_eq_self, Function.update_eq_self]

theorem updateListed_self {g : Set String → Set String} (hg : ∀ set, g set = set) :
    m.updateListed radioId g = m := by
  rw [updateListed, hg, Function.update_eq_self]

theorem updateListed_updateListed (g g' : Set String → Set String) :
    (m.updateListed radioId g).updateListed radioId g' = m.updateListed radioId (g' ∘ g) := by
  simp [updateListed]

end Rolls

namespace Shows

variable {db : ChannelDb} {m : Rolls} {radioId : String}

theorem saddMembers (hclient : client.Documented) (h : Shows db m) (hc : PlainChannel radioId)
    (f : Family) {members : List Text} {users : Set String}
    (hwords : ∀ member ∈ members, IsWord member)
    (husers : ∀ u, PlainMember u → (CText.bytes u ∈ members ↔ u ∈ users)) :
    Shows ((Notice.withList members fun members db =>
        db.saddList client (f.key (CText.bytes radioId)) members).foldl (fun db f => f db) db)
      (m.updateSet f radioId (· ∪ users)) := by
  have hupdate : Shows (db.updateSet (f.key (CText.bytes radioId)) (· ∪ members.toFinset))
      (m.updateSet f radioId (· ∪ users)) := by
    refine h.updateSet hc f fun set set' u hu hset => ?_
    rw [Finset.mem_union, List.mem_toFinset, Set.mem_union, hset, husers u hu]
  unfold Notice.withList
  split
  · next hnone =>
    rw [ChannelDb.updateSet_self (by simp [hnone])] at hupdate
    exact hupdate
  · simp only [List.foldl_cons, List.foldl_nil]
    rw [saddList_plain hclient db hc hwords]
    exact hupdate

theorem sremMembers (hclient : client.Documented) (h : Shows db m) (hc : PlainChannel radioId)
    (f : Family) {users : List String} (husers : ∀ user ∈ users, PlainMember user) :
    Shows ((Notice.withList (users.map CText.bytes) fun members db =>
        db.sremList client (f.key (CText.bytes radioId)) members).foldl (fun db f => f db) db)
      (m.updateSet f radioId (· \ {user | user ∈ users})) := by
  have hupdate : Shows (db.updateSet (f.key (CText.bytes radioId)) (· \ (users.map CText.bytes).toFinset))
      (m.updateSet f radioId (· \ {user | user ∈ users})) := by
    refine h.updateSet hc f fun set set' u hu hset => ?_
    rw [Finset.mem_sdiff, List.mem_toFinset, Set.mem_sdiff, hset,
      List.mem_map_of_injective fun a b => bytes_inj.mp]
    rfl
  unfold Notice.withList
  split
  · next hnone =>
    rw [ChannelDb.updateSet_self (by simp [hnone])] at hupdate
    exact hupdate
  · simp only [List.foldl_cons, List.foldl_nil]
    rw [sremList_plain hclient db hc (isWord_bytes husers)]
    exact hupdate

theorem addAll (h : Shows db m) (hc : PlainChannel radioId) {users : List String}
    (husers : ∀ user ∈ users, PlainMember user) :
    Shows ((users.map fun user (db : ChannelDb) =>
        db.addChannelToUser user (CText.bytes radioId) 0).foldl (fun db f => f db) db)
      (m.updateListed radioId (· ∪ {user | user ∈ users})) := by
  induction users generalizing db m with
  | nil =>
    rw [Rolls.updateListed_self (by simp)]
    exact h
  | cons user users ih =>
    obtain ⟨huser, husers⟩ := List.forall_mem_cons.mp husers
    have hrest := ih (h.addChannelToUser hc huser 0) husers
    rw [Rolls.updateListed_updateListed] at hrest
    have hset : ((· ∪ {user | user ∈ users}) ∘ insert user : Set String → Set String) =
        (· ∪ {u | u ∈ user :: users}) := by
      funext set
      ext u
      simp [or_assoc, or_left_comm]
    rwa [hset] at hrest

theorem removeAll (h : Shows db m) (hc : PlainChannel radioId) {users : List String}
    (husers : ∀ user ∈ users, PlainMember user) :
    Shows ((users.map fun user (db : ChannelDb) =>
        db.removeChannelToUser user (CText.bytes radioId)).foldl (fun db f => f db) db)
      (m.updateListed radioId (· \ {user | user ∈ users})) := by
  induction users generalizing db m with
  | nil =>
    rw [Rolls.updateListed_self (by simp)]
    exact h
  | cons user users ih =>
    obtain ⟨huser, husers⟩ := List.forall_mem_cons.mp husers
    have hrest := ih (h.removeChannelToUser hc huser) husers
    rw [Rolls.updateListed_updateListed] at hrest
    have hset : ((· \ {user | user ∈ users}) ∘ (· \ {user}) : Set String → Set String) =
        (· \ {u | u ∈ user :: users}) := by
      funext set
      ext u
      simp [and_assoc, not_or]
    rwa [hset] at hrest

theorem sadd (h : Shows db m) (hc : PlainChannel radioId) (f : Family) (user : String) :
    Shows (db.sadd (f.key (CText.bytes radioId)) (CText.bytes user))
      (m.updateSet f radioId (insert user)) := by
  refine h.updateSet hc f fun set set' u hu hset => ?_
  rw [Finset.mem_insert, Set.mem_insert_iff, bytes_inj, hset]

theorem srem (h : Shows db m) (hc : PlainChannel radioId) (f : Family) (user : String) :
    Shows (db.srem (f.key (CText.bytes radioId)) (CText.bytes user))
      (m.updateSet f radioId (· \ {user})) := by
  refine h.updateSet hc f fun set set' u hu hset => ?_
  rw [Finset.mem_erase, Set.mem_sdiff, Set.mem_singleton_iff, ne_eq, bytes_inj, hset, and_comm]

theorem updates (login : Redis) (hclient : client.Documented) (h : Shows db m) {msg : SVRRadioMsgNotify}
    (hplain : (Notice.relation msg).Plain) :
    Shows ((Notice.updates client login msg).foldl (fun db f => f db) db)
      (m.note login (.relation msg)) := by
  obtain ⟨hc, huser, husers⟩ := hplain
  obtain ⟨radioId, oprUserId, users, type⟩ := msg
  have hmembers (u : String) (_ : PlainMember u) :
      CText.bytes u ∈ users.map CText.bytes ↔ u ∈ {user | user ∈ users} :=
    List.mem_map_of_injective fun a b => bytes_inj.mp
  cases type with
  | memberQuit => exact ((h.srem hc .online _).srem hc .offline _).removeChannelToUser hc huser
  | apply =>
    have hlisted := h.addChannelToUser hc huser 0
    simp only [Notice.updates, Rolls.note, List.foldl_cons]
    split
    · next hstatus =>
      rw [Rolls.updateSet_self]
      · exact hlisted
      · intro set
        refine Set.union_eq_self_of_subset_right ?_
        rintro u ⟨rfl, hne⟩
        exact absurd hstatus hne
    · next hstatus =>
      have hset : (fun set => set ∪ {user | user = oprUserId ∧ login.loginStatus user ≠ 0}) =
          insert oprUserId := by
        funext set
        ext u
        constructor
        · rintro (hu | ⟨rfl, -⟩)
          · exact .inr hu
          · exact .inl rfl
        · rintro (rfl | hu)
          · exact .inr ⟨rfl, hstatus⟩
          · exact .inl hu
      rw [hset]
      exact hlisted.sadd hc .online _
  | memberRemove =>
    simp only [Notice.updates, Rolls.note, List.foldl_append]
    exact ((h.sremMembers hclient hc .online husers).sremMembers hclient hc .offline husers).removeAll
      hc husers
  | invite =>
    simp only [Notice.updates, Rolls.note, List.foldl_append]
    refine (h.addAll hc husers).saddMembers hclient hc .online ?_ fun u hu => ?_
    · intro member hmember
      obtain ⟨user, huser, -, rfl⟩ := (mem_onlineUsers hclient husers).mp hmember
      exact (husers user huser).1
    · rw [mem_onlineUsers hclient husers]
      simp [bytes_inj]
  | dismiss =>
    have hinfo := h.updateInfo hc fun info => { info with status := chnnDismiss }
    refine ⟨hinfo.info, fun f c u hplain hu hshown => ?_, hinfo.listed⟩
    exact hinfo.sets f c u hplain hu (hshown.imp_right fun hgone hmem => hgone (Or.inr hmem))
  | create => exact (h.updateInfo hc _).sadd hc .admin _
  | nospeak => exact h.updateInfo hc fun info => { info with unspeak := 1 }
  | speaking => exact h.updateInfo hc fun info => { info with unspeak := 0 }
  | adminSet => exact h.saddMembers hclient hc .admin (isWord_bytes husers) hmembers
  | adminUnset => exact h.sremMembers hclient hc .admin husers
  | masterChanged =>
    simp only [Notice.updates, Rolls.note, List.foldl_append]
    exact (h.saddMembers hclient hc .admin (isWord_bytes husers) hmembers).srem hc .admin _
  | _ => exact h

theorem handle (hclient : client.Documented) (h : Shows db m) {notice : Notice}
    (hplain : notice.Plain) : Shows (notice.handle client login db) (m.note login notice) := by
  cases notice with
  | relation msg =>
    have hupdates := h.updates login hclient hplain
    rw [Notice.handle, Notice.prog, Notice.insertChannelNotifyToDataBase, Prog.alone_bind,
      Notice.updateUserChannelInfo, Prog.alone_writes, Prog.alone_done]
    split
    · next hdismiss =>
      have hgone : msg.radioId ∈ (m.note login (.relation msg)).gone := by
        simp [Rolls.note, hdismiss]
      rw [Prog.alone_read]
      split
      · exact hupdates
      · rw [Prog.alone_writes]
        exact (hupdates.del hplain.1 (f := .online) (by decide) hgone).del hplain.1 (f := .offline)
          (by decide) hgone
    · exact hupdates
  | pushSet msg => exact h.addChannelToUser hplain.1 hplain.2 _

end Shows

end ImServer
