import ImServer.Channel.ChannelDb
import ImServer.Login.ChannelSets
import Mathlib.Algebra.Order.BigOperators.Group.Finset

/-!
# Login records for a list of users

`getUserLoginInfo` and `getUserLoginInfoList` of channel/redisMgr.cpp. The first asks redis for the
record of one user with an argument for each word. The second writes a text for each key, which is
split at its blanks again (`hmgetAllBykeys` in data_oper/CachePool.cpp), keeps the answers by their
keys, and takes the user's id from the key: it is what follows the last underscore.

User ids are any bytes. A key that has no hash gives an empty value for each field, and one of
another kind an error. The connection stays up.
-/

namespace ImServer

open Login (Text RedisClient)

/-- `USER_LOGIN_INIFO_`. -/
structure UserLoginInfo where
  userId : Text
  status : Int
  strIp : Text
  nPort : Int
  nPushType : Int
  pushToken : Text
  deriving DecidableEq, Repr

namespace LoginInfo

/-- What a key has: a value for each field, or something that is no hash. -/
abbrev Content := Text → Option (Text → Text)

def fields : List Text := Redis.loginInfoFields.map fun f => CText.bytes f.name

/-- `getLoginInfoKey`. -/
def loginInfoKey (userId : Text) : Text :=
  CText.snprintf 128 (CText.bytes "CM_" ++ CText.cStr userId)

/-- The array that redis answers to a command with the words of `HMGET`. -/
def hmget (content : Content) : List Text → Option (List Text)
  | name :: key :: field :: rest =>
    if name = CText.bytes "HMGET" then (content key).map fun hash => (field :: rest).map hash
    else none
  | _ => none

def atoi (text : Text) : Int := CText.atoi (String.ofList (text.map fun b => Char.ofNat b.toNat))

/-- The record with the values that redis has given. -/
def loginInfo (userId : Text) (values : List Text) : UserLoginInfo where
  userId
  status := atoi (values.getD 0 [])
  strIp := CText.cStr (values.getD 1 [])
  nPort := atoi (values.getD 2 [])
  nPushType := atoi (values.getD 3 [])
  pushToken := CText.cStr (values.getD 4 [])

variable (client : RedisClient) (content : Content)

def getUserLoginInfo (userId : Text) : Option UserLoginInfo :=
  (hmget content (CText.bytes "HMGET" :: loginInfoKey userId :: fields)).map (loginInfo userId)

/-- The entry of a key in the map of `hmgetAllBykeys`, as a record. -/
def entry (key : Text) : Option UserLoginInfo :=
  ((client.args (Cache.hmgetText fields key)).bind (hmget content)).map
    (loginInfo (Redis.userOfKey key))

/-- `getUserLoginInfoList`. If the client library does not accept a text, there are fewer replies
than are read. The order of the map is left out. -/
def getUserLoginInfoList (users : List Text) : Option (List UserLoginInfo) :=
  if ∀ key ∈ users.map loginInfoKey, (client.args (Cache.hmgetText fields key)).isSome then
    some ((users.map loginInfoKey).dedup.filterMap (entry client content))
  else none

/-- The records of the list are those of its users, each once. -/
def Agrees (users : List Text) : Prop :=
  ∃ infos, getUserLoginInfoList client content users = some infos ∧
    infos.Perm (users.dedup.filterMap (getUserLoginInfo content))

/-- An id without blanks, percent signs, underscores and NULs that the key has room for. -/
structure PlainId (userId : Text) : Prop where
  blank : 32 ∉ userId
  percent : 37 ∉ userId
  underscore : 95 ∉ userId
  nul : 0 ∉ userId
  length : userId.length ≤ 124

section Keys

variable {client : RedisClient} {content : Content} {u : Text} {users : List Text}

/-- The part of an id that is in its key. -/
def kept (userId : Text) : Text := (CText.cStr userId).take 124

theorem loginInfoKey_eq (userId : Text) : loginInfoKey userId = 67 :: 77 :: 95 :: kept userId := by
  have hpre : CText.bytes "CM_" = [67, 77, 95] := by decide
  rw [loginInfoKey, hpre, CText.snprintf]
  rfl

theorem loginInfoKey_injOn {u v : Text} (hu : kept u = u) (hv : kept v = v)
    (h : loginInfoKey u = loginInfoKey v) : u = v := by
  rw [loginInfoKey_eq, loginInfoKey_eq, hu, hv] at h
  simpa using h

theorem zero_notMem_kept (userId : Text) : 0 ∉ kept userId := fun hzero =>
  absurd (List.mem_takeWhile_imp (List.mem_of_mem_take hzero)) (by decide)

theorem PlainId.kept (h : PlainId u) : kept u = u := by
  rw [LoginInfo.kept, CText.cStr_eq_self_iff.mpr h.nul, List.take_of_length_le h.length]

/-- The id that is read from a key is the end of what was kept. -/
theorem userOfKey_loginInfoKey (userId : Text) :
    Redis.userOfKey (loginInfoKey userId) =
      ((kept userId).reverse.takeWhile (· ≠ 95)).reverse := by
  rw [Redis.userOfKey, loginInfoKey_eq, List.reverse_cons, List.reverse_cons, List.reverse_cons,
    List.append_assoc, List.append_assoc, List.takeWhile_append]
  split
  · next hall =>
    have hself : (kept userId).reverse.takeWhile (· ≠ 95) = (kept userId).reverse :=
      (List.takeWhile_prefix _).eq_of_length hall
    rw [hself]
    simp
  · rfl

theorem length_userOfKey_le (userId : Text) :
    (Redis.userOfKey (loginInfoKey userId)).length ≤ userId.length := by
  have hend : ((kept userId).reverse.takeWhile (· ≠ 95)).length ≤ (kept userId).reverse.length :=
    (List.takeWhile_prefix _).length_le
  have hcut : (CText.cStr userId).length ≤ userId.length := (List.takeWhile_prefix _).length_le
  have htake : (kept userId).length ≤ (CText.cStr userId).length := List.length_take_le' ..
  rw [userOfKey_loginInfoKey, List.length_reverse]
  rw [List.length_reverse] at hend
  omega

/-- An id is read back whole only if it was kept and has no underscore. -/
theorem userOfKey_of_length (h : (Redis.userOfKey (loginInfoKey u)).length = u.length) :
    95 ∉ u ∧ 0 ∉ u ∧ u.length ≤ 124 := by
  have hend : ((kept u).reverse.takeWhile (· ≠ 95)).length ≤ (kept u).reverse.length :=
    (List.takeWhile_prefix _).length_le
  have hcut : (CText.cStr u).length ≤ u.length := (List.takeWhile_prefix _).length_le
  have htake : (kept u).length = min 124 (CText.cStr u).length := List.length_take ..
  rw [userOfKey_loginInfoKey, List.length_reverse] at h
  rw [List.length_reverse] at hend
  have hstr : CText.cStr u = u := (CText.cStr_eq_or_length_lt u).resolve_right (by omega)
  have hkept : kept u = u := by
    rw [kept, hstr, List.take_of_length_le (by omega)]
  have hself : u.reverse.takeWhile (· ≠ 95) = u.reverse := by
    rw [hkept] at h
    exact (List.takeWhile_prefix _).eq_of_length (h.trans (List.length_reverse ..).symm)
  refine ⟨fun hmem => ?_, CText.cStr_eq_self_iff.mp hstr, by omega⟩
  rw [List.takeWhile_eq_self_iff] at hself
  exact absurd (hself 95 (List.mem_reverse.mpr hmem)) (by decide)

theorem userOfKey_eq (hkept : kept u = u) (hunderscore : 95 ∉ u) :
    Redis.userOfKey (loginInfoKey u) = u := by
  have hall : u.reverse.takeWhile (· ≠ 95) = u.reverse :=
    List.takeWhile_eq_self_iff.mpr fun b hb =>
      decide_eq_true fun heq => hunderscore (heq ▸ List.mem_reverse.mp hb)
  rw [userOfKey_loginInfoKey, hkept, hall, List.reverse_reverse]

theorem fields_words : ∀ field ∈ fields, field ≠ [] ∧ 32 ∉ field := by
  decide +kernel

theorem fields_eq_cons : fields = CText.bytes "status" :: fields.tail :=
  rfl

theorem blanked_fields :
    Cache.cstr (Cache.blanked fields) = Cache.blanked fields ∧
      (Cache.blanked fields).length = 42 ∧ 37 ∉ Cache.blanked fields := by
  decide +kernel

theorem bytes_hmget :
    CText.bytes "HMGET" = [72, 77, 71, 69, 84] ∧
      CText.bytes "HMGET " = CText.bytes "HMGET" ++ [32] := by
  decide +kernel

theorem hmgetText_eq (userId : Text) :
    Cache.hmgetText fields (loginInfoKey userId) =
      CText.bytes "HMGET" ++ 32 :: (loginInfoKey userId ++ Cache.blanked fields) := by
  have hnul : Cache.cstr (loginInfoKey userId) = loginInfoKey userId := by
    refine List.takeWhile_eq_self_iff.mpr fun b hb => decide_eq_true ?_
    rintro rfl
    rw [loginInfoKey_eq] at hb
    simp only [List.mem_cons] at hb
    obtain h | h | h | h := hb
    · exact absurd h (by decide)
    · exact absurd h (by decide)
    · exact absurd h (by decide)
    · exact zero_notMem_kept userId h
  obtain ⟨hfields, hsize, -⟩ := blanked_fields
  have hnameSize : (CText.bytes "HMGET").length = 5 := by rw [bytes_hmget.1]; rfl
  have hkey : (kept userId).length ≤ 124 := List.length_take_le ..
  rw [Cache.hmgetText, hnul, hfields, bytes_hmget.2, List.take_of_length_le]
  · simp
  · simp only [List.length_append, hnameSize, hsize, loginInfoKey_eq, List.length_cons,
      List.length_nil]
    omega

theorem words_hmgetText (userId : Text) :
    CText.words (Cache.hmgetText fields (loginInfoKey userId)) =
      CText.bytes "HMGET" :: CText.words (loginInfoKey userId ++ Cache.blanked fields) := by
  have hne : CText.bytes "HMGET" ≠ [] := by rw [bytes_hmget.1]; decide
  have hblank : 32 ∉ CText.bytes "HMGET" := by rw [bytes_hmget.1]; decide
  rw [hmgetText_eq, CText.words_append_cons hne hblank]

/-- The text for a plain id has the words of the single command. -/
theorem args_of_plain (hclient : client.Documented) (h : PlainId u) :
    client.args (Cache.hmgetText fields (loginInfoKey u)) =
      some (CText.bytes "HMGET" :: loginInfoKey u :: fields) := by
  have hblank : 32 ∉ loginInfoKey u := by
    rw [loginInfoKey_eq, h.kept]
    simpa using h.blank
  have hpercent : 37 ∉ Cache.hmgetText fields (loginInfoKey u) := by
    have hname : 37 ∉ CText.bytes "HMGET" := by rw [bytes_hmget.1]; decide
    rw [hmgetText_eq, loginInfoKey_eq, h.kept]
    simpa [hname, blanked_fields.2.2] using h.percent
  have hne : loginInfoKey u ≠ [] := by
    rw [loginInfoKey_eq]
    exact List.cons_ne_nil _ _
  have htext : loginInfoKey u ++ Cache.blanked fields =
      [32].intercalate (loginInfoKey u :: fields) := (CText.intercalate_cons ..).symm
  rw [hclient.args _ hpercent, words_hmgetText, htext, CText.words_intercalate (by simp)]
  intro word hword
  obtain rfl | hword := List.mem_cons.mp hword
  · exact ⟨hne, hblank⟩
  · exact fields_words word hword

/-- The entry of a plain id is the record of the single look-up. -/
theorem entry_of_plain (hclient : client.Documented) (h : PlainId u) :
    entry client content (loginInfoKey u) = getUserLoginInfo content u := by
  rw [entry, args_of_plain hclient h, userOfKey_eq h.kept h.underscore, getUserLoginInfo]
  rfl

end Keys

section Agreement

variable {client : RedisClient} {content : Content} {users : List Text} {u : Text}

theorem agrees_of_plain (hclient : client.Documented) (h : ∀ u ∈ users, PlainId u) :
    Agrees client content users := by
  have hall : ∀ key ∈ users.map loginInfoKey,
      (client.args (Cache.hmgetText fields key)).isSome := by
    intro key hkey
    obtain ⟨u, hu, rfl⟩ := List.mem_map.mp hkey
    rw [args_of_plain hclient (h u hu)]
    rfl
  have hkeys : (users.map loginInfoKey).dedup.Perm (users.dedup.map loginInfoKey) := by
    refine (List.perm_ext_iff_of_nodup (List.nodup_dedup _) ?_).mpr fun key => by simp
    refine List.Nodup.map_on (fun u hu v hv heq => ?_) (List.nodup_dedup users)
    exact loginInfoKey_injOn (h u (List.mem_dedup.mp hu)).kept (h v (List.mem_dedup.mp hv)).kept heq
  refine ⟨_, if_pos hall, (hkeys.filterMap _).trans (List.Perm.of_eq ?_)⟩
  rw [List.filterMap_map]
  exact List.filterMap_congr fun u hu =>
    entry_of_plain hclient (h u (List.mem_dedup.mp hu))

/-- Nobody has logged in. -/
def nobody : Content := fun _ => some fun _ => []

theorem getUserLoginInfo_of_hash {hash : Text → Text}
    (h : content (loginInfoKey u) = some hash) :
    getUserLoginInfo content u = some (loginInfo u (fields.map hash)) := by
  rw [getUserLoginInfo, fields_eq_cons, hmget, if_pos rfl, h, ← fields_eq_cons]
  rfl

theorem userId_of_entry {key : Text} {info : UserLoginInfo}
    (h : entry client content key = some info) : info.userId = Redis.userOfKey key := by
  obtain ⟨values, -, rfl⟩ := Option.map_eq_some_iff.mp h
  rfl

/-- The records of a list have ids that are read from the keys of its users. -/
theorem exists_of_mem {infos : List UserLoginInfo} {info : UserLoginInfo}
    (hinfos : getUserLoginInfoList client content users = some infos) (hinfo : info ∈ infos) :
    ∃ u ∈ users, entry client content (loginInfoKey u) = some info := by
  rw [getUserLoginInfoList] at hinfos
  split at hinfos
  · cases hinfos
    obtain ⟨key, hkey, hentry⟩ := List.mem_filterMap.mp hinfo
    obtain ⟨u, hu, rfl⟩ := List.mem_map.mp (List.mem_dedup.mp hkey)
    exact ⟨u, hu, hentry⟩
  · cases hinfos

/-- A record of the single look-up is one of the list, for some user. -/
theorem Agrees.exists_entry (h : Agrees client content users) (hu : u ∈ users)
    {info : UserLoginInfo} (hinfo : getUserLoginInfo content u = some info) :
    ∃ v ∈ users, entry client content (loginInfoKey v) = some info := by
  obtain ⟨infos, hinfos, hperm⟩ := h
  exact exists_of_mem hinfos (hperm.mem_iff.mpr
    (List.mem_filterMap.mpr ⟨u, List.mem_dedup.mpr hu, hinfo⟩))

/-- No text with a percent sign is accepted. -/
def strictClient : RedisClient :=
  { Login.Server.splitClient with
    args := fun text => if 37 ∈ text then none else some (CText.words text) }

theorem documented_strictClient : strictClient.Documented :=
  ⟨fun _ htext => if_neg htext, Login.Server.documented_splitClient.score⟩

/-- Each id must be read from some key, and no id that is read is longer than the one written. -/
theorem Agrees.length_eq (h : Agrees client nobody users) (hu : u ∈ users) :
    (Redis.userOfKey (loginInfoKey u)).length = u.length := by
  let read : Text → Text := fun u => Redis.userOfKey (loginInfoKey u)
  have hsub : users.toFinset ⊆ users.toFinset.image read := by
    intro v hv
    have hmem := List.mem_toFinset.mp hv
    obtain ⟨w, hw, hentry⟩ := h.exists_entry hmem (getUserLoginInfo_of_hash rfl)
    exact Finset.mem_image.mpr ⟨w, List.mem_toFinset.mpr hw, (userId_of_entry hentry).symm⟩
  have himage : users.toFinset = users.toFinset.image read :=
    Finset.eq_of_subset_of_card_le hsub Finset.card_image_le
  have hinj : Set.InjOn read users.toFinset := Finset.card_image_iff.mp (by rw [← himage])
  have hsum : ∑ u ∈ users.toFinset, (read u).length = ∑ u ∈ users.toFinset, u.length := by
    conv_rhs => rw [himage, Finset.sum_image hinj]
  exact (Finset.sum_eq_sum_iff_of_le fun u _ => length_userOfKey_le u).mp hsum u
    (List.mem_toFinset.mpr hu)

/-- Only the key of the user `u` has a status. -/
def online (u : Text) : Content := fun key =>
  some fun field => if key = loginInfoKey u ∧ field = CText.bytes "status" then [49] else []

theorem getUserLoginInfo_online (u : Text) :
    ∃ info, getUserLoginInfo (online u) u = some info ∧ info.userId = u ∧ info.status = 1 := by
  refine ⟨_, getUserLoginInfo_of_hash rfl, rfl, ?_⟩
  rw [fields_eq_cons]
  simp only [loginInfo, List.map_cons, List.getD_cons_zero, and_self, if_true]
  rfl

/-- A blank makes the key that is asked for shorter, and it has no status. -/
theorem status_of_entry_of_blank (hpercent : 37 ∉ Cache.hmgetText fields (loginInfoKey u))
    (hblank : 32 ∈ loginInfoKey u) (hclient : client.Documented) {info : UserLoginInfo}
    (h : entry client (online u) (loginInfoKey u) = some info) : info.status = 0 := by
  obtain ⟨values, hvalues, rfl⟩ := Option.map_eq_some_iff.mp h
  rw [hclient.args _ hpercent, words_hmgetText, Option.bind_some] at hvalues
  cases hwords : CText.words (loginInfoKey u ++ Cache.blanked fields) with
  | nil => simp [hwords, hmget] at hvalues
  | cons key rest =>
    have hkey : key ≠ loginInfoKey u := by
      rintro rfl
      exact (CText.ne_nil_of_mem_words (hwords ▸ List.mem_cons_self)).2 hblank
    cases rest with
    | nil => simp [hwords, hmget] at hvalues
    | cons field rest =>
      simp only [hwords, hmget, if_true, online, hkey, false_and, if_false, Option.map_some,
        Option.some.injEq] at hvalues
      rw [← hvalues]
      simp only [loginInfo, List.map_cons, List.getD_cons_zero]
      rfl

theorem plain_of_agrees (h : ∀ client : RedisClient, client.Documented →
    ∀ content, Agrees client content users) (hu : u ∈ users) : PlainId u := by
  have hread : ∀ v ∈ users, 95 ∉ v ∧ 0 ∉ v ∧ v.length ≤ 124 := fun v hv =>
    userOfKey_of_length ((h strictClient documented_strictClient nobody).length_eq hv)
  have hkept : ∀ v ∈ users, kept v = v := by
    intro v hv
    obtain ⟨-, hnul, hlength⟩ := hread v hv
    rw [kept, CText.cStr_eq_self_iff.mpr hnul, List.take_of_length_le hlength]
  have hpercent : 37 ∉ Cache.hmgetText fields (loginInfoKey u) := by
    obtain ⟨infos, hinfos, -⟩ := h strictClient documented_strictClient nobody
    rw [getUserLoginInfoList] at hinfos
    split at hinfos
    · next hall =>
      intro hmem
      have hnone : strictClient.args (Cache.hmgetText fields (loginInfoKey u)) = none := if_pos hmem
      have hsome := hall _ (List.mem_map_of_mem hu)
      rw [hnone] at hsome
      cases hsome
    · cases hinfos
  have hinText : ∀ b ∈ u, b ∈ loginInfoKey u := by
    intro b hb
    rw [loginInfoKey_eq, hkept u hu]
    simp [hb]
  obtain ⟨hunderscore, hnul, hlength⟩ := hread u hu
  refine ⟨fun hblank => ?_, fun hmem => hpercent ?_, hunderscore, hnul, hlength⟩
  · obtain ⟨info, hinfo, huser, hstatus⟩ := getUserLoginInfo_online u
    obtain ⟨v, hv, hentry⟩ :=
      (h strictClient documented_strictClient (online u)).exists_entry hu hinfo
    have hsame : v = u := by
      rw [← huser, userId_of_entry hentry, userOfKey_eq (hkept v hv) (hread v hv).1]
    subst hsame
    rw [status_of_entry_of_blank hpercent (hinText 32 hblank) documented_strictClient hentry]
      at hstatus
    cases hstatus
  · rw [hmgetText_eq]
    simp [hinText 37 hmem]

/-- The look-up of a list agrees with the single ones, whatever redis has and whatever the client
library makes of texts with percent signs, if and only if all its ids are plain. -/
theorem login_info_list_iff (users : List Text) :
    (∀ client : RedisClient, client.Documented → ∀ content, Agrees client content users) ↔
      ∀ u ∈ users, PlainId u :=
  ⟨fun h _ hu => plain_of_agrees h hu, fun h _ hclient _ => agrees_of_plain hclient h⟩

/-- The record of the user `a_b` is returned as one of `b`. -/
theorem not_login_info_list : ¬∀ (client : RedisClient), client.Documented →
    ∀ (content : Content) (users : List Text), Agrees client content users := by
  intro h
  have hlength := (h strictClient documented_strictClient nobody [CText.bytes "a_b"]).length_eq
    List.mem_cons_self
  exact absurd hlength (by decide +kernel)

end Agreement

end LoginInfo

end ImServer
