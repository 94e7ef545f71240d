import ImServer.Lib.Index
import ImServer.Lib.Run
import ImServer.Login.LoginHandle

/-!
# Device records and user records

A login enters the user under the device and the device in the record of the user. A
logout deletes the device record of the token up to its first colon, and a notification of
the user center that of the token in the notification. In both cases the record of the
token that the user has may be left behind.
-/

namespace ImServer

namespace Redis

/-- The user that the record of a device names. -/
def deviceUser (r : Redis) (token : String) : Option String :=
  (r.hash (cmdtKey token)).bind fun h => h .subscriber

/-- The device token in the record of a user, if there is a record. -/
def userDevice (r : Redis) (user : String) : Option String :=
  (r.hash (cmKey user)).map fun h => (h .deviceToken).getD ""

variable {r : Redis} {user token : String}

@[simp] theorem deviceUser_hmset_cmKey (fields : RedisFields) :
    (r.hmset (cmKey user) fields).deviceUser = r.deviceUser := by
  funext token
  rw [deviceUser, hmset_of_ne _ (cmKey_ne_cmdtKey user token).symm]
  rfl

@[simp] theorem deviceUser_del_cmKey : (r.del (cmKey user)).deviceUser = r.deviceUser := by
  funext token
  rw [deviceUser, del_of_ne (cmKey_ne_cmdtKey user token).symm]
  rfl

@[simp] theorem deviceUser_del_cmdtKey :
    (r.del (cmdtKey token)).deviceUser = Function.update r.deviceUser token none := by
  funext token'
  by_cases h : token' = token
  · rw [h, Function.update_self, deviceUser, del_self, Option.bind_none]
  · rw [Function.update_of_ne h, deviceUser, del_of_ne fun hkey => h (cmdtKey_inj.mp hkey)]
    rfl

@[simp] theorem deviceUser_insertDeviceRec :
    (r.insertDeviceRec (cmdtKey token) user).deviceUser =
      Function.update r.deviceUser token (some user) := by
  funext token'
  rw [insertDeviceRec]
  by_cases h : token' = token
  · rw [h, Function.update_self, deviceUser, hmset_self]
    rfl
  · rw [Function.update_of_ne h, deviceUser, hmset_of_ne _ fun hkey => h (cmdtKey_inj.mp hkey)]
    rfl

@[simp] theorem deviceUser_expire (key : String) : (r.expire key).deviceUser = r.deviceUser := rfl

@[simp] theorem deviceUser_persist (key : String) : (r.persist key).deviceUser = r.deviceUser := rfl

@[simp] theorem userDevice_expire (key : String) : (r.expire key).userDevice = r.userDevice := rfl

@[simp] theorem userDevice_persist (key : String) : (r.persist key).userDevice = r.userDevice := rfl

@[simp] theorem userDevice_del_cmdtKey : (r.del (cmdtKey token)).userDevice = r.userDevice := by
  funext user
  rw [userDevice, del_of_ne (cmKey_ne_cmdtKey user token)]
  rfl

@[simp] theorem userDevice_insertDeviceRec :
    (r.insertDeviceRec (cmdtKey token) user).userDevice = r.userDevice := by
  funext user'
  rw [insertDeviceRec, userDevice, hmset_of_ne _ (cmKey_ne_cmdtKey user' token)]
  rfl

@[simp] theorem userDevice_del_cmKey :
    (r.del (cmKey user)).userDevice = Function.update r.userDevice user none := by
  funext user'
  by_cases h : user' = user
  · rw [h, Function.update_self, userDevice, del_self, Option.map_none]
  · rw [Function.update_of_ne h, userDevice, del_of_ne fun hkey => h (cmKey_inj.mp hkey)]
    rfl

theorem userDevice_hmset (fields : RedisFields) :
    (r.hmset (cmKey user) fields).userDevice =
      Function.update r.userDevice user
        (some ((fields.lookup .deviceToken).getD ((r.userDevice user).getD ""))) := by
  funext user'
  by_cases h : user' = user
  · rw [h, Function.update_self, userDevice, hmset_self, Option.map_some, RedisHash.set,
      userDevice]
    cases fields.lookup .deviceToken with
    | some value => rfl
    | none =>
      cases r.hash (cmKey user) with
      | some h => rfl
      | none => rfl
  · rw [Function.update_of_ne h, userDevice, hmset_of_ne _ fun hkey => h (cmKey_inj.mp hkey)]
    rfl

@[simp] theorem userDevice_updateUserRec (rec : UserCache) (now : Nat) :
    (r.updateUserRec (cmKey user) rec now).userDevice =
      Function.update r.userDevice user (some rec.deviceToken) := by
  rw [updateUserRec, userDevice_persist, userDevice_hmset]
  rfl

@[simp] theorem userDevice_insertUserRec (rec : UserCache) (now : Nat) :
    (r.insertUserRec (cmKey user) rec now).userDevice =
      Function.update r.userDevice user (some rec.deviceToken) := by
  rw [insertUserRec, userDevice_persist, userDevice_hmset]
  rfl

theorem getUserRecord_deviceToken (uninit : UserCache) :
    (r.getUserRecord (cmKey user) uninit).map (·.deviceToken) = r.userDevice user := by
  rw [getUserRecord, Option.map_map]
  rfl

theorem userDevice_of_getUserRecord {uninit rec : UserCache}
    (h : r.getUserRecord (cmKey user) uninit = some rec) :
    r.userDevice user = some rec.deviceToken := by
  rw [← getUserRecord_deviceToken uninit, h]
  rfl

theorem userDevice_eq_none {uninit : UserCache}
    (h : r.getUserRecord (cmKey user) uninit = none) : r.userDevice user = none := by
  rw [← getUserRecord_deviceToken uninit, h]
  rfl

end Redis

namespace Login

open Redis

variable {r : Redis} {env : Env} {login : CMLoginTrans} {userId : String}

inductive Call where
  | login (env : Env) (msg : CMLoginTrans)
  | logout (env : Env) (userId : String)
  | phpLoginNotify (env : Env) (msg : CMPHPLoginNotify)
  | pushTokenSync (msg : CMPushTokenSync)

/-- The login cache after a call, whatever the call answers. -/
def handle (r : Redis) : Call → Redis
  | .login env msg => (onLogin env r msg).redis
  | .logout env userId => onLogout env r userId
  | .phpLoginNotify env msg => (onPHPLoginNotify env r msg).redis
  | .pushTokenSync msg => onPushTokenSync r msg

/-- Every device record names a user whose record exists and has that device token. -/
def DevicesConsistent (r : Redis) : Prop :=
  ∀ token user, r.deviceUser token = some user → r.userDevice user = some token

/-- The device of the user has a record that names him, and it is not the one of `token`. -/
def LeavesDevice (r : Redis) (userId token : String) : Prop :=
  ∃ device ∈ r.userDevice userId, device ≠ token ∧ r.deviceUser device = some userId

/-- The calls that leave no device record behind: no device that the user had before is still his
under its own key. -/
def KeepsDevices (r : Redis) : Call → Prop
  | .login _ _ => True
  | .logout _ userId =>
    ∀ device ∈ r.userDevice userId, ':' ∈ device.toList → r.deviceUser device ≠ some userId
  | .phpLoginNotify _ msg =>
    msg.loginType = phpNotifyTypeLogin ∨ msg.loginType = phpNotifyTypeLogout →
      ¬ LeavesDevice r msg.userId msg.deviceToken
  | .pushTokenSync _ => True

/-- What a login does: nothing, or one of the two updates. -/
theorem onLogin_cases (env : Env) (r : Redis) (login : CMLoginTrans) :
    (onLogin env r login).redis = r ∨
      (∃ rec, r.getUserRecord (cmKey login.userId) env.uninit = some rec ∧
        (onLogin env r login).redis = updateUserInfo r login rec.deviceToken env.now) ∨
      (r.getUserRecord (cmKey login.userId) env.uninit = none ∧
        (onLogin env r login).redis = saveUserInfo r login env.now) := by
  unfold onLogin
  split
  · exact .inl rfl
  · split
    · exact .inl rfl
    · split
      · next rec hrec =>
        dsimp only
        split
        · exact .inl rfl
        · exact .inr (.inl ⟨rec, hrec, rfl⟩)
      · next hrec =>
        dsimp only
        split
        · exact .inl rfl
        · exact .inr (.inr ⟨hrec, rfl⟩)

theorem userDevice_saveUserInfo (r : Redis) (login : CMLoginTrans) (now : Nat) :
    (saveUserInfo r login now).userDevice =
      Function.update r.userDevice login.userId (some login.deviceToken) := by
  simp only [saveUserInfo, delDeviceRec, userDevice_insertDeviceRec, userDevice_del_cmdtKey,
    userDevice_insertUserRec]
  rfl

theorem deviceUser_saveUserInfo (r : Redis) (login : CMLoginTrans) (now : Nat) :
    (saveUserInfo r login now).deviceUser =
      Function.update r.deviceUser login.deviceToken (some login.userId) := by
  simp only [saveUserInfo, delDeviceRec, insertUserRec, deviceUser_insertDeviceRec,
    deviceUser_del_cmdtKey, deviceUser_persist, deviceUser_hmset_cmKey, Function.update_idem]

theorem userDevice_updateUserInfo (r : Redis) (login : CMLoginTrans) (device : String) (now : Nat) :
    (updateUserInfo r login device now).userDevice =
      Function.update r.userDevice login.userId (some login.deviceToken) := by
  simp only [updateUserInfo, delDeviceRec, userDevice_insertDeviceRec]
  split
  · exact userDevice_updateUserRec ..
  · rw [userDevice_del_cmdtKey]
    exact userDevice_updateUserRec ..

theorem deviceUser_updateUserInfo (r : Redis) (login : CMLoginTrans) (device : String) (now : Nat) :
    (updateUserInfo r login device now).deviceUser =
      Function.update
        (if device = login.deviceToken then r.deviceUser
          else Function.update r.deviceUser device none)
        login.deviceToken (some login.userId) := by
  simp only [updateUserInfo, delDeviceRec, deviceUser_insertDeviceRec, checkCacheDevice,
    decide_eq_true_eq]
  split
  · rw [updateUserRec, deviceUser_persist, deviceUser_hmset_cmKey]
  · rw [deviceUser_del_cmdtKey, updateUserRec, deviceUser_persist, deviceUser_hmset_cmKey]

theorem DevicesConsistent.saveUserInfo (h : DevicesConsistent r)
    (hnone : r.userDevice login.userId = none) (now : Nat) :
    DevicesConsistent (saveUserInfo r login now) := by
  unfold DevicesConsistent
  rw [userDevice_saveUserInfo, deviceUser_saveUserInfo]
  exact Index.Sound.assign h fun token _ => Index.Sound.find_ne h hnone token

theorem DevicesConsistent.updateUserInfo (h : DevicesConsistent r) {device : String}
    (hdevice : r.userDevice login.userId = some device) (now : Nat) :
    DevicesConsistent (updateUserInfo r login device now) := by
  unfold DevicesConsistent
  rw [userDevice_updateUserInfo, deviceUser_updateUserInfo]
  -- The user is found under his old device only.
  have hold : ∀ token, r.deviceUser token = some login.userId → token = device := by
    intro token hfound
    exact Option.some.inj ((h token login.userId hfound).symm.trans hdevice)
  split
  · next heq =>
    refine Index.Sound.assign h fun token htoken hfound => ?_
    exact htoken ((hold token hfound).trans heq)
  · refine Index.Sound.assign (Index.Sound.erase h device) fun token _ hfound => ?_
    obtain ⟨hne, hfound⟩ := Index.update_none_eq_some.mp hfound
    exact hne (hold token hfound)

theorem DevicesConsistent.onLogin (h : DevicesConsistent r) (env : Env) (login : CMLoginTrans) :
    DevicesConsistent (onLogin env r login).redis := by
  obtain heq | ⟨rec, hrec, heq⟩ | ⟨hrec, heq⟩ := onLogin_cases env r login
  · rwa [heq]
  · rw [heq]
    exact h.updateUserInfo (userDevice_of_getUserRecord hrec) env.now
  · rw [heq]
    exact h.saveUserInfo (userDevice_eq_none hrec) env.now

/-- Deleting the record of a user and the device record of `token`. -/
theorem DevicesConsistent.remove_iff (h : DevicesConsistent r) (userId token : String) :
    DevicesConsistent ((r.del (cmKey userId)).del (cmdtKey token)) ↔
      ¬ LeavesDevice r userId token := by
  unfold DevicesConsistent
  rw [userDevice_del_cmdtKey, userDevice_del_cmKey, deviceUser_del_cmdtKey, deviceUser_del_cmKey]
  refine (Index.Sound.remove_iff h).trans ?_
  constructor
  · rintro hother ⟨device, hdevice, hne, hfound⟩
    exact hother device hdevice hne hfound
  · intro hnone device hdevice hne hfound
    exact hnone ⟨device, hdevice, hne, hfound⟩

theorem devicePrefix_ne_iff {token : String} : token ≠ devicePrefix token ↔ ':' ∈ token.toList := by
  rw [devicePrefix, ne_eq, ← String.toList_inj, String.toList_ofList, eq_comm,
    List.takeWhile_eq_self_iff]
  simp

theorem DevicesConsistent.onLogout_iff (h : DevicesConsistent r) (env : Env) (userId : String) :
    DevicesConsistent (onLogout env r userId) ↔ KeepsDevices r (.logout env userId) := by
  show _ ↔ ∀ device ∈ r.userDevice userId, _
  unfold onLogout
  split
  · next rec hrec =>
    rw [delUserRec, delDeviceRec, h.remove_iff, LeavesDevice, userDevice_of_getUserRecord hrec]
    simp [devicePrefix_ne_iff]
  · next hrec =>
    rw [userDevice_eq_none hrec]
    simp [h]

/-- Setting the status of a record that is then deleted has no effect. -/
theorem del_setUserStatus (r : Redis) (key : String) :
    (r.setUserStatus key false).del key = r.del key := by
  simp only [setUserStatus, Bool.false_eq_true, if_false, del, hmset, expire, Function.update_idem]

theorem DevicesConsistent.onPHPLoginNotify_iff (h : DevicesConsistent r) (env : Env)
    (msg : CMPHPLoginNotify) :
    DevicesConsistent (onPHPLoginNotify env r msg).redis ↔
      KeepsDevices r (.phpLoginNotify env msg) := by
  show _ ↔ (_ ∨ _ → ¬ LeavesDevice r msg.userId msg.deviceToken)
  unfold onPHPLoginNotify
  split
  · next rec hrec =>
    have hdevice := userDevice_of_getUserRecord hrec
    split
    · next htype =>
      split
      · rw [delUserRec, delDeviceRec, h.remove_iff]
        simp [htype]
      · next heq =>
        -- The user has the device of the notification, and nothing is deleted.
        simp only [ne_eq, Decidable.not_not] at heq
        simp [h, LeavesDevice, hdevice, heq]
    · split
      · next htype =>
        dsimp only
        rw [delUserRec, delDeviceRec, del_setUserStatus, h.remove_iff]
        simp [htype]
      · next hlogin hlogout => simp [h, hlogin, hlogout]
  · next hrec => simp [h, LeavesDevice, userDevice_eq_none hrec]

theorem DevicesConsistent.onPushTokenSync (h : DevicesConsistent r) (msg : CMPushTokenSync) :
    DevicesConsistent (onPushTokenSync r msg) := by
  unfold Login.onPushTokenSync
  split
  · unfold DevicesConsistent
    rw [setPushTypeAndToken, deviceUser_hmset_cmKey, userDevice_hmset]
    cases hdevice : r.userDevice msg.userId with
    | none => exact Index.Sound.rekey h (Index.Sound.find_ne h hdevice) _
    | some device =>
      have hsame : some (([(RedisField.pushType, toString msg.pushType.toNat),
          (.pushToken, msg.pushToken)].lookup .deviceToken).getD ((some device).getD "")) =
          r.userDevice msg.userId := hdevice.symm
      rw [hsame, Function.update_eq_self]
      exact h
  · exact h

theorem DevicesConsistent.handle_iff (h : DevicesConsistent r) (c : Call) :
    DevicesConsistent (handle r c) ↔ KeepsDevices r c := by
  cases c with
  | login env msg => exact iff_of_true (h.onLogin env msg) trivial
  | logout env userId => exact h.onLogout_iff env userId
  | phpLoginNotify env msg => exact h.onPHPLoginNotify_iff env msg
  | pushTokenSync msg => exact iff_of_true (h.onPushTokenSync msg) trivial

theorem userDevice_onLogout (env : Env) (r : Redis) (userId : String) :
    (onLogout env r userId).userDevice userId = none := by
  unfold onLogout
  split
  · rw [delUserRec, delDeviceRec, userDevice_del_cmdtKey, userDevice_del_cmKey,
      Function.update_self]
  · next hrec => exact userDevice_eq_none hrec

/-- The login cache after calls from the empty one, each with what its handler finds outside. -/
def handleAll (calls : List Call) : Redis := calls.foldl handle {}

/-- The records are consistent after each call, and after each logout no device record
names the user. -/
structure DevicesKept (calls : List Call) : Prop where
  consistent : ∀ pre, pre <+: calls → DevicesConsistent (handleAll pre)
  logout : ∀ pre env userId, pre ++ [.logout env userId] <+: calls →
    ∀ token, (handleAll (pre ++ [.logout env userId])).deviceUser token ≠ some userId

theorem devicesKept_iff (calls : List Call) :
    DevicesKept calls ↔ ∀ pre c, pre ++ [c] <+: calls → KeepsDevices (handleAll pre) c := by
  have hempty : DevicesConsistent {} := by
    intro token user hfound
    cases hfound
  have hruns := Run.foldl_inv_iff DevicesConsistent hempty (fun _ c h => h.handle_iff c) calls
  constructor
  · intro h
    exact hruns.mp h.consistent
  · intro hgood
    have hconsistent := hruns.mpr hgood
    refine ⟨hconsistent, ?_⟩
    intro pre env userId hpre
    refine Index.Sound.find_ne (hconsistent _ hpre) ?_
    rw [List.foldl_append]
    exact userDevice_onLogout env _ userId

/-- A login of a user on a device, which the user center accepts. -/
def loginOf (userId token : String) : Call :=
  .login { answer := some "200" }
    { userId := userId, loginToken := "k", deviceToken := token, loginIp := "10.0.0.9",
      loginPort := 8000, host := "10.0.0.1:80" }

/-- A logout leaves the device record of a token with a colon behind. -/
theorem devicesKept_fails_colon :
    ¬ DevicesKept [loginOf "7" "a:b", .logout {} "7"] := by
  intro h
  refine h.logout [loginOf "7" "a:b"] {} "7" (List.prefix_refl _) "a:b" ?_
  decide

end Login

end ImServer
