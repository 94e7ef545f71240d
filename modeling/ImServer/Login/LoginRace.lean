import ImServer.Lib.Run
import ImServer.Lib.Turns
import ImServer.Login.LoginHandle

/-!
# A login and the close of an older link

The handlers of a close notification and of a login of the same user run on different
threads, one redis command at a time. Each first reads the record of the user and then
executes the commands it has decided on.
-/

namespace ImServer

namespace Redis

inductive Op where
  | hmset (fields : RedisFields)
  | del
  | expire
  | persist
  deriving DecidableEq

structure Cmd where
  key : String
  op : Op
  deriving DecidableEq

def exec (r : Redis) (c : Cmd) : Redis :=
  match c.op with
  | .hmset fields => r.hmset c.key fields
  | .del => r.del c.key
  | .expire => r.expire c.key
  | .persist => r.persist c.key

/-- What redis has under a key: the hash, and whether it is going to expire. -/
structure Entry where
  hash : Option RedisHash
  expires : Bool

def entry (r : Redis) (key : String) : Entry := ⟨r.hash key, r.expires key⟩

def Op.apply : Op → Entry → Entry
  | .hmset fields, e => { e with hash := some ((e.hash.getD fun _ => none).set fields) }
  | .del, _ => ⟨none, false⟩
  | .expire, e => { e with expires := true }
  | .persist, e => { e with expires := false }

/-- The effect of a command on the entry of a key. -/
def Cmd.effect (key : String) (e : Entry) (c : Cmd) : Entry :=
  if c.key = key then c.op.apply e else e

theorem entry_exec (r : Redis) (c : Cmd) (key : String) :
    (r.exec c).entry key = c.effect key (r.entry key) := by
  obtain ⟨k, op⟩ := c
  by_cases h : k = key
  · subst h
    rw [Cmd.effect, if_pos rfl]
    cases op with
    | hmset fields => simp only [exec, entry, hmset, Function.update_self, Op.apply]
    | del => simp only [exec, entry, del, Function.update_self, Op.apply]
    | expire => simp only [exec, entry, expire, Function.update_self, Op.apply]
    | persist => simp only [exec, entry, persist, Function.update_self, Op.apply]
  · have hne : key ≠ k := Ne.symm h
    rw [Cmd.effect, if_neg h]
    cases op with
    | hmset fields => simp only [exec, entry, hmset, Function.update_of_ne hne]
    | del => simp only [exec, entry, del, Function.update_of_ne hne]
    | expire => simp only [exec, entry, expire, Function.update_of_ne hne]
    | persist => simp only [exec, entry, persist, Function.update_of_ne hne]

theorem hash_foldl_effect {key : String} {e e' : Entry} (h : e.hash = e'.hash) (cmds : List Cmd) :
    (cmds.foldl (Cmd.effect key) e).hash = (cmds.foldl (Cmd.effect key) e').hash := by
  induction cmds generalizing e e' with
  | nil => exact h
  | cons c cmds ih =>
    refine ih ?_
    unfold Cmd.effect
    split
    · cases c.op with
      | hmset fields => simp only [Op.apply, h]
      | del => rfl
      | expire => exact h
      | persist => exact h
    · exact h

end Redis

namespace Login

open Redis

def closeCommands (userId : String) : List Cmd :=
  [⟨cmKey userId, .hmset [(.status, "0")]⟩, ⟨cmKey userId, .expire⟩]

/-- The commands of `OnCmLoginNotify` after it has read the record. -/
def notifyCommands (notify : CMLoginNotify) : Option UserCache → List Cmd
  | some rec =>
    if notify.notifyType = 0 ∧ notify.Matches rec then closeCommands notify.userId else []
  | none => []

/-- The commands of `UpdateUserInfo` for the devices. -/
def updateDeviceCommands (login : CMLoginTrans) (cacheDevice : String) : List Cmd :=
  (if checkCacheDevice cacheDevice login.deviceToken then []
    else [⟨cmdtKey cacheDevice, .del⟩]) ++
  [⟨cmdtKey login.deviceToken, .hmset [(.subscriber, login.userId)]⟩]

def updateCommands (login : CMLoginTrans) (cacheDevice : String) (now : Nat) : List Cmd :=
  let user := userCacheOfLogin login
  ⟨cmKey login.userId, .hmset (loginFields user "1" now ++ pushFields user)⟩ ::
    ⟨cmKey login.userId, .persist⟩ :: updateDeviceCommands login cacheDevice

/-- The commands of `SaveUserInfo` for the device. -/
def saveDeviceCommands (login : CMLoginTrans) : List Cmd :=
  [⟨cmdtKey login.deviceToken, .del⟩,
    ⟨cmdtKey login.deviceToken, .hmset [(.subscriber, login.userId)]⟩]

def saveCommands (login : CMLoginTrans) (now : Nat) : List Cmd :=
  let user := userCacheOfLogin login
  ⟨cmKey login.userId,
      .hmset (loginFields user "0" now ++ [(.loginTime, toString now)] ++ pushFields user)⟩ ::
    ⟨cmKey login.userId, .persist⟩ :: saveDeviceCommands login

/-- The commands of `OnLogin` after it has read the record. -/
def loginCommands (env : Env) (login : CMLoginTrans) (rec : Option UserCache) : List Cmd :=
  if login.userId = "" ∨ verifyDeviceToken login.deviceToken = false then []
  else
    match rec with
    | some rec =>
      if relogAuth env login rec ≠ .nonErr then []
      else updateCommands login rec.deviceToken env.now
    | none => if checkAuth env.answer ≠ .nonErr then [] else saveCommands login env.now

theorem onCmLoginNotify_eq (env : Env) (r : Redis) (notify : CMLoginNotify) :
    (onCmLoginNotify env r notify).1 =
      (notifyCommands notify (r.getUserRecord (cmKey notify.userId) env.uninit)).foldl exec r := by
  unfold onCmLoginNotify notifyCommands
  cases r.getUserRecord (cmKey notify.userId) env.uninit with
  | none => rfl
  | some rec =>
    dsimp only
    split
    · rfl
    · rfl

theorem updateUserInfo_eq (r : Redis) (login : CMLoginTrans) (cacheDevice : String) (now : Nat) :
    updateUserInfo r login cacheDevice now =
      (updateCommands login cacheDevice now).foldl exec r := by
  unfold updateUserInfo updateCommands updateDeviceCommands
  dsimp only
  split
  · rfl
  · rfl

theorem onLogin_eq (env : Env) (r : Redis) (login : CMLoginTrans) :
    (onLogin env r login).redis =
      (loginCommands env login (r.getUserRecord (cmKey login.userId) env.uninit)).foldl exec r := by
  unfold onLogin loginCommands
  by_cases huser : login.userId = ""
  · simp [huser]
  · by_cases htoken : verifyDeviceToken login.deviceToken = false
    · simp [huser, htoken]
    · rw [if_neg huser, if_neg htoken, if_neg (not_or.mpr ⟨huser, htoken⟩)]
      cases r.getUserRecord (cmKey login.userId) env.uninit with
      | none =>
        dsimp only
        split
        · rfl
        · rfl
      | some rec =>
        dsimp only
        split
        · rfl
        · exact updateUserInfo_eq ..

theorem key_of_mem_updateDeviceCommands {login : CMLoginTrans} {cacheDevice : String} {c : Cmd}
    (hc : c ∈ updateDeviceCommands login cacheDevice) : c.key ≠ cmKey login.userId := by
  have hkey : ∃ token, c.key = cmdtKey token := by
    rcases List.mem_append.mp hc with hc | hc
    · split at hc
      · cases hc
      · exact ⟨_, congrArg Cmd.key (List.mem_singleton.mp hc)⟩
    · exact ⟨_, congrArg Cmd.key (List.mem_singleton.mp hc)⟩
  obtain ⟨token, hkey⟩ := hkey
  rw [hkey]
  exact (cmKey_ne_cmdtKey login.userId token).symm

theorem key_of_mem_saveDeviceCommands {login : CMLoginTrans} {c : Cmd}
    (hc : c ∈ saveDeviceCommands login) : c.key ≠ cmKey login.userId := by
  have hkey : c.key = cmdtKey login.deviceToken := by
    rcases List.mem_cons.mp hc with rfl | hc
    · rfl
    · exact congrArg Cmd.key (List.mem_singleton.mp hc)
  rw [hkey]
  exact (cmKey_ne_cmdtKey login.userId login.deviceToken).symm

/-- What an accepted login writes to the record of the user. -/
structure LoginWrites (login : CMLoginTrans) (fields : RedisFields) : Prop where
  status : fields.lookup .status = some "1"
  cmIp : fields.lookup .cmIp = some login.loginIp
  cmPort : fields.lookup .cmPort = some (toString login.loginPort.toUInt16.toNat)
  sessionId : fields.lookup .sessionId = some login.host

/-- An accepted login first writes the record and makes it persistent, and goes on with
the devices. -/
theorem loginCommands_accepted {env : Env} {r : Redis} {login : CMLoginTrans}
    (h : (onLogin env r login).err = .nonErr) :
    ∃ fields rest, LoginWrites login fields ∧ (∀ c ∈ rest, c.key ≠ cmKey login.userId) ∧
      loginCommands env login (r.getUserRecord (cmKey login.userId) env.uninit) =
        ⟨cmKey login.userId, .hmset fields⟩ :: ⟨cmKey login.userId, .persist⟩ :: rest := by
  unfold onLogin at h
  unfold loginCommands
  split at h
  · cases h
  · next huser =>
    split at h
    · cases h
    · next htoken =>
      rw [if_neg (not_or.mpr ⟨huser, htoken⟩)]
      cases hrec : r.getUserRecord (cmKey login.userId) env.uninit with
      | some rec =>
        rw [hrec] at h
        dsimp only at h ⊢
        split at h
        · next herr => exact absurd h herr
        · next herr =>
          rw [if_neg herr]
          refine ⟨_, _, ⟨rfl, rfl, rfl, rfl⟩, ?_, rfl⟩
          exact fun c => key_of_mem_updateDeviceCommands
      | none =>
        rw [hrec] at h
        dsimp only at h ⊢
        split at h
        · next herr => exact absurd h herr
        · next herr =>
          rw [if_neg herr]
          refine ⟨_, _, ⟨rfl, rfl, rfl, rfl⟩, ?_, rfl⟩
          exact fun c => key_of_mem_saveDeviceCommands

open Turns

/-- The record that a handler makes of an entry. -/
def Entry.user (e : Entry) (env : Env) : Option UserCache := e.hash.map (userCacheOf env.uninit)

/-- Both handlers in progress: `none` has not read the record yet, else the commands are
those that are left. -/
structure Race where
  redis : Redis
  notify : Option (List Cmd) := none
  login : Option (List Cmd) := none

/-- The messages that the handlers process, and what is outside of redis. -/
structure Handlers where
  notifyEnv : Env := {}
  notify : CMLoginNotify
  loginEnv : Env := {}
  login : CMLoginTrans

variable (m : Handlers)

def Handlers.notifyProgram (e : Entry) : List Cmd := notifyCommands m.notify (Entry.user e m.notifyEnv)

def Handlers.loginProgram (e : Entry) : List Cmd :=
  loginCommands m.loginEnv m.login (Entry.user e m.loginEnv)

/-- A turn of `OnCmLoginNotify` or of `OnLogin`: the read of the record first, and then one command
after the other. -/
def Handlers.turn (s : Race) : Party → Race
  | .first =>
    match s.notify with
    | none =>
      { s with notify := some (m.notifyProgram (s.redis.entry (cmKey m.notify.userId))) }
    | some [] => s
    | some (c :: rest) => { s with redis := s.redis.exec c, notify := some rest }
  | .second =>
    match s.login with
    | none => { s with login := some (m.loginProgram (s.redis.entry (cmKey m.login.userId))) }
    | some [] => s
    | some (c :: rest) => { s with redis := s.redis.exec c, login := some rest }

/-- Both handlers have returned: each has read the record and done all of its commands. -/
def Race.Finished (s : Race) : Prop := s.notify = some [] ∧ s.login = some []

instance (s : Race) : Decidable s.Finished := inferInstanceAs (Decidable (_ ∧ _))

/-- The state after a schedule. -/
def Handlers.race (r : Redis) (sched : Schedule) : Race := sched.foldl m.turn { redis := r }

/-- What `OnCmLoginNotify` has left to do, and the entry of the user. -/
structure View where
  notify : Option (List Cmd)
  entry : Entry

def Race.view (s : Race) (key : String) : View := ⟨s.notify, s.redis.entry key⟩

def View.turn (key : String) (v : View) : View :=
  match v.notify with
  | none => { v with notify := some (m.notifyProgram v.entry) }
  | some [] => v
  | some (c :: rest) => ⟨some rest, c.effect key v.entry⟩

/-- A command of `OnLogin`. -/
def View.exec (key : String) (c : Cmd) (v : View) : View := { v with entry := c.effect key v.entry }

variable {m} {key : String} {s : Race} {v : View} {sched : Schedule}

theorem view_turn_first (hkey : cmKey m.notify.userId = key) :
    (m.turn s .first).view key = (s.view key).turn m key := by
  obtain ⟨r, notify, login⟩ := s
  subst hkey
  match notify with
  | none => rfl
  | some [] => rfl
  | some (c :: rest) =>
    simp only [Handlers.turn, View.turn, Race.view, entry_exec]

theorem login_turn_first : (m.turn s .first).login = s.login := by
  unfold Handlers.turn
  dsimp only
  split
  · rfl
  · rfl
  · rfl

theorem turn_second_nil (hlogin : s.login = some []) : m.turn s .second = s := by
  simp only [Handlers.turn, hlogin]

theorem turn_second_cons {c : Cmd} {rest : List Cmd} (hlogin : s.login = some (c :: rest)) :
    m.turn s .second = { s with redis := s.redis.exec c, login := some rest } := by
  simp only [Handlers.turn, hlogin]

theorem view_foldl_started (hkey : cmKey m.notify.userId = key) {cmds : List Cmd}
    (hlogin : s.login = some cmds) :
    (sched.foldl m.turn s).view key =
      interleave (View.turn m key) (cmds.map (View.exec key)) sched (s.view key) := by
  induction sched generalizing s cmds with
  | nil => cases cmds <;> rfl
  | cons turn sched ih =>
    rw [List.foldl_cons]
    cases turn with
    | first =>
      rw [ih (login_turn_first.trans hlogin), view_turn_first hkey]
      cases cmds <;> rfl
    | second =>
      cases cmds with
      | nil =>
        rw [turn_second_nil hlogin, ih hlogin]
        rfl
      | cons c rest =>
        rw [turn_second_cons hlogin, ih rfl]
        simp only [Race.view, entry_exec]
        rfl

theorem login_foldl_first (hsecond : .second ∉ sched) : (sched.foldl m.turn s).login = s.login := by
  refine Run.foldl_keeps Race.login ?_ s
  intro s turn hturn
  cases turn with
  | first => exact login_turn_first
  | second => exact absurd hturn hsecond

theorem foldl_start (hkey : cmKey m.notify.userId = key) (hkey' : cmKey m.login.userId = key)
    (hlogin : s.login = none) (hsecond : .second ∈ sched) :
    ∃ s', sched.foldl m.turn s = (behind sched).foldl m.turn s' ∧
      s'.view key = (View.turn m key)^[leading sched] (s.view key) ∧
      s'.login = some (m.loginProgram (s'.view key).entry) := by
  induction sched generalizing s with
  | nil => cases hsecond
  | cons turn sched ih =>
    cases turn with
    | first =>
      have hrest := (List.mem_cons.mp hsecond).resolve_left Party.noConfusion
      obtain ⟨s', hfoldl, hview, hprogram⟩ := ih (login_turn_first.trans hlogin) hrest
      refine ⟨s', hfoldl, ?_, hprogram⟩
      rw [hview, view_turn_first hkey, leading_first, Function.iterate_succ_apply]
    | second =>
      refine ⟨{ s with login := some (m.loginProgram (s.redis.entry key)) }, ?_, rfl, rfl⟩
      have hread : m.turn s .second =
          { s with login := some (m.loginProgram (s.redis.entry key)) } := by
        simp only [Handlers.turn, hlogin, hkey']
      rw [List.foldl_cons, hread]
      rfl

theorem login_foldl_started {cmds : List Cmd} (hlogin : s.login = some cmds) :
    (sched.foldl m.turn s).login = some (cmds.drop (sched.count .second)) := by
  induction sched generalizing s cmds with
  | nil => exact hlogin
  | cons turn sched ih =>
    rw [List.foldl_cons]
    cases turn with
    | first =>
      rw [ih (login_turn_first.trans hlogin), List.count_cons_of_ne Party.noConfusion]
    | second =>
      rw [List.count_cons_self]
      cases cmds with
      | nil => rw [turn_second_nil hlogin, ih hlogin, List.drop_nil, List.drop_nil]
      | cons c rest => rw [turn_second_cons hlogin, ih rfl, List.drop_succ_cons]

/-- The entry when the notification goes on alone. -/
def View.finish (m : Handlers) (key : String) (v : View) : Entry :=
  match v.notify with
  | none => (m.notifyProgram v.entry).foldl (Cmd.effect key) v.entry
  | some cmds => cmds.foldl (Cmd.effect key) v.entry

theorem finish_iterate (n : Nat) (v : View) :
    ((View.turn m key)^[n] v).finish m key = v.finish m key := by
  induction n generalizing v with
  | zero => rfl
  | succ n ih =>
    rw [Function.iterate_succ_apply, ih]
    obtain ⟨notify, e⟩ := v
    match notify with
    | none => rfl
    | some [] => rfl
    | some (c :: rest) => rfl

theorem iterate_turn_some (n : Nat) (cmds : List Cmd) (e : Entry) :
    (View.turn m key)^[n] ⟨some cmds, e⟩ =
      ⟨some (cmds.drop n), (cmds.take n).foldl (Cmd.effect key) e⟩ := by
  induction n generalizing cmds e with
  | zero => rfl
  | succ n ih =>
    rw [Function.iterate_succ_apply]
    cases cmds with
    | nil => exact (ih [] e).trans (by rw [List.drop_nil, List.take_nil, List.drop_nil, List.take_nil])
    | cons c rest => exact ih rest _

/-- The notification decides to close the link when it reads the entry. -/
def Handlers.Closes (m : Handlers) (e : Entry) : Prop :=
  ∃ rec ∈ Entry.user e m.notifyEnv, m.notify.notifyType = 0 ∧ m.notify.Matches rec

instance (m : Handlers) (e : Entry) : Decidable (m.Closes e) :=
  inferInstanceAs (Decidable (∃ rec ∈ _, _))

theorem notifyProgram_eq (e : Entry) :
    m.notifyProgram e = if m.Closes e then closeCommands m.notify.userId else [] := by
  unfold Handlers.notifyProgram notifyCommands
  split
  · next rec hrec => simp [Handlers.Closes, hrec]
  · next hrec => simp [Handlers.Closes, hrec]

/-- At most the status of the record has been changed. -/
def Marked (e e' : Entry) : Prop :=
  e'.hash = e.hash ∨ ∃ h, e.hash = some h ∧ e'.hash = some (h.set [(.status, "0")])

theorem marked_take (hkey : cmKey m.notify.userId = key) (n : Nat) (e : Entry) :
    Marked e (((m.notifyProgram e).take n).foldl (Cmd.effect key) e) := by
  rw [notifyProgram_eq]
  split
  · next hcloses =>
    obtain ⟨rec, hrec, -⟩ := hcloses
    obtain ⟨h, hh, -⟩ := Option.map_eq_some_iff.mp hrec
    match n with
    | 0 => exact .inl rfl
    | 1 =>
      refine .inr ⟨h, hh, ?_⟩
      simp [closeCommands, Cmd.effect, hkey, Op.apply, hh]
    | n + 2 =>
      refine .inr ⟨h, hh, ?_⟩
      simp [closeCommands, Cmd.effect, hkey, Op.apply, hh]
  · rw [List.take_nil]
    exact .inl rfl

theorem loginProgram_of_marked {e e' : Entry} (h : Marked e e') :
    m.loginProgram e' = m.loginProgram e := by
  unfold Handlers.loginProgram Entry.user
  obtain heq | ⟨hash, heq, heq'⟩ := h
  · rw [heq]
  · rw [heq, heq']
    rfl

theorem iterate_turn_none (n : Nat) (e : Entry) :
    (View.turn m key)^[n + 1] ⟨none, e⟩ = ⟨some ((m.notifyProgram e).drop n),
      ((m.notifyProgram e).take n).foldl (Cmd.effect key) e⟩ := by
  rw [Function.iterate_succ_apply]
  exact iterate_turn_some n (m.notifyProgram e) e

theorem loginProgram_iterate (hkey : cmKey m.notify.userId = key) (n : Nat) (e : Entry) :
    m.loginProgram ((View.turn m key)^[n] ⟨none, e⟩).entry = m.loginProgram e := by
  cases n with
  | zero => rfl
  | succ n =>
    rw [iterate_turn_none]
    exact loginProgram_of_marked (marked_take hkey n e)

/-- The turns of the notification before the login writes the record. -/
def turnsBeforeWrite (sched : Schedule) : Nat := leading sched + leading (behind sched)

/-- The turns of the notification before the login makes the record persistent. -/
def turnsBeforePersist (sched : Schedule) : Nat :=
  turnsBeforeWrite sched + leading (behind (behind sched))

/-- A finished race: the notification has its turns before the login writes the record,
before it makes the record persistent, and after that. -/
theorem view_race {r : Redis} (huser : m.notify.userId = m.login.userId)
    (hkey : cmKey m.login.userId = key) {fields : RedisFields} {rest : List Cmd}
    (hrest : ∀ c ∈ rest, c.key ≠ key)
    (hprogram : m.loginProgram (r.entry key) = ⟨key, .hmset fields⟩ :: ⟨key, .persist⟩ :: rest)
    (hfinished : (m.race r sched).Finished) :
    ∃ n, (m.race r sched).view key =
      (View.turn m key)^[n] (View.exec key ⟨key, .persist⟩
        ((View.turn m key)^[leading (behind (behind sched))] (View.exec key ⟨key, .hmset fields⟩
          ((View.turn m key)^[turnsBeforeWrite sched] ⟨none, r.entry key⟩)))) := by
  have hnotify : cmKey m.notify.userId = key := by rw [huser, hkey]
  have hacts : ∀ g ∈ rest.map (View.exec key), g = id := by
    intro g hg
    obtain ⟨c, hc, rfl⟩ := List.mem_map.mp hg
    funext v
    rw [View.exec, Cmd.effect, if_neg (hrest c hc), id]
  -- The login has finished, and so had the turns for its first three actions.
  have hfirst : .second ∈ sched := by
    by_contra hsecond
    have hnone : (m.race r sched).login = none := login_foldl_first hsecond
    rw [hfinished.2] at hnone
    cases hnone
  obtain ⟨s', hfoldl, hread, hlogin⟩ : ∃ s', m.race r sched = (behind sched).foldl m.turn s' ∧
      s'.view key = (View.turn m key)^[leading sched] ⟨none, r.entry key⟩ ∧
      s'.login = some (m.loginProgram (s'.view key).entry) :=
    foldl_start (s := { redis := r }) hnotify hkey rfl hfirst
  rw [hread, loginProgram_iterate hnotify, hprogram] at hlogin
  have hcount : 2 ≤ (behind sched).count .second := by
    have hdrop := hfinished.2
    rw [hfoldl, login_foldl_started hlogin, Option.some.injEq,
      List.drop_eq_nil_iff] at hdrop
    simp only [List.length_cons] at hdrop
    omega
  have hsecond : .second ∈ behind sched := List.count_pos_iff.mp (by omega)
  have hthird : .second ∈ behind (behind sched) := by
    refine List.count_pos_iff.mp ?_
    rw [count_behind hsecond] at hcount
    omega
  refine ⟨(behind (behind (behind sched))).count .first, ?_⟩
  rw [hfoldl, view_foldl_started hnotify hlogin, hread, List.map_cons, List.map_cons,
    interleave_cons hsecond, interleave_cons hthird, interleave_id hacts,
    ← Function.iterate_add_apply, Nat.add_comm (leading (behind sched))]
  rfl

/-- The record is online on the link of the login. -/
def OnlineAt (login : CMLoginTrans) (rec : UserCache) : Prop :=
  rec.status = 1 ∧ rec.sessionId = login.host ∧ rec.ipAddr = login.loginIp ∧
    rec.ipPort = login.loginPort.toUInt16

instance (login : CMLoginTrans) (rec : UserCache) : Decidable (OnlineAt login rec) :=
  inferInstanceAs (Decidable (_ ∧ _))

theorem onlineAt_of_writes {login : CMLoginTrans} {fields : RedisFields}
    (h : LoginWrites login fields) (hash : RedisHash) (uninit : UserCache) :
    OnlineAt login (userCacheOf uninit (hash.set fields)) := by
  have hport : UInt16.ofInt (CText.atoi (toString login.loginPort.toUInt16.toNat)) =
      login.loginPort.toUInt16 := by
    have hlt : (login.loginPort.toUInt16.toNat : Int) < 2 ^ 16 := by
      exact_mod_cast login.loginPort.toUInt16.toNat_lt
    rw [CText.atoi_toString, UInt16.ofInt, Int.emod_eq_of_lt (Int.natCast_nonneg _) hlt,
      Int.toNat_natCast, UInt16.ofNat_toNat]
  have hstatus : UInt8.ofInt (CText.atoi "1") = 1 := by decide
  refine ⟨?_, ?_, ?_, ?_⟩
  · simp only [userCacheOf, RedisHash.set, h.status, Option.some_or, Option.elim_some, hstatus]
  · simp only [userCacheOf, RedisHash.set, h.sessionId, Option.some_or, Option.getD_some]
  · simp only [userCacheOf, RedisHash.set, h.cmIp, Option.some_or, Option.getD_some]
  · simp only [userCacheOf, RedisHash.set, h.cmPort, Option.some_or, Option.elim_some, hport]

/-- The notification is about the very link that the login is on. -/
def CMLoginNotify.IsOf (notify : CMLoginNotify) (login : CMLoginTrans) : Prop :=
  notify.ip = login.loginIp ∧ notify.port.toNat = login.loginPort.toUInt16.toNat ∧
    notify.host = login.host

instance (notify : CMLoginNotify) (login : CMLoginTrans) : Decidable (notify.IsOf login) :=
  inferInstanceAs (Decidable (_ ∧ _))

theorem closes_written_iff {fields : RedisFields} (h : LoginWrites m.login fields)
    (hash : RedisHash) (expires : Bool) :
    m.Closes ⟨some (hash.set fields), expires⟩ ↔
      m.notify.notifyType = 0 ∧ m.notify.IsOf m.login := by
  obtain ⟨hstatus, hsession, hip, hport⟩ := onlineAt_of_writes h hash m.notifyEnv.uninit
  simp only [Handlers.Closes, Entry.user, Option.map_some, Option.mem_def, Option.some.injEq,
    exists_eq_left', CMLoginNotify.Matches, CMLoginNotify.IsOf, hstatus, hsession, hip, hport,
    true_and]

theorem closes_effect_iff {fields : RedisFields} (h : LoginWrites m.login fields) (e : Entry) :
    m.Closes ((⟨key, .hmset fields⟩ : Cmd).effect key e) ↔
      m.notify.notifyType = 0 ∧ m.notify.IsOf m.login := by
  rw [Cmd.effect, if_pos rfl]
  exact closes_written_iff h _ _

/-- The close marks the record of the newer login: it is about the link of that login, or
its check of the older record comes before the login and its write after it. -/
def Handlers.MarksLogin (m : Handlers) (r : Redis) (sched : Schedule) : Prop :=
  (turnsBeforeWrite sched = 0 ∧ m.notify.notifyType = 0 ∧ m.notify.IsOf m.login) ∨
    (turnsBeforeWrite sched = 1 ∧ m.Closes (r.entry (cmKey m.login.userId)))

/-- The close lets the record of the newer login expire: only its last command comes after
the login. -/
def Handlers.ExpiresLogin (m : Handlers) (r : Redis) (sched : Schedule) : Prop :=
  turnsBeforeWrite sched = 2 ∧ turnsBeforePersist sched = 2 ∧
    m.Closes (r.entry (cmKey m.login.userId))

instance (m : Handlers) (r : Redis) (sched : Schedule) : Decidable (m.MarksLogin r sched) :=
  inferInstanceAs (Decidable (_ ∨ _))

instance (m : Handlers) (r : Redis) (sched : Schedule) : Decidable (m.ExpiresLogin r sched) :=
  inferInstanceAs (Decidable (_ ∧ _))

theorem hash_close (hkey : cmKey m.notify.userId = key) {hash : RedisHash} {e : Entry}
    (h : e.hash = some hash) :
    ((closeCommands m.notify.userId).foldl (Cmd.effect key) e).hash =
      some (hash.set [(.status, "0")]) := by
  simp [closeCommands, Cmd.effect, hkey, Op.apply, h]

theorem hash_close_drop (n : Nat) (e : Entry) :
    ((closeCommands m.notify.userId).drop (n + 1) |>.foldl (Cmd.effect key) e).hash = e.hash := by
  cases n with
  | zero =>
    simp only [closeCommands, List.drop_succ_cons, List.drop_zero, List.foldl_cons, List.foldl_nil,
      Cmd.effect]
    split
    · rfl
    · rfl
  | succ n => simp [closeCommands]

theorem set_status_set {login : CMLoginTrans} {fields : RedisFields} (h : LoginWrites login fields)
    (hash : RedisHash) : (hash.set [(.status, "0")]).set fields = hash.set fields := by
  funext f
  by_cases hf : f = .status
  · simp [RedisHash.set, hf, h.status]
  · have hlookup : [(RedisField.status, "0")].lookup f = none := by
      rw [List.lookup_cons, beq_false_of_ne hf]
      rfl
    simp only [RedisHash.set, hlookup, Option.none_or]

theorem hash_write_of_marked {fields : RedisFields} (h : LoginWrites m.login fields)
    {e e' : Entry} (hmarked : Marked e e') :
    ((⟨key, .hmset fields⟩ : Cmd).effect key e').hash =
      some ((e.hash.getD fun _ => none).set fields) := by
  rw [Cmd.effect, if_pos rfl, Op.apply]
  obtain heq | ⟨hash, heq, heq'⟩ := hmarked
  · rw [heq]
  · rw [heq, heq']
    exact congrArg some (set_status_set h hash)

theorem exec_persist (v : View) :
    View.exec key ⟨key, .persist⟩ v = ⟨v.notify, { v.entry with expires := false }⟩ := by
  rw [View.exec, Cmd.effect, if_pos rfl]
  rfl

theorem finish_persist_hash (v : View) :
    ((View.exec key ⟨key, .persist⟩ v).finish m key).hash = (v.finish m key).hash := by
  have hsame : ({ v.entry with expires := false } : Entry).hash = v.entry.hash := rfl
  rw [exec_persist]
  obtain ⟨notify, e⟩ := v
  match notify with
  | none => exact hash_foldl_effect hsame (m.notifyProgram e)
  | some cmds => exact hash_foldl_effect hsame cmds

section Race

variable {r : Redis} {fields : RedisFields} {rest : List Cmd}

theorem entry_race (huser : m.notify.userId = m.login.userId) (hkey : cmKey m.login.userId = key)
    (hrest : ∀ c ∈ rest, c.key ≠ key)
    (hprogram : m.loginProgram (r.entry key) = ⟨key, .hmset fields⟩ :: ⟨key, .persist⟩ :: rest)
    (hfinished : (m.race r sched).Finished) :
    (m.race r sched).redis.entry key =
      (View.exec key ⟨key, .persist⟩ ((View.turn m key)^[leading (behind (behind sched))]
        (View.exec key ⟨key, .hmset fields⟩
          ((View.turn m key)^[turnsBeforeWrite sched] ⟨none, r.entry key⟩)))).finish m key := by
  obtain ⟨n, hview⟩ := view_race huser hkey hrest hprogram hfinished
  have hfinish : ((m.race r sched).view key).finish m key = (m.race r sched).redis.entry key := by
    simp only [Race.view, View.finish, hfinished.1, List.foldl_nil]
  rw [← hfinish, hview, finish_iterate]

theorem hash_close_if (hkey : cmKey m.notify.userId = key) {hash : RedisHash} {e : Entry}
    (h : e.hash = some hash) (p : Prop) [Decidable p] :
    ((if p then closeCommands m.notify.userId else []).foldl (Cmd.effect key) e).hash =
      some (if p then hash.set [(.status, "0")] else hash) := by
  split
  · exact hash_close hkey h
  · exact h

/-- The login writes the record after some turns of the notification, which goes on to its end. -/
theorem hash_finish_write (hkey : cmKey m.notify.userId = key) (hwrites : LoginWrites m.login fields)
    (n : Nat) (e : Entry) :
    ((View.exec key ⟨key, .hmset fields⟩ ((View.turn m key)^[n] ⟨none, e⟩)).finish m key).hash =
      some (if (n = 0 ∧ m.notify.notifyType = 0 ∧ m.notify.IsOf m.login) ∨ (n = 1 ∧ m.Closes e) then
        ((e.hash.getD fun _ => none).set fields).set [(.status, "0")]
      else (e.hash.getD fun _ => none).set fields) := by
  have hwrite : ∀ e', Marked e e' → ((⟨key, .hmset fields⟩ : Cmd).effect key e').hash =
      some ((e.hash.getD fun _ => none).set fields) := fun e' => hash_write_of_marked hwrites
  match n with
  | 0 =>
    -- The notification reads the record of the login.
    simp only [Function.iterate_zero, id, View.exec, View.finish, notifyProgram_eq,
      closes_effect_iff hwrites]
    rw [hash_close_if hkey (hwrite e (.inl rfl))]
    simp
  | 1 =>
    rw [iterate_turn_none]
    simp only [View.exec, View.finish, notifyProgram_eq, List.drop_zero, List.take_zero,
      List.foldl_nil]
    rw [hash_close_if hkey (hwrite e (.inl rfl))]
    simp
  | n + 2 =>
    -- The write of the notification comes before that of the login.
    rw [iterate_turn_none, if_neg (by simp)]
    refine Eq.trans ?_ (hwrite _ (marked_take hkey (n + 1) e))
    simp only [View.exec, View.finish, notifyProgram_eq]
    split
    · exact hash_close_drop n _
    · rw [List.drop_nil]
      rfl

theorem hash_race (huser : m.notify.userId = m.login.userId) (hkey : cmKey m.login.userId = key)
    (hwrites : LoginWrites m.login fields) (hrest : ∀ c ∈ rest, c.key ≠ key)
    (hprogram : m.loginProgram (r.entry key) = ⟨key, .hmset fields⟩ :: ⟨key, .persist⟩ :: rest)
    (hfinished : (m.race r sched).Finished) :
    ∃ hash : RedisHash, hash = ((r.hash key).getD fun _ => none).set fields ∧
      (m.MarksLogin r sched →
        (m.race r sched).redis.hash key = some (hash.set [(.status, "0")])) ∧
      (¬ m.MarksLogin r sched → (m.race r sched).redis.hash key = some hash) := by
  have hnotify : cmKey m.notify.userId = key := by rw [huser, hkey]
  have hentry := congrArg Entry.hash (entry_race huser hkey hrest hprogram hfinished)
  rw [finish_persist_hash, finish_iterate, hash_finish_write hnotify hwrites] at hentry
  subst hkey
  refine ⟨_, rfl, ?_, ?_⟩
  · intro hmarks
    unfold Handlers.MarksLogin at hmarks
    rw [if_pos hmarks] at hentry
    exact hentry
  · intro hmarks
    unfold Handlers.MarksLogin at hmarks
    rw [if_neg hmarks] at hentry
    exact hentry

/-- A notification that has nothing to do does not let the record expire. -/
theorem expires_idle {v : View} (h : v.notify = some [] ∨ v.notify = none ∧ ¬ m.Closes v.entry)
    (n : Nat) :
    ((View.exec key ⟨key, .persist⟩ ((View.turn m key)^[n] v)).finish m key).expires = false := by
  induction n generalizing v with
  | zero =>
    rw [Function.iterate_zero, id, exec_persist, View.finish]
    rcases h with h | ⟨h, hcloses⟩
    · simp only [h, List.foldl_nil]
    · have hread : ¬ m.Closes { v.entry with expires := false } := hcloses
      simp only [h, notifyProgram_eq, if_neg hread, List.foldl_nil]
  | succ n ih =>
    rw [Function.iterate_succ_apply]
    refine ih (.inl ?_)
    rcases h with h | ⟨h, hcloses⟩
    · simp only [View.turn, h]
    · simp only [View.turn, h, notifyProgram_eq, if_neg hcloses]

/-- What is left of the commands of the notification lets the record expire, unless nothing
is left. -/
theorem expires_close_drop (hkey : cmKey m.notify.userId = key) (n : Nat) (hash : Option RedisHash) :
    ((closeCommands m.notify.userId).drop n |>.foldl (Cmd.effect key) ⟨hash, false⟩).expires = true ↔
      n < 2 := by
  match n with
  | 0 => simp [closeCommands, Cmd.effect, hkey, Op.apply]
  | 1 => simp [closeCommands, Cmd.effect, hkey, Op.apply]
  | n + 2 => simp [closeCommands]

theorem expires_race (huser : m.notify.userId = m.login.userId) (hkey : cmKey m.login.userId = key)
    (hwrites : LoginWrites m.login fields) (hrest : ∀ c ∈ rest, c.key ≠ key)
    (hprogram : m.loginProgram (r.entry key) = ⟨key, .hmset fields⟩ :: ⟨key, .persist⟩ :: rest)
    (hfinished : (m.race r sched).Finished) (hmarks : ¬ m.MarksLogin r sched) :
    (m.race r sched).redis.expires key = true ↔ m.ExpiresLogin r sched := by
  have hnotify : cmKey m.notify.userId = key := by rw [huser, hkey]
  have hentry := congrArg Entry.expires (entry_race huser hkey hrest hprogram hfinished)
  subst hkey
  unfold Handlers.MarksLogin at hmarks
  unfold Handlers.ExpiresLogin turnsBeforePersist
  match hturns : turnsBeforeWrite sched with
  | 0 =>
    have hcloses : ¬ m.Closes ((⟨cmKey m.login.userId, .hmset fields⟩ : Cmd).effect
        (cmKey m.login.userId) (r.entry (cmKey m.login.userId))) :=
      fun h => hmarks (.inl ⟨hturns, (closes_effect_iff hwrites _).mp h⟩)
    have hfalse := hentry.trans (expires_idle (.inr (by rw [hturns]; exact ⟨rfl, hcloses⟩)) _)
    rw [show (m.race r sched).redis.expires _ = false from hfalse]
    simp
  | 1 =>
    have hcloses : ¬ m.Closes (r.entry (cmKey m.login.userId)) :=
      fun h => hmarks (.inr ⟨hturns, h⟩)
    have hnothing : m.notifyProgram (r.entry (cmKey m.login.userId)) = [] := by
      rw [notifyProgram_eq, if_neg hcloses]
    have hfalse := hentry.trans (expires_idle (.inl (by
      rw [hturns, iterate_turn_none, hnothing]
      rfl)) _)
    rw [show (m.race r sched).redis.expires _ = false from hfalse]
    simp
  | n + 2 =>
    have hdrop : ((m.notifyProgram (r.entry (cmKey m.login.userId))).drop (n + 1)).drop
        (leading (behind (behind sched))) = (m.notifyProgram (r.entry (cmKey m.login.userId))).drop
          (n + 1 + leading (behind (behind sched))) := List.drop_drop ..
    rw [exec_persist, hturns, iterate_turn_none, View.exec, iterate_turn_some] at hentry
    refine (Eq.congr_left hentry).trans ?_
    simp only [View.finish, notifyProgram_eq] at hdrop ⊢
    rw [hdrop]
    split
    · next hcloses =>
      rw [expires_close_drop hnotify]
      simp only [hcloses, and_true]
      omega
    · next hcloses => simp [hcloses]

end Race

theorem entry_foldl_exec (r : Redis) (cmds : List Cmd) (key : String) :
    (cmds.foldl exec r).entry key = cmds.foldl (Cmd.effect key) (r.entry key) := by
  induction cmds generalizing r with
  | nil => rfl
  | cons c cmds ih => rw [List.foldl_cons, ih, entry_exec, List.foldl_cons]

theorem hash_onLogin {env : Env} {r : Redis} {login : CMLoginTrans} {fields : RedisFields}
    {rest : List Cmd} (hkey : cmKey login.userId = key) (hrest : ∀ c ∈ rest, c.key ≠ key)
    (hprogram : loginCommands env login (r.getUserRecord key env.uninit) =
      ⟨key, .hmset fields⟩ :: ⟨key, .persist⟩ :: rest) :
    (onLogin env r login).redis.hash key = some (((r.hash key).getD fun _ => none).set fields) := by
  have hothers : ∀ e : Entry, rest.foldl (Cmd.effect key) e = e := by
    refine Run.foldl_keeps id ?_
    intro e c hc
    exact if_neg (hrest c hc)
  show ((onLogin env r login).redis.entry key).hash = _
  rw [onLogin_eq, hkey, hprogram, entry_foldl_exec, List.foldl_cons, List.foldl_cons, hothers]
  simp [Cmd.effect, Op.apply, entry]

/-- The record of the user is what the login alone would have left, and says that he is
online on the link of the login. -/
structure LoginKept (m : Handlers) (r : Redis) (s : Race) : Prop where
  record : s.redis.hash (cmKey m.login.userId) =
    (onLogin m.loginEnv r m.login).redis.hash (cmKey m.login.userId)
  online : ∀ uninit, ∃ rec ∈ s.redis.getUserRecord (cmKey m.login.userId) uninit,
    OnlineAt m.login rec

/-- For every interleaving of the two handlers: the login is kept unless the close marks
its record, and lasts unless the close lets it expire. -/
theorem loginKept_iff {m : Handlers} {r : Redis} {sched : Schedule}
    (huser : m.notify.userId = m.login.userId)
    (haccepted : (onLogin m.loginEnv r m.login).err = .nonErr)
    (hfinished : (m.race r sched).Finished) :
    (LoginKept m r (m.race r sched) ↔ ¬ m.MarksLogin r sched) ∧
      (LoginKept m r (m.race r sched) ∧
          (m.race r sched).redis.expires (cmKey m.login.userId) = false ↔
        ¬ m.MarksLogin r sched ∧ ¬ m.ExpiresLogin r sched) := by
  obtain ⟨fields, rest, hwrites, hrest, hprogram⟩ := loginCommands_accepted haccepted
  obtain ⟨hash, hhash, hmarked, hunmarked⟩ := hash_race huser rfl hwrites hrest hprogram hfinished
  have halone := hash_onLogin rfl hrest hprogram
  rw [← hhash] at halone
  have hkept : LoginKept m r (m.race r sched) ↔ ¬ m.MarksLogin r sched := by
    constructor
    · intro hkept hmarks
      obtain ⟨rec, hrec, hstatus, -⟩ := hkept.online {}
      rw [Redis.getUserRecord, hmarked hmarks] at hrec
      cases hrec
      have hzero : UInt8.ofInt (CText.atoi "0") = 1 := hstatus
      exact absurd hzero (by decide)
    · intro hmarks
      have hfinal := hunmarked hmarks
      refine ⟨hfinal.trans halone.symm, ?_⟩
      intro uninit
      refine ⟨userCacheOf uninit hash, ?_, ?_⟩
      · rw [Redis.getUserRecord, hfinal]
        rfl
      · rw [hhash]
        exact onlineAt_of_writes hwrites _ uninit
  refine ⟨hkept, ?_⟩
  rw [hkept]
  refine and_congr_right fun hmarks => ?_
  rw [← expires_race huser rfl hwrites hrest hprogram hfinished hmarks, Bool.not_eq_true]

/-- A login of user 7 from a host, which the user center accepts. -/
def loginFrom (host : String) : CMLoginTrans where
  userId := "7"
  loginToken := "k"
  deviceToken := "d"
  loginIp := "10.0.0.9"
  loginPort := 8000
  host := host

/-- The link of the host 10.0.0.1:80 is closed while the user logs in again from
10.0.0.1:81. -/
def relogin : Handlers where
  notify := { userId := "7", ip := "10.0.0.9", port := 8000, host := "10.0.0.1:80" }
  loginEnv := { answer := some "200" }
  login := loginFrom "10.0.0.1:81"

/-- The user is online on the older link, before the login on the newer one and the notice of the
older one overlap. -/
def loggedIn : Redis := (onLogin { answer := some "200" } {} (loginFrom "10.0.0.1:80")).redis

/-- The close comes first. -/
theorem loginKept_close_first :
    LoginKept relogin loggedIn (relogin.race loggedIn
      [.first, .first, .first, .second, .second, .second, .second]) :=
  (loginKept_iff rfl (by decide) (by decide)).1.mpr (by decide)

/-- The close reads the older record, the login writes the new one, and then the close
marks it offline. -/
theorem loginKept_fails_between :
    (onLogin relogin.loginEnv loggedIn relogin.login).err = .nonErr ∧
      (relogin.race loggedIn [.first, .second, .second, .second, .second, .first, .first]).Finished ∧
      ¬ LoginKept relogin loggedIn (relogin.race loggedIn
        [.first, .second, .second, .second, .second, .first, .first]) := by
  refine ⟨by decide, by decide, ?_⟩
  intro hkept
  obtain ⟨rec, hrec, honline⟩ := hkept.online {}
  revert rec
  decide

end Login

end ImServer
