import ImServer.Channel.ChannelNotify

/-!
# The push settings of a channel

The score of a channel in the list of a user has one bit that hides the channel and one that keeps
it quiet. `setChannelPushStatus` (channel/channel_notify.cpp) sets one of them and is to take the
other one over from the score that is stored. `getChannelSetOnStatus` (channel/redisMgr.cpp) has its
result parameter by value, so that the other one is always cleared.
-/

namespace ImServer

open Login (Text ChannelMap RedisClient)

namespace Notice

def chnnIsHide : Nat := 0x01

def chnnUndisturb : Nat := 0x10

/-- The score that is written when the variable `nSetOn` has that value. -/
def nextSetOn (nSetOn : Nat) (msg : SVRRadioPushSetNotify) : Nat :=
  if msg.notifyType = .isHide then
    (nSetOn &&& chnnUndisturb) ||| (if msg.status ≠ 0 then 0x01 else 0x00)
  else (if msg.status ≠ 0 then 0x10 else 0x00) ||| (nSetOn &&& chnnIsHide)

theorem setOn_eq_nextSetOn (msg : SVRRadioPushSetNotify) : setOn msg = nextSetOn 0 msg := by
  unfold setOn nextSetOn
  split_ifs <;> rfl

/-- What is stored for a channel of a user; a channel without a score has no setting. -/
def storedSetOn (db : ChannelDb) (userId radioId : String) : Nat :=
  ((db.getUserChannel userId).lookup (CText.bytes radioId)).getD 0

def isHideOn (score : Nat) : Bool := score.testBit 0

def isUndisturbOn (score : Nat) : Bool := score.testBit 4

/-- One setting is changed and the other one kept, if the score that is stored is passed on. -/
theorem bits_nextSetOn (nSetOn : Nat) (msg : SVRRadioPushSetNotify) :
    isHideOn (nextSetOn nSetOn msg) =
        (if msg.notifyType = .isHide then decide (msg.status ≠ 0) else isHideOn nSetOn) ∧
      isUndisturbOn (nextSetOn nSetOn msg) =
        (if msg.notifyType = .isHide then isUndisturbOn nSetOn else decide (msg.status ≠ 0)) := by
  have hmask : (chnnUndisturb.testBit 0, chnnUndisturb.testBit 4, chnnIsHide.testBit 0,
      chnnIsHide.testBit 4) = (false, true, true, false) := by decide
  simp only [Prod.mk.injEq] at hmask
  obtain ⟨hundisturb0, hundisturb4, hhide0, hhide4⟩ := hmask
  have hbits : ((0x01 : Nat).testBit 4, (0x10 : Nat).testBit 0, (0x10 : Nat).testBit 4,
      (0x01 : Nat).testBit 0) = (false, false, true, true) := by decide
  simp only [Prod.mk.injEq] at hbits
  obtain ⟨h4, h0, h4', h0'⟩ := hbits
  unfold nextSetOn isHideOn isUndisturbOn
  split_ifs <;> simp_all [Nat.testBit_or, Nat.testBit_and]

theorem lookup_insertAt (id : Text) (score : Nat) (map : ChannelMap) :
    (ChannelMap.insertAt true id score map).lookup id = some score := by
  induction map with
  | nil => simp [ChannelMap.insertAt]
  | cons item rest ih =>
    rw [ChannelMap.insertAt, if_pos rfl]
    split
    · simp
    · next hsame =>
      split
      · simp
      · rw [List.lookup_cons, beq_false_of_ne (Ne.symm hsame)]
        exact ih

/-- A setting that a user makes for a channel, with the status that he sends. -/
inductive Setting where
  | hide (status : UInt32)
  | undisturb (status : UInt32)
  deriving DecidableEq, Repr

def Setting.notify (userId radioId : String) : Setting → SVRRadioPushSetNotify
  | .hide status => ⟨userId, radioId, .isHide, status.toNat⟩
  | .undisturb status => ⟨userId, radioId, .undisturb, status.toNat⟩

/-- Whether the channel is hidden after the settings, by the last one that says so. -/
def hideAfter (before : Bool) (settings : List Setting) : Bool :=
  settings.foldl (fun on setting =>
    match setting with
    | .hide status => decide (status ≠ 0)
    | .undisturb _ => on) before

def undisturbAfter (before : Bool) (settings : List Setting) : Bool :=
  settings.foldl (fun on setting =>
    match setting with
    | .hide _ => on
    | .undisturb status => decide (status ≠ 0)) before

variable (client : RedisClient) (login : Redis) (userId radioId : String)

/-- The notifications are handled one after another. -/
def setAll (db : ChannelDb) (settings : List Setting) : ChannelDb :=
  settings.foldl (fun db setting => handle client login db (.pushSet (setting.notify userId radioId)))
    db

/-- Each setting is as it was made last, or as it was before. -/
structure Independent (db : ChannelDb) (settings : List Setting) : Prop where
  hide : isHideOn (storedSetOn (setAll client login userId radioId db settings) userId radioId) =
    hideAfter (isHideOn (storedSetOn db userId radioId)) settings
  undisturb :
    isUndisturbOn (storedSetOn (setAll client login userId radioId db settings) userId radioId) =
      undisturbAfter (isUndisturbOn (storedSetOn db userId radioId)) settings

/-- The setting that was not made at last is to be off. -/
def OtherOff (before : Nat) (settings : List Setting) : Prop :=
  match settings.getLast? with
  | none => True
  | some (.hide _) => undisturbAfter (isUndisturbOn before) settings = false
  | some (.undisturb _) => hideAfter (isHideOn before) settings = false

variable {client login userId radioId} {db : ChannelDb}

theorem storedSetOn_handle (setting : Setting) :
    storedSetOn (handle client login db (.pushSet (setting.notify userId radioId))) userId radioId =
      setOn (setting.notify userId radioId) := by
  have hscore : ∀ status, (ChannelDb.addChannelToUser db userId (CText.bytes radioId) status).lists
      (Login.ChannelRedis.userChannelKey userId) =
        ChannelMap.insertAt true (CText.bytes radioId) status (db.getUserChannel userId) :=
    fun status => Function.update_self ..
  cases setting <;>
    exact congrArg (Option.getD · 0) ((congrArg (List.lookup _) (hscore _)).trans (lookup_insertAt ..))

/-- Settings are as they were made last if and only if the one that was not made at last is off. -/
theorem push_settings_independent_iff (settings : List Setting) :
    Independent client login userId radioId db settings ↔
      OtherOff (storedSetOn db userId radioId) settings := by
  induction settings using List.reverseRecOn with
  | nil => exact ⟨fun _ => trivial, fun _ => ⟨rfl, rfl⟩⟩
  | append_singleton settings setting _ =>
    have hstored : storedSetOn (setAll client login userId radioId db (settings ++ [setting])) userId
        radioId = nextSetOn 0 (setting.notify userId radioId) := by
      rw [setAll, List.foldl_append, List.foldl_cons, List.foldl_nil, storedSetOn_handle,
        setOn_eq_nextSetOn]
    have hstatus : ∀ status : UInt32, decide (status.toNat ≠ 0) = decide (status ≠ 0) :=
      fun status => decide_eq_decide.mpr (by rw [ne_eq, ne_eq, ← UInt32.toNat_inj]; rfl)
    obtain ⟨hhide, hundisturb⟩ := bits_nextSetOn 0 (setting.notify userId radioId)
    have hlast : (settings ++ [setting]).getLast? = some setting := List.getLast?_concat
    cases setting with
    | hide status =>
      have hset : hideAfter (isHideOn (storedSetOn db userId radioId)) (settings ++ [Setting.hide status]) =
          decide (status ≠ 0) := by
        rw [hideAfter, List.foldl_append]
        rfl
      rw [OtherOff, hlast]
      constructor
      · rintro ⟨-, hother⟩
        rw [hstored, hundisturb] at hother
        exact hother.symm
      · intro hoff
        refine ⟨?_, ?_⟩
        · rw [hstored, hhide, hset]
          exact hstatus status
        · rw [hstored, hundisturb]
          exact hoff.symm
    | undisturb status =>
      have hset : undisturbAfter (isUndisturbOn (storedSetOn db userId radioId))
          (settings ++ [Setting.undisturb status]) = decide (status ≠ 0) := by
        rw [undisturbAfter, List.foldl_append]
        rfl
      rw [OtherOff, hlast]
      constructor
      · rintro ⟨hother, -⟩
        rw [hstored, hhide] at hother
        exact hother.symm
      · intro hoff
        refine ⟨?_, ?_⟩
        · rw [hstored, hhide]
          exact hoff.symm
        · rw [hstored, hundisturb, hset]
          exact hstatus status

/-- A user hides a channel and then wants to be left undisturbed: it is no longer hidden. -/
theorem not_push_settings_independent :
    ¬ ∀ (client : RedisClient) (login : Redis) (settings : List Setting),
      Independent client login "u" "r" {} settings := by
  intro h
  have hhidden := (h ⟨fun _ => none, fun _ => none⟩ {} [.hide 1, .undisturb 1]).hide
  rw [setAll, List.foldl_cons, List.foldl_cons, List.foldl_nil, storedSetOn_handle] at hhidden
  exact absurd hhidden (by decide)

end Notice

end ImServer
