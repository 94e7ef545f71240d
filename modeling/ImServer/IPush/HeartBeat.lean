import ImServer.Lib.Run
import Mathlib.Logic.Function.Basic

/-!
# The heart beat of the push connections

`CPostMgr::Start` (ipush/ssl_post_mgr.cpp) gives each hundred of the connections to a thread of its
own, which looks at them one after another, sleeps five seconds and begins again. A connection
without a sign of life is only marked in one round and closed and connected again in the next one,
because a request may be under way on it. Meanwhile the answers of the peer come in, the peer closes
connections, and senders use those that are usable.

All connections have been inserted. Time is in whole seconds, as `time` returns it.
-/

namespace ImServer

namespace HeartBeat

/-- `HearBeatThreadCheckNum`. -/
def checkNum : ℕ := 100

/-- The seconds between two rounds. -/
def pause : ℕ := 5

/-- The seconds of silence after which a connection is given up. -/
def silence : ℕ := 60 * 5

/-- The fields of a `CPost` that the threads share, without a lock around them. -/
structure Conn where
  usrable : Bool
  respHeartBeatTime : ℕ
  deriving DecidableEq, Repr

/-- Where a thread is in `HeartBeatCheckThread`: it sleeps, or it is at connection `i` in `TimeOut`
or, if that returned true, in the rest of `CheckHeartBeat`. -/
inductive Place where
  | sleep (wake : ℕ)
  | usrable (i : ℕ)
  | ping (i : ℕ)
  | compare (i : ℕ)
  | giveUp (i : ℕ)
  | close (i : ℕ)
  | reconnect (i : ℕ)
  | revive (i : ℕ)
  | stamp (i : ℕ)
  deriving DecidableEq, Repr

/-- The connection that a thread is at, and none while it sleeps. -/
def Place.conn : Place → Option ℕ
  | .sleep _ => none
  | .usrable i | .ping i | .compare i | .giveUp i | .close i | .reconnect i | .revive i
  | .stamp i => some i

/-- The connection that a thread has found unusable and not made usable again. -/
def Place.renewed : Place → Option ℕ
  | .close i | .reconnect i | .revive i => some i
  | .sleep _ | .usrable _ | .ping _ | .compare _ | .giveUp _ | .stamp _ => none

/-- A thread, with the time at which its last round began. -/
structure Check where
  place : Place
  began : ℕ
  deriving DecidableEq, Repr

/-- `HeartRange::begin`. -/
def rangeBegin (t : ℕ) : ℕ := t * checkNum

/-- `HeartRange::end`, of `n` connections. -/
def rangeEnd (n t : ℕ) : ℕ := if n < (t + 1) * checkNum then n else (t + 1) * checkNum

/-- The number of threads. -/
def threadNum (n : ℕ) : ℕ := (n + checkNum - 1) / checkNum

/-- The connections with the threads that look after them, and the senders. -/
structure Posts (ι : Type) where
  now : ℕ
  conn : ℕ → Conn
  check : ℕ → Check
  /-- The connection on which a sender makes a request, and when it found it usable. -/
  request : ι → Option (ℕ × ℕ) := fun _ => none
  /-- When the peer closed a connection last. -/
  closedByPeer : ℕ → Option ℕ := fun _ => none

/-- What happens next. That a connection is closed by the peer stands for every callback with
`NETLIB_MSG_CLOSE`, whatever closed the socket. -/
inductive Event (ι : Type) where
  | tick
  | check (t : ℕ) (connected : Bool)
  | responded (i : ℕ)
  | closedByPeer (i : ℕ)
  | request (k : ι) (i : ℕ)
  | requested (k : ι)

section Ranges

variable {n t t' i : ℕ}

def InRange (n t i : ℕ) : Prop := rangeBegin t ≤ i ∧ i < rangeEnd n t

theorem inRange_iff : InRange n t i ↔ t * 100 ≤ i ∧ i < (t + 1) * 100 ∧ i < n := by
  rw [InRange, rangeBegin, rangeEnd, checkNum]
  by_cases h : n < (t + 1) * 100
  · rw [if_pos h]
    omega
  · rw [if_neg h]
    omega

theorem InRange.eq (h : InRange n t i) (h' : InRange n t' i) : t = t' := by
  rw [inRange_iff] at h h'
  omega

theorem lt_threadNum (h : InRange n t i) : t < threadNum n := by
  rw [inRange_iff] at h
  rw [threadNum, checkNum]
  omega

theorem exists_inRange (h : i < n) : ∃ t, InRange n t i := ⟨i / 100, inRange_iff.mpr (by omega)⟩

end Ranges

namespace Posts

variable {ι : Type}

section Steps

variable [DecidableEq ι] (n : ℕ) (s : Posts ι)

def setConn (i : ℕ) (conn : Conn) : Posts ι := { s with conn := Function.update s.conn i conn }

def setUsrable (i : ℕ) (flag : Bool) : Posts ι := s.setConn i { s.conn i with usrable := flag }

def setRespHeartBeatTime (i : ℕ) : Posts ι :=
  s.setConn i { s.conn i with respHeartBeatTime := s.now }

def setCheck (t : ℕ) (check : Check) : Posts ι :=
  { s with check := Function.update s.check t check }

def goTo (t : ℕ) (place : Place) : Posts ι := s.setCheck t { s.check t with place }

/-- The next connection of the range, or the sleep behind the last one. -/
def next (t i : ℕ) : Place :=
  if i + 1 < rangeEnd n t then .usrable (i + 1) else .sleep (s.now + pause)

/-- A thread goes on. `connected` says whether `ReConnect` succeeds. After twenty seconds without a
sign of life a ping is sent, to which there may be an answer. -/
def checkStep (t : ℕ) (connected : Bool) : Option (Posts ι) :=
  match (s.check t).place with
  | .sleep wake =>
    if wake ≤ s.now ∧ rangeBegin t < rangeEnd n t then
      some (s.setCheck t ⟨.usrable (rangeBegin t), s.now⟩)
    else none
  | .usrable i => some (s.goTo t (if (s.conn i).usrable then .ping i else .close i))
  | .ping i => some (s.goTo t (.compare i))
  | .compare i =>
    some (s.goTo t
      (if silence < s.now - (s.conn i).respHeartBeatTime then .giveUp i else s.next n t i))
  | .giveUp i => some ((s.setUsrable i false).goTo t (s.next n t i))
  -- the socket calls back that it is closed
  | .close i => some ((s.setUsrable i false).goTo t (.reconnect i))
  | .reconnect i => some (s.goTo t (if connected then .revive i else s.next n t i))
  | .revive i => some ((s.setUsrable i true).goTo t (.stamp i))
  | .stamp i => some ((s.setRespHeartBeatTime i).goTo t (s.next n t i))

/-- A step of a thread, of a connection or of a sender, which takes a connection if it finds it
usable. -/
def step : Event ι → Option (Posts ι)
  | .tick => some { s with now := s.now + 1 }
  | .check t connected => s.checkStep n t connected
  | .responded i => some (s.setRespHeartBeatTime i)
  | .closedByPeer i =>
    some { s.setUsrable i false with closedByPeer := Function.update s.closedByPeer i (some s.now) }
  | .request k i =>
    if (s.conn i).usrable ∧ s.request k = none then
      some { s with request := Function.update s.request k (some (i, s.now)) }
    else none
  | .requested k => some { s with request := Function.update s.request k none }

end Steps

variable {n : ℕ} {s s' : Posts ι} {t i j τ : ℕ} {k : ι} {place : Place}

/-- What a turn of a thread can be. -/
inductive Turn (n : ℕ) (s : Posts ι) (t : ℕ) : Posts ι → Prop where
  | wake {time : ℕ} (hplace : (s.check t).place = .sleep time) (htime : time ≤ s.now)
      (hne : rangeBegin t < rangeEnd n t) :
      Turn n s t (s.setCheck t ⟨.usrable (rangeBegin t), s.now⟩)
  | usable {i : ℕ} (hplace : (s.check t).place = .usrable i) (hflag : (s.conn i).usrable = true) :
      Turn n s t (s.goTo t (.ping i))
  | unusable {i : ℕ} (hplace : (s.check t).place = .usrable i)
      (hflag : (s.conn i).usrable = false) : Turn n s t (s.goTo t (.close i))
  | ping {i : ℕ} (hplace : (s.check t).place = .ping i) : Turn n s t (s.goTo t (.compare i))
  | silent {i : ℕ} (hplace : (s.check t).place = .compare i) : Turn n s t (s.goTo t (.giveUp i))
  | alive {i : ℕ} (hplace : (s.check t).place = .compare i)
      (htime : s.now ≤ (s.conn i).respHeartBeatTime + silence) :
      Turn n s t (s.goTo t (next n s t i))
  | giveUp {i : ℕ} (hplace : (s.check t).place = .giveUp i) :
      Turn n s t ((s.setUsrable i false).goTo t (next n s t i))
  | close {i : ℕ} (hplace : (s.check t).place = .close i) :
      Turn n s t ((s.setUsrable i false).goTo t (.reconnect i))
  | connected {i : ℕ} (hplace : (s.check t).place = .reconnect i) :
      Turn n s t (s.goTo t (.revive i))
  | refused {i : ℕ} (hplace : (s.check t).place = .reconnect i) :
      Turn n s t (s.goTo t (next n s t i))
  | revive {i : ℕ} (hplace : (s.check t).place = .revive i) :
      Turn n s t ((s.goTo t (.stamp i)).setUsrable i true)
  | stamp {i : ℕ} (hplace : (s.check t).place = .stamp i) :
      Turn n s t ((s.setRespHeartBeatTime i).goTo t (next n s t i))

theorem turn_of_checkStep {connected : Bool} (h : s.checkStep n t connected = some s') :
    Turn n s t s' := by
  cases hplace : (s.check t).place with
  | sleep time =>
    simp only [checkStep, hplace] at h
    obtain ⟨⟨htime, hne⟩, heq⟩ := Option.ite_none_right_eq_some.mp h
    exact Option.some.inj heq ▸ .wake hplace htime hne
  | usrable i =>
    simp only [checkStep, hplace] at h
    obtain rfl := Option.some.inj h
    cases hflag : (s.conn i).usrable with
    | true => exact .usable hplace hflag
    | false => exact .unusable hplace hflag
  | ping i =>
    simp only [checkStep, hplace] at h
    exact Option.some.inj h ▸ .ping hplace
  | compare i =>
    simp only [checkStep, hplace] at h
    obtain rfl := Option.some.inj h
    split
    · exact .silent hplace
    · exact .alive hplace (by omega)
  | giveUp i =>
    simp only [checkStep, hplace] at h
    exact Option.some.inj h ▸ .giveUp hplace
  | close i =>
    simp only [checkStep, hplace] at h
    exact Option.some.inj h ▸ .close hplace
  | reconnect i =>
    simp only [checkStep, hplace] at h
    obtain rfl := Option.some.inj h
    cases connected with
    | true => exact .connected hplace
    | false => exact .refused hplace
  | revive i =>
    simp only [checkStep, hplace] at h
    exact Option.some.inj h ▸ .revive hplace
  | stamp i =>
    simp only [checkStep, hplace] at h
    exact Option.some.inj h ▸ .stamp hplace

/-- The threads keep to their ranges, and what they renew is not used. -/
structure Placed (n : ℕ) (s : Posts ι) : Prop where
  inRange : ∀ t i, (s.check t).place.conn = some i → InRange n t i
  down : ∀ t i, (s.check t).place.renewed = some i → (s.conn i).usrable = false

theorem conn_of_renewed (h : place.renewed = some i) : place.conn = some i := by
  cases place with
  | close j | reconnect j | revive j => exact h
  | sleep _ | usrable _ | ping _ | compare _ | giveUp _ | stamp _ => cases h

theorem conn_setConn (conn : Conn) (j : ℕ) :
    (s.setConn i conn).conn j = if j = i then conn else s.conn j :=
  Function.update_apply _ _ _ _

theorem usrable_setRespHeartBeatTime :
    ((s.setRespHeartBeatTime i).conn j).usrable = (s.conn j).usrable := by
  rw [setRespHeartBeatTime, conn_setConn]
  split
  · next h => rw [h]
  · rfl

theorem usrable_setUsrable (flag : Bool) :
    ((s.setUsrable i flag).conn j).usrable = if j = i then flag else (s.conn j).usrable := by
  rw [setUsrable, conn_setConn]
  split <;> rfl

theorem setUsrable_eq_self {flag : Bool} (h : (s.conn i).usrable = flag) :
    s.setUsrable i flag = s := by
  subst h
  rw [setUsrable, setConn, Function.update_eq_self]

theorem check_setCheck (check : Check) (t' : ℕ) :
    (s.setCheck t check).check t' = if t' = t then check else s.check t' :=
  Function.update_apply _ _ _ _

theorem inRange_next (h : InRange n t i) (hj : (next n s t i).conn = some j) : InRange n t j := by
  rw [next] at hj
  split at hj
  · next hlt =>
    obtain rfl := Option.some.inj hj
    exact ⟨Nat.le_succ_of_le h.1, hlt⟩
  · cases hj

theorem renewed_next : (next n s t i).renewed = none := by
  rw [next]
  split <;> rfl

namespace Placed

theorem setCheck {check : Check} (h : s.Placed n)
    (hrange : ∀ i, check.place.conn = some i → InRange n t i)
    (hdown : ∀ i, check.place.renewed = some i → (s.conn i).usrable = false) :
    (s.setCheck t check).Placed n where
  inRange t' i hi := by
    rw [check_setCheck] at hi
    split at hi
    · next heq => exact heq ▸ hrange i hi
    · exact h.inRange t' i hi
  down t' i hi := by
    rw [check_setCheck] at hi
    split at hi
    · exact hdown i hi
    · exact h.down t' i hi

/-- A place at a connection of the range where nothing is renewed. -/
theorem pass {check : Check} (h : s.Placed n) (hi : InRange n t i)
    (hconn : check.place.conn = some i) (hrenewed : check.place.renewed = none) :
    (s.setCheck t check).Placed n :=
  h.setCheck (fun _ hj => Option.some.inj (hconn.symm.trans hj) ▸ hi) fun _ hj => by
    rw [hrenewed] at hj
    cases hj

theorem renew {check : Check} (h : s.Placed n) (hi : InRange n t i)
    (hrenewed : check.place.renewed = some i) (hflag : (s.conn i).usrable = false) :
    (s.setCheck t check).Placed n :=
  h.setCheck (fun _ hj => Option.some.inj ((conn_of_renewed hrenewed).symm.trans hj) ▸ hi)
    fun _ hj => Option.some.inj (hrenewed.symm.trans hj) ▸ hflag

theorem goTo_next (h : s.Placed n) (hi : InRange n t i) : (s.goTo t (next n s t i)).Placed n :=
  h.setCheck (fun _ hj => inRange_next hi hj) fun _ hj => by
    rw [renewed_next] at hj
    cases hj

theorem setUsrable_false (h : s.Placed n) (i : ℕ) : (s.setUsrable i false).Placed n where
  inRange := h.inRange
  down t j hj := by
    rw [usrable_setUsrable]
    split
    · rfl
    · exact h.down t j hj

theorem setRespHeartBeatTime (h : s.Placed n) (i : ℕ) : (s.setRespHeartBeatTime i).Placed n where
  inRange := h.inRange
  down t j hj := by
    rw [usrable_setRespHeartBeatTime]
    exact h.down t j hj

theorem setUsrable_true (h : s.Placed n) (hi : (s.check t).place = .stamp i) :
    (s.setUsrable i true).Placed n where
  inRange := h.inRange
  down t' j hj := by
    rw [usrable_setUsrable]
    split
    · next heq =>
      subst heq
      have hrange := h.inRange t j (by rw [hi]; rfl)
      obtain rfl := hrange.eq (h.inRange t' j (conn_of_renewed hj))
      have hj' : (s.check t).place.renewed = some j := hj
      rw [hi] at hj'
      cases hj'
    · exact h.down t' j hj

theorem turn (h : s.Placed n) (hturn : Turn n s t s') : s'.Placed n := by
  have hconn {i : ℕ} {place : Place} (hplace : (s.check t).place = place)
      (hi : place.conn = some i) : InRange n t i := h.inRange t i (hplace ▸ hi)
  have hdown {i : ℕ} {place : Place} (hplace : (s.check t).place = place)
      (hi : place.renewed = some i) : (s.conn i).usrable = false := h.down t i (hplace ▸ hi)
  cases hturn with
  | wake _ _ hne => exact h.pass ⟨Nat.le_refl _, hne⟩ rfl rfl
  | usable hplace _ | ping hplace | silent hplace => exact h.pass (hconn hplace rfl) rfl rfl
  | unusable hplace hflag => exact h.renew (hconn hplace rfl) rfl hflag
  | alive hplace _ | refused hplace => exact h.goTo_next (hconn hplace rfl)
  | giveUp hplace => exact (h.setUsrable_false _).goTo_next (hconn hplace rfl)
  | connected hplace => exact h.renew (hconn hplace rfl) rfl (hdown hplace rfl)
  | close hplace =>
    have hflag := hdown hplace rfl
    rw [setUsrable_eq_self hflag]
    exact h.renew (hconn hplace rfl) rfl hflag
  | revive hplace =>
    have hgo : (s.goTo t (.stamp _)).Placed n := h.pass (hconn hplace rfl) rfl rfl
    exact hgo.setUsrable_true (t := t) (by rw [goTo, check_setCheck, if_pos rfl])
  | stamp hplace => exact (h.setRespHeartBeatTime _).goTo_next (hconn hplace rfl)

theorem step [DecidableEq ι] {e : Event ι} (h : s.Placed n) (hstep : s.step n e = some s') :
    s'.Placed n := by
  cases e with
  | tick | requested k =>
    obtain rfl := Option.some.inj hstep
    exact ⟨h.inRange, h.down⟩
  | check t connected => exact h.turn (turn_of_checkStep hstep)
  | responded i =>
    obtain rfl := Option.some.inj hstep
    exact h.setRespHeartBeatTime i
  | closedByPeer i =>
    obtain rfl := Option.some.inj hstep
    exact ⟨h.inRange, (h.setUsrable_false i).down⟩
  | request k i =>
    obtain ⟨-, heq⟩ := Option.ite_none_right_eq_some.mp hstep
    obtain rfl := Option.some.inj heq
    exact ⟨h.inRange, h.down⟩

end Placed

/-- In this round the thread still comes to the connection, or is about to close it. -/
def Ahead (i : ℕ) : Place → Prop
  | .sleep _ => False
  | .usrable j | .close j | .reconnect j => j ≤ i
  | .ping j | .compare j | .giveUp j | .revive j | .stamp j => j < i

/-- The connection is not closed before the pause is over. -/
structure Due (now τ i : ℕ) (place : Place) : Prop where
  asleep : ∀ wake, place = .sleep wake → τ + pause ≤ wake
  ahead : Ahead i place → τ + pause ≤ now

/-- The peer has closed the connection at that time or later. -/
def PeerClosed (s : Posts ι) (i τ : ℕ) : Prop := ∃ time, s.closedByPeer i = some time ∧ τ ≤ time

/-- A request on a connection that is not usable any more. -/
structure Graceful (n : ℕ) (s : Posts ι) : Prop where
  since : ∀ k i τ, s.request k = some (i, τ) → τ ≤ s.now
  due : ∀ t i k τ, InRange n t i → s.request k = some (i, τ) → (s.conn i).usrable = false →
    s.PeerClosed i τ ∨ Due s.now τ i (s.check t).place

namespace Graceful

theorem setCheck {check : Check} (h : s.Graceful n)
    (hdue : ∀ i τ, InRange n t i → (s.conn i).usrable = false → τ ≤ s.now →
      Due s.now τ i (s.check t).place → Due s.now τ i check.place) :
    (s.setCheck t check).Graceful n where
  since := h.since
  due t' i k τ hi hk hflag := by
    rw [check_setCheck]
    obtain hpeer | hold := h.due t' i k τ hi hk hflag
    · exact .inl hpeer
    · refine .inr ?_
      split
      · next heq =>
        subst heq
        exact hdue i τ hi hflag (h.since k i τ hk) hold
      · exact hold

/-- From a place within the range the thread goes on to the next one. -/
theorem goTo_next (h : s.Graceful n) (hplace : ∀ j, i < j → Ahead j (s.check t).place) :
    (s.goTo t (next n s t i)).Graceful n := by
  refine h.setCheck fun j τ hj hflag hτ hold => ?_
  change Due s.now τ j (next n s t i)
  rw [next]
  split
  · exact ⟨fun _ h => Place.noConfusion h, fun hahead => hold.ahead (hplace j hahead)⟩
  · refine ⟨fun wake hwake => ?_, fun hahead => hahead.elim⟩
    rw [← Place.sleep.inj hwake]
    exact Nat.add_le_add_right hτ pause

/-- What was ahead and is not the connection that the thread is at. -/
theorem goTo (h : s.Graceful n) (hsleep : ∀ wake, place ≠ .sleep wake)
    (hplace : ∀ j, (s.conn j).usrable = false → Ahead j place → Ahead j (s.check t).place) :
    (s.goTo t place).Graceful n :=
  h.setCheck fun j _ _ hflag _ hold =>
    ⟨fun wake hwake => absurd hwake (hsleep wake), fun hahead => hold.ahead (hplace j hflag hahead)⟩

theorem turn (h : s.Graceful n) (hplaced : s.Placed n) (hturn : Turn n s t s') :
    s'.Graceful n := by
  cases hturn with
  | @wake time hplace htime _ =>
    refine h.setCheck fun i τ _ _ _ hold => ⟨fun _ h => Place.noConfusion h, fun _ => ?_⟩
    exact Nat.le_trans (hold.asleep time hplace) htime
  | usable hplace _ =>
    refine h.goTo (fun _ => Place.noConfusion) fun j _ hahead => ?_
    rw [hplace]
    exact Nat.le_of_lt hahead
  | unusable hplace _ | ping hplace | silent hplace =>
    refine h.goTo (fun _ => Place.noConfusion) fun j _ hahead => ?_
    rw [hplace]
    exact hahead
  | @close i hplace =>
    rw [setUsrable_eq_self (hplaced.down t i (by rw [hplace]; rfl))]
    refine h.goTo (fun _ => Place.noConfusion) fun j _ hahead => ?_
    rw [hplace]
    exact hahead
  | connected hplace =>
    refine h.goTo (fun _ => Place.noConfusion) fun j _ hahead => ?_
    rw [hplace]
    exact Nat.le_of_lt hahead
  | alive hplace _ =>
    refine h.goTo_next fun j hj => ?_
    rw [hplace]
    exact hj
  | refused hplace =>
    refine h.goTo_next fun j hj => ?_
    rw [hplace]
    exact Nat.le_of_lt hj
  | @giveUp i hplace =>
    have hrange : InRange n t i := hplaced.inRange t i (by rw [hplace]; rfl)
    have hdown : (s.setUsrable i false).Graceful n := by
      refine ⟨h.since, fun t' j k τ hj hk hflag => ?_⟩
      by_cases heq : j = i
      · subst heq
        obtain rfl := hrange.eq hj
        change _ ∨ Due s.now τ j (s.check t).place
        rw [hplace]
        exact .inr ⟨fun _ h => Place.noConfusion h, fun hahead => absurd hahead (Nat.lt_irrefl j)⟩
      · rw [usrable_setUsrable, if_neg heq] at hflag
        exact h.due t' j k τ hj hk hflag
    refine hdown.goTo_next fun j hj => ?_
    change Ahead j (s.check t).place
    rw [hplace]
    exact hj
  | @revive i hplace =>
    have hgo : (s.goTo t (.stamp i)).Graceful n := by
      refine h.goTo (fun _ => Place.noConfusion) fun j _ hahead => ?_
      rw [hplace]
      exact hahead
    refine ⟨hgo.since, fun t' j k τ hj hk hflag => ?_⟩
    rw [usrable_setUsrable] at hflag
    split at hflag
    · cases hflag
    · exact hgo.due t' j k τ hj hk hflag
  | @stamp i hplace =>
    have hstamped : (s.setRespHeartBeatTime i).Graceful n :=
      ⟨h.since, fun t' j k τ hj hk hflag =>
        h.due t' j k τ hj hk (usrable_setRespHeartBeatTime.symm.trans hflag)⟩
    refine hstamped.goTo_next fun j hj => ?_
    change Ahead j (s.check t).place
    rw [hplace]
    exact hj

theorem step [DecidableEq ι] {e : Event ι} (h : s.Graceful n) (hplaced : s.Placed n)
    (hstep : s.step n e = some s') : s'.Graceful n := by
  cases e with
  | tick =>
    obtain rfl := Option.some.inj hstep
    refine ⟨fun k i τ hk => Nat.le_succ_of_le (h.since k i τ hk), fun t i k τ hi hk hflag => ?_⟩
    exact (h.due t i k τ hi hk hflag).imp_right fun hdue =>
      ⟨hdue.asleep, fun hahead => Nat.le_succ_of_le (hdue.ahead hahead)⟩
  | check t connected => exact h.turn hplaced (turn_of_checkStep hstep)
  | responded i =>
    obtain rfl := Option.some.inj hstep
    exact ⟨h.since, fun t j k τ hj hk hflag =>
      h.due t j k τ hj hk (usrable_setRespHeartBeatTime.symm.trans hflag)⟩
  | closedByPeer i =>
    obtain rfl := Option.some.inj hstep
    refine ⟨h.since, fun t j k τ hj hk hflag => ?_⟩
    have hτ : τ ≤ s.now := h.since k j τ hk
    by_cases heq : j = i
    · subst heq
      exact .inl ⟨s.now, Function.update_self _ _ _, hτ⟩
    · have hflag' : ((s.setUsrable i false).conn j).usrable = false := hflag
      rw [usrable_setUsrable, if_neg heq] at hflag'
      refine (h.due t j k τ hj hk hflag').imp_left fun ⟨time, htime, hle⟩ => ⟨time, ?_, hle⟩
      exact (Function.update_of_ne heq _ _).trans htime
  | request k i =>
    obtain ⟨⟨husable, -⟩, heq⟩ := Option.ite_none_right_eq_some.mp hstep
    obtain rfl := Option.some.inj heq
    have hcases : ∀ k' j τ, Function.update s.request k (some (i, s.now)) k' = some (j, τ) →
        (j = i ∧ τ = s.now) ∨ s.request k' = some (j, τ) := by
      intro k' j τ hk'
      rw [Function.update_apply] at hk'
      split at hk'
      · obtain ⟨rfl, rfl⟩ := Prod.mk.inj (Option.some.inj hk')
        exact .inl ⟨rfl, rfl⟩
      · exact .inr hk'
    refine ⟨fun k' j τ hk' => ?_, fun t j k' τ hj hk' hflag => ?_⟩
    · obtain ⟨-, rfl⟩ | hk' := hcases k' j τ hk'
      · exact Nat.le_refl _
      · exact h.since k' j τ hk'
    · obtain ⟨rfl, -⟩ | hk' := hcases k' j τ hk'
      · have hflag' : (s.conn j).usrable = false := hflag
        rw [husable] at hflag'
        cases hflag'
      · exact h.due t j k' τ hj hk' hflag
  | requested k =>
    obtain rfl := Option.some.inj hstep
    have hkept : ∀ k' j τ, Function.update s.request k none k' = some (j, τ) →
        s.request k' = some (j, τ) := by
      intro k' j τ hk'
      rw [Function.update_apply] at hk'
      split at hk'
      · cases hk'
      · exact hk'
    exact ⟨fun k' j τ hk' => h.since k' j τ (hkept k' j τ hk'),
      fun t j k' τ hj hk' => h.due t j k' τ hj (hkept k' j τ hk')⟩

end Graceful

/-- The threads are about to begin, each with its first sleep. -/
def start (now : ℕ) (conn : ℕ → Conn) : Posts ι where
  now
  conn
  check := fun _ => ⟨.sleep now, now⟩

theorem placed_start (now : ℕ) (conn : ℕ → Conn) : (start now conn : Posts ι).Placed n :=
  ⟨fun _ _ h => (nomatch h), fun _ _ h => (nomatch h)⟩

/-- A request is made, and no answer comes. -/
def unanswered : List (Event Unit) :=
  [.request () 0, .check 0 true, .check 0 true, .check 0 true, .check 0 true, .check 0 true,
    .tick, .tick, .tick, .tick, .tick, .check 0 true, .check 0 true]

/-- The thread has not compared the times of the connection in this round. -/
def Unseen (i : ℕ) : Place → Prop
  | .sleep _ => False
  | .usrable j | .ping j | .compare j | .giveUp j => j ≤ i
  | .close j | .reconnect j | .revive j | .stamp j => j < i

/-- A usable connection was silent for less than the limit when its thread looked at it last, or it
has been connected anew and its time is about to be set. -/
def Fresh (limit : ℕ) (check : Check) (conn : Conn) (i : ℕ) : Prop :=
  conn.usrable = true → check.place = .stamp i ∨
    check.began ≤ conn.respHeartBeatTime + silence + limit ∧
    (Unseen i check.place ∨ check.began ≤ conn.respHeartBeatTime + silence)

/-- No round, with the pause behind it, takes more time than the limit. -/
structure Timely (limit n : ℕ) (s : Posts ι) : Prop where
  round : ∀ t i, InRange n t i → s.now ≤ (s.check t).began + limit
  began : ∀ t, (s.check t).began ≤ s.now
  fresh : ∀ t i, InRange n t i → Fresh limit (s.check t) (s.conn i) i

/-- Time goes on only within the limit of every round, so that no thread falls behind its
connections. -/
def Prompt (limit n : ℕ) (s : Posts ι) : Event ι → Prop
  | .tick => ∀ t < threadNum n, s.now < (s.check t).began + limit
  | _ => True

section Timely

variable {limit : ℕ} {check : Check} {conn : Conn}

theorem fresh_of_unusable (h : conn.usrable = false) : Fresh limit check conn i := fun husable => by
  rw [h] at husable
  cases husable

theorem fresh_of_recent (h : check.began ≤ conn.respHeartBeatTime + silence) :
    Fresh limit check conn i := fun _ => .inr ⟨Nat.le_add_right_of_le h, .inr h⟩

theorem Fresh.goTo (h : Fresh limit check conn i) (hstamp : check.place ≠ .stamp i)
    (hseen : conn.usrable = true → Unseen i check.place →
      Unseen i place ∨ check.began ≤ conn.respHeartBeatTime + silence) :
    Fresh limit { check with place } conn i := fun husable => by
  obtain h | ⟨hlate, hunseen⟩ := h husable
  · exact absurd h hstamp
  · exact .inr ⟨hlate, hunseen.elim (hseen husable) .inr⟩

theorem unseen_next (hj : InRange n t j) (h : i < j) : Unseen j (next n s t i) := by
  rw [next, if_pos (Nat.lt_of_le_of_lt h hj.2)]
  exact h

namespace Timely

theorem setCheck (h : s.Timely limit n) (hround : ∀ i, InRange n t i → s.now ≤ check.began + limit)
    (hbegan : check.began ≤ s.now)
    (hfresh : ∀ i, InRange n t i → Fresh limit (s.check t) (s.conn i) i →
      Fresh limit check (s.conn i) i) : (s.setCheck t check).Timely limit n := by
  refine ⟨fun t' i hi => ?_, fun t' => ?_, fun t' i hi => ?_⟩
  · rw [check_setCheck]
    split
    · next heq => exact hround i (heq ▸ hi)
    · exact h.round t' i hi
  · rw [check_setCheck]
    split
    · exact hbegan
    · exact h.began t'
  · rw [check_setCheck]
    split
    · next heq =>
      subst heq
      exact hfresh i hi (h.fresh t' i hi)
    · exact h.fresh t' i hi

theorem goTo (h : s.Timely limit n)
    (hfresh : ∀ i, InRange n t i → Fresh limit (s.check t) (s.conn i) i →
      Fresh limit { s.check t with place } (s.conn i) i) : (s.goTo t place).Timely limit n :=
  h.setCheck (h.round t) (h.began t) hfresh

theorem setConn (h : s.Timely limit n)
    (hfresh : ∀ t, InRange n t i → Fresh limit (s.check t) conn i) :
    (s.setConn i conn).Timely limit n := by
  refine ⟨h.round, h.began, fun t j hj => ?_⟩
  rw [conn_setConn]
  split
  · next heq => exact heq ▸ hfresh t (heq ▸ hj)
  · exact h.fresh t j hj

theorem goTo_next (h : s.Timely limit n) (hplace : ∀ j, (s.check t).place = .stamp j → j = i)
    (hseen : ∀ j, Unseen j (s.check t).place → i ≤ j)
    (hi : Fresh limit { s.check t with place := next n s t i } (s.conn i) i) :
    (s.goTo t (next n s t i)).Timely limit n := by
  refine h.goTo fun j hj hfresh => ?_
  by_cases heq : j = i
  · exact heq ▸ hi
  · refine hfresh.goTo (fun hstamp => heq (hplace j hstamp)) fun _ hunseen => ?_
    have hlt : i < j := Nat.lt_of_le_of_ne (hseen j hunseen) (Ne.symm heq)
    exact .inl (unseen_next hj hlt)

theorem turn (h : s.Timely limit n) (hplaced : s.Placed n) (hturn : Turn n s t s') :
    s'.Timely limit n := by
  have hne {i j : ℕ} {place : Place} (hplace : (s.check t).place = place)
      (hstamp : place ≠ .stamp j) : (s.check t).place ≠ .stamp j := hplace ▸ hstamp
  cases hturn with
  | wake hplace _ hrange =>
    refine h.setCheck (fun _ _ => Nat.le_add_right _ _) (Nat.le_refl _)
      fun i hi hfresh husable => ?_
    obtain hstamp | ⟨-, hunseen | hrecent⟩ := hfresh husable
    · rw [hplace] at hstamp
      cases hstamp
    · rw [hplace] at hunseen
      exact hunseen.elim
    · have hround := h.round t i hi
      refine .inr ⟨?_, .inl hi.1⟩
      exact Nat.le_trans hround (Nat.add_le_add_right hrecent limit)
  | usable hplace _ | ping hplace | silent hplace | connected hplace =>
    refine h.goTo fun j _ hfresh => hfresh.goTo ?_ fun _ hunseen => .inl ?_
    · rw [hplace]
      exact Place.noConfusion
    · rw [hplace] at hunseen
      exact hunseen
  | @close i hplace =>
    rw [setUsrable_eq_self (hplaced.down t i (by rw [hplace]; rfl))]
    refine h.goTo fun j _ hfresh => hfresh.goTo ?_ fun _ hunseen => .inl ?_
    · rw [hplace]
      exact Place.noConfusion
    · rw [hplace] at hunseen
      exact hunseen
  | @unusable i hplace hflag =>
    refine h.goTo fun j _ hfresh => hfresh.goTo ?_ fun husable hunseen => .inl ?_
    · rw [hplace]
      exact Place.noConfusion
    · rw [hplace] at hunseen
      have hij : i ≠ j := by
        rintro rfl
        rw [hflag] at husable
        cases husable
      exact Nat.lt_of_le_of_ne hunseen hij
  | @alive i hplace htime =>
    refine h.goTo_next (fun j hj => ?_) (fun j hj => ?_) ?_
    · rw [hplace] at hj
      cases hj
    · rwa [hplace] at hj
    · exact fresh_of_recent (Nat.le_trans (h.began t) htime)
  | @refused i hplace =>
    refine h.goTo_next (fun j hj => ?_) (fun j hj => ?_) ?_
    · rw [hplace] at hj
      cases hj
    · rw [hplace] at hj
      exact Nat.le_of_lt hj
    · exact fresh_of_unusable (hplaced.down t i (by rw [hplace]; rfl))
  | @giveUp i hplace =>
    have hflag : ((s.setUsrable i false).conn i).usrable = false := by
      rw [usrable_setUsrable, if_pos rfl]
    have hdown : (s.setUsrable i false).Timely limit n := h.setConn fun _ _ => fresh_of_unusable rfl
    refine hdown.goTo_next (fun j hj => ?_) (fun j hj => ?_) (fresh_of_unusable hflag)
    · change (s.check t).place = .stamp j at hj
      rw [hplace] at hj
      cases hj
    · change Unseen j (s.check t).place at hj
      rwa [hplace] at hj
  | @revive i hplace =>
    have hgo : (s.goTo t (.stamp i)).Timely limit n := by
      refine h.goTo fun j _ hfresh => hfresh.goTo ?_ fun _ hunseen => .inl ?_
      · rw [hplace]
        exact Place.noConfusion
      · rw [hplace] at hunseen
        exact hunseen
    have hrange : InRange n t i := hplaced.inRange t i (by rw [hplace]; rfl)
    refine hgo.setConn fun t' hi _ => .inl ?_
    obtain rfl := hrange.eq hi
    rw [Posts.goTo, check_setCheck, if_pos rfl]
  | @stamp i hplace =>
    have hconn : (s.setRespHeartBeatTime i).conn i = { s.conn i with respHeartBeatTime := s.now } :=
      Function.update_self _ _ _
    have hstamped : (s.setRespHeartBeatTime i).Timely limit n :=
      h.setConn fun t' _ => fresh_of_recent (Nat.le_add_right_of_le (h.began t'))
    refine hstamped.goTo_next (fun j hj => ?_) (fun j hj => ?_) ?_
    · change (s.check t).place = .stamp j at hj
      rw [hplace] at hj
      exact (Place.stamp.inj hj).symm
    · change Unseen j (s.check t).place at hj
      rw [hplace] at hj
      exact Nat.le_of_lt hj
    · rw [hconn]
      exact fresh_of_recent (Nat.le_add_right_of_le (h.began t))

theorem step [DecidableEq ι] {e : Event ι} (h : s.Timely limit n) (hplaced : s.Placed n)
    (hprompt : s.Prompt limit n e) (hstep : s.step n e = some s') : s'.Timely limit n := by
  cases e with
  | tick =>
    obtain rfl := Option.some.inj hstep
    refine ⟨fun t i hi => ?_, fun t => Nat.le_succ_of_le (h.began t), h.fresh⟩
    exact hprompt t (lt_threadNum hi)
  | check t connected => exact h.turn hplaced (turn_of_checkStep hstep)
  | responded i =>
    obtain rfl := Option.some.inj hstep
    exact h.setConn fun t _ => fresh_of_recent (Nat.le_add_right_of_le (h.began t))
  | closedByPeer i =>
    obtain rfl := Option.some.inj hstep
    have hdown : (s.setUsrable i false).Timely limit n := h.setConn fun _ _ => fresh_of_unusable rfl
    exact ⟨hdown.round, hdown.began, hdown.fresh⟩
  | request k i =>
    obtain ⟨-, heq⟩ := Option.ite_none_right_eq_some.mp hstep
    obtain rfl := Option.some.inj heq
    exact ⟨h.round, h.began, h.fresh⟩
  | requested k =>
    obtain rfl := Option.some.inj hstep
    exact ⟨h.round, h.began, h.fresh⟩

end Timely

/-- If a round with its pause takes at most so many seconds, a usable connection has given a sign of
life within five minutes and twice that time, unless it is being connected anew. -/
theorem recent_of_usable [DecidableEq ι] {now : ℕ} {conn : ℕ → Conn}
    (hconn : ∀ i < n, (conn i).usrable = true → now ≤ (conn i).respHeartBeatTime + 300)
    (h : Run.Reaches (Posts.step n) (Prompt limit n) (start now conn : Posts ι) s) (hi : i < n)
    (husable : (s.conn i).usrable = true) :
    s.now ≤ (s.conn i).respHeartBeatTime + 300 + 2 * limit ∨
      ∃ t, (s.check t).place = .stamp i := by
  have hstart : (start now conn : Posts ι).Timely limit n :=
    ⟨fun _ _ _ => Nat.le_add_right _ _, fun _ => Nat.le_refl _, fun t i hi husable =>
      fresh_of_recent (hconn i (inRange_iff.mp hi).2.2 husable) husable⟩
  obtain ⟨-, htimely⟩ := h.invariant (fun s => s.Placed n ∧ s.Timely limit n)
    ⟨placed_start now conn, hstart⟩ fun s e s' hinv hprompt hstep =>
      ⟨hinv.1.step hstep, hinv.2.step hinv.1 hprompt hstep⟩
  obtain ⟨t, hrange⟩ := exists_inRange hi
  obtain hstamp | ⟨hlate, -⟩ := htimely.fresh t i hrange husable
  · exact .inr ⟨t, hstamp⟩
  · have hround := htimely.round t i hrange
    rw [silence] at hlate
    exact .inl (by omega)

instance (limit n : ℕ) (s : Posts ι) : (e : Event ι) → Decidable (s.Prompt limit n e)
  | .tick => inferInstanceAs (Decidable (∀ t < threadNum n, _))
  | .check _ _ | .responded _ | .closedByPeer _ | .request _ _ | .requested _ => .isTrue trivial

/-- A round without anything to do, and the pause. -/
def quiet : List (Event Unit) :=
  [.check 0 true, .check 0 true, .check 0 true, .check 0 true, .tick, .tick, .tick, .tick, .tick]

theorem recent_of_usable_quiet :
    ((Run.runGood (Posts.step 1) (Prompt 6 1) (start 300 fun _ => ⟨true, 0⟩) quiet).map fun s =>
        (s.conn 0).usrable) = some true ∧
    ∀ s ∈ Run.runGood (Posts.step 1) (Prompt 6 1) (start 300 fun _ => ⟨true, 0⟩) quiet,
      s.now ≤ (s.conn 0).respHeartBeatTime + 300 + 2 * 6 ∨ ∃ t, (s.check t).place = .stamp 0 := by
  have hrun : ((Run.runGood (Posts.step 1) (Prompt 6 1) (start 300 fun _ => ⟨true, 0⟩) quiet).map
      fun s => (s.conn 0).usrable) = some true := by decide
  refine ⟨hrun, fun s hs => ?_⟩
  rw [hs] at hrun
  exact recent_of_usable (fun _ _ _ => by decide) (Run.reaches_of_runGood hs) (by decide)
    (Option.some.inj hrun)

end Timely

end Posts

end HeartBeat

end ImServer
