import ImServer.Lib.Monitor
import ImServer.Lib.Run
import Mathlib.Algebra.Order.Group.Int
import Mathlib.Data.List.Count

/-!
# The connections of a pool

A `CachePool` (data_oper/CachePool.cpp) lends its connections: `GetCacheConn` waits while none is
free and no more can be made, and `RelCacheConn` gives one back and signals. Each lock, unlock,
wait and signal is a step, and any number of threads call the two in any order; a thread gives back
only what it has.

What is free and what is lent are different connections, the counter counts both, and if some
threads wait there are as many wake-ups under way as connections are free.
-/

namespace ImServer

namespace Cache

open Monitor (Place)

/-- Where a thread is in `GetCacheConn` and `RelCacheConn`. It is at `retest` when a wait has
ended. -/
inductive ConnCall (κ : Type) where
  | outside
  | getLock
  | test
  | wait
  | asleep
  | retest
  | getUnlock
  | relLock (conn : κ)
  | push (conn : κ)
  | signal
  | relUnlock
  deriving DecidableEq, Repr

namespace ConnCall

variable {κ : Type}

def place : ConnCall κ → Place
  | .outside | .getLock | .relLock _ => .outside
  | .asleep => .asleep
  | _ => .inside

/-- The thread is about to signal, or to take a connection after a wait. -/
def wakes : ConnCall κ → Bool
  | .retest | .signal => true
  | _ => false

/-- The connection that a thread is about to give back. -/
def returns : ConnCall κ → Option κ
  | .relLock conn | .push conn => some conn
  | _ => none

end ConnCall

def minCacheConnCnt : Int := 2

/-- A pool and its threads; `users` are the threads with the connections that they have got. -/
structure ConnPool (ι κ : Type) where
  curConnCnt : Int := minCacheConnCnt
  maxConnCnt : Int
  freeList : List κ
  freeNotify : Monitor ι := {}
  call : ι → ConnCall κ := fun _ => .outside
  users : List (ι × κ) := []

namespace ConnPool

variable {ι κ : Type} [DecidableEq ι]

/-- A turn of a thread may make the connection `new`, and may wake the thread `pick`. -/
inductive Event (ι κ : Type) where
  | getCacheConn (i : ι)
  | relCacheConn (i : ι) (conn : κ)
  | turn (i : ι) (new : κ) (pick : ι)
  | spurious (i : ι)

section Steps

variable [DecidableEq κ] (s : ConnPool ι κ)

def setCall (i : ι) (call : ConnCall κ) : ConnPool ι κ :=
  { s with call := Function.update s.call i call }

/-- The test of the loop: a connection is taken, made, or waited for. What is made is none of those
that exist. -/
def getTest (i : ι) (new : κ) : Option (ConnPool ι κ) :=
  match s.freeList with
  | conn :: rest => some ({ s with freeList := rest, users := (i, conn) :: s.users }.setCall i .getUnlock)
  | [] =>
    if s.maxConnCnt ≤ s.curConnCnt then some (s.setCall i .wait)
    else if new ∈ s.users.map Prod.snd then none
    else some { s with freeList := [new], curConnCnt := s.curConnCnt + 1 }

def turn (i : ι) (new : κ) (pick : ι) : Option (ConnPool ι κ) :=
  match s.call i with
  | .outside => none
  | .getLock => (s.freeNotify.lock true i).map fun m => { s with freeNotify := m }.setCall i .test
  | .test | .retest => s.getTest i new
  | .wait => some ({ s with freeNotify := s.freeNotify.wait i }.setCall i .asleep)
  | .asleep => (s.freeNotify.resume i).map fun m => { s with freeNotify := m }.setCall i .retest
  | .getUnlock => some ({ s with freeNotify := s.freeNotify.unlock }.setCall i .outside)
  | .relLock conn =>
    (s.freeNotify.lock true i).map fun m => { s with freeNotify := m }.setCall i (.push conn)
  | .push conn =>
    some ({ s with freeList := if conn ∈ s.freeList then s.freeList else s.freeList ++ [conn],
                   users := s.users.erase (i, conn) }.setCall i .signal)
  | .signal =>
    (s.freeNotify.signal pick).map fun m => { s with freeNotify := m }.setCall i .relUnlock
  | .relUnlock => some ({ s with freeNotify := s.freeNotify.unlock }.setCall i .outside)

def step : Event ι κ → Option (ConnPool ι κ)
  | .getCacheConn i =>
    match s.call i with
    | .outside => some (s.setCall i .getLock)
    | _ => none
  | .relCacheConn i conn =>
    match s.call i with
    | .outside => if (i, conn) ∈ s.users then some (s.setCall i (.relLock conn)) else none
    | _ => none
  | .turn i new pick => s.turn i new pick
  | .spurious i => (s.freeNotify.spurious i).map fun m => { s with freeNotify := m }

end Steps

/-- The pool after `Init`, with the two connections that it makes, both of them free. -/
def start (maxConnCnt : Int) (a b : κ) : ConnPool ι κ where
  maxConnCnt := maxConnCnt
  freeList := [a, b]

/-- The wake-ups that are under way: the threads whose wait is over, and the one that has the mutex
again or is about to signal. -/
def underWay (s : ConnPool ι κ) : Nat :=
  s.freeNotify.woken.length + s.freeNotify.held.countP fun i => (s.call i).wakes

structure Sound (s : ConnPool ι κ) : Prop where
  lent : (s.users.map Prod.snd).Nodup
  free : s.freeList.Nodup
  apart : ∀ conn ∈ s.freeList, conn ∉ s.users.map Prod.snd
  limit : ((s.freeList.length + s.users.length : Nat) : Int) ≤ max minCacheConnCnt s.maxConnCnt
  count : s.curConnCnt = (s.freeList.length + s.users.length : Nat)
  wakes : s.freeNotify.waiting ≠ [] → s.freeList ≠ [] → 0 < s.underWay

variable {s s' : ConnPool ι κ} {i : ι}

def place (s : ConnPool ι κ) (i : ι) : Place := (s.call i).place

structure Inv (s : ConnPool ι κ) : Prop where
  agrees : s.freeNotify.Agrees s.place
  nodup : (s.freeList ++ s.users.map Prod.snd).Nodup
  limit : s.curConnCnt ≤ max minCacheConnCnt s.maxConnCnt
  count : s.curConnCnt = (s.freeList.length + s.users.length : Nat)
  returns : ∀ i, ∀ conn ∈ (s.call i).returns, (i, conn) ∈ s.users
  wait : ∀ i, s.call i = .wait → s.freeList = [] ∧ s.maxConnCnt ≤ s.curConnCnt
  full : s.freeNotify.waiting ≠ [] → s.maxConnCnt ≤ s.curConnCnt
  enough : s.freeNotify.waiting ≠ [] → s.freeList.length ≤ s.underWay

@[simp] theorem call_setCall (call : ConnCall κ) : (s.setCall i call).call i = call :=
  Function.update_self ..

theorem call_setCall_of_ne {j : ι} (hj : j ≠ i) (call : ConnCall κ) :
    (s.setCall i call).call j = s.call j := Function.update_of_ne hj ..

theorem place_setCall (call : ConnCall κ) :
    (s.setCall i call).place = Function.update s.place i call.place := by
  funext j
  by_cases hj : j = i
  · simp [place, hj]
  · simp [place, hj, call_setCall_of_ne]

omit [DecidableEq ι] in
theorem underWay_of_nil (h : s.freeNotify.held = []) : s.underWay = s.freeNotify.woken.length := by
  simp [underWay, h]

omit [DecidableEq ι] in
theorem underWay_of_held (h : s.freeNotify.held = [i]) :
    s.underWay = s.freeNotify.woken.length + (s.call i).wakes.toNat := by
  cases hwakes : (s.call i).wakes <;> simp [underWay, h, hwakes]

theorem underWay_setCall_self {call : ConnCall κ} (h : s.freeNotify.held = [i]) :
    (s.setCall i call).underWay = s.freeNotify.woken.length + call.wakes.toNat := by
  have hset : (s.setCall i call).freeNotify.held = [i] := h
  rw [underWay_of_held hset, call_setCall]
  rfl

/-- A thread that does not have the mutex is no wake-up with the mutex. -/
theorem underWay_setCall (call : ConnCall κ) (hi : i ∉ s.freeNotify.held) :
    (s.setCall i call).underWay = s.underWay := by
  refine congrArg (s.freeNotify.woken.length + ·) (List.countP_congr fun j hj => ?_)
  have hne : j ≠ i := by
    rintro rfl
    exact hi hj
  rw [call_setCall_of_ne hne]

omit [DecidableEq ι] in
theorem inv_start (maxConnCnt : Int) {a b : κ} (hab : a ≠ b) :
    (start maxConnCnt a b : ConnPool ι κ).Inv where
  agrees := .start fun _ => rfl
  nodup := by simp [start, hab]
  limit := by simp [start]
  count := by simp [start, minCacheConnCnt]
  returns i conn h := by cases h
  wait i h := by cases h
  full h := absurd rfl h
  enough h := absurd rfl h

theorem Inv.move {m : Monitor ι} {call : ConnCall κ} (h : s.Inv)
    (hagrees : m.Agrees (Function.update s.place i call.place))
    (hreturns : ∀ conn ∈ call.returns, (i, conn) ∈ s.users)
    (hwait : call = .wait → s.freeList = [] ∧ s.maxConnCnt ≤ s.curConnCnt)
    (hfull : m.waiting ≠ [] → s.maxConnCnt ≤ s.curConnCnt)
    (henough : m.waiting ≠ [] →
      s.freeList.length ≤ ({ s with freeNotify := m }.setCall i call).underWay) :
    ({ s with freeNotify := m }.setCall i call).Inv where
  agrees := by
    rw [place_setCall]
    exact hagrees
  nodup := h.nodup
  limit := h.limit
  count := h.count
  returns j conn hconn := by
    by_cases hj : j = i
    · subst hj
      rw [call_setCall] at hconn
      exact hreturns conn hconn
    · rw [call_setCall_of_ne hj] at hconn
      exact h.returns j conn hconn
  wait j hj := by
    by_cases hji : j = i
    · subst hji
      rw [call_setCall] at hj
      exact hwait hj
    · rw [call_setCall_of_ne hji] at hj
      exact h.wait j hj
  full := hfull
  enough := henough

theorem Inv.lock {m : Monitor ι} {call : ConnCall κ} (h : s.Inv) (hplace : (s.call i).place = .outside)
    (hlock : s.freeNotify.lock true i = some m) (hinside : call.place = .inside)
    (hwakes : call.wakes = false) (hreturns : ∀ conn ∈ call.returns, (i, conn) ∈ s.users)
    (hwait : call ≠ .wait) : ({ s with freeNotify := m }.setCall i call).Inv := by
  have hnil := h.agrees.held_nil_of_lock hplace hlock
  have hagrees := h.agrees.lock hplace hlock
  obtain ⟨-, rfl⟩ := Monitor.lock_eq_some hlock
  refine h.move (by rwa [hinside]) hreturns (fun hc => absurd hc hwait) h.full fun hwaiting => ?_
  have henough := h.enough hwaiting
  rw [underWay_of_nil hnil] at henough
  rw [underWay_setCall_self (by simp [hnil]), hwakes]
  exact henough

theorem Inv.unlock {call : ConnCall κ} (h : s.Inv) (hplace : (s.call i).place = .inside)
    (hwakes : (s.call i).wakes = false) (houtside : call = .outside) :
    ({ s with freeNotify := s.freeNotify.unlock }.setCall i call).Inv := by
  subst houtside
  have hheld : s.freeNotify.held = [i] := h.agrees.held_eq hplace
  refine h.move (h.agrees.unlock hplace) (fun conn hconn => ?_) (fun hcall => ?_) h.full
    fun hwaiting => ?_
  · cases hconn
  · cases hcall
  · have henough := h.enough hwaiting
    rw [underWay_of_held hheld, hwakes] at henough
    rw [underWay_of_nil (by simp [setCall, Monitor.unlock, hheld])]
    exact henough

theorem Inv.sleep (h : s.Inv) (hcall : s.call i = .wait) :
    ({ s with freeNotify := s.freeNotify.wait i }.setCall i .asleep).Inv := by
  have hplace : s.place i = .inside := by simp [place, hcall, ConnCall.place]
  obtain ⟨hfree, hmax⟩ := h.wait i hcall
  refine h.move (h.agrees.wait hplace) (fun conn hconn => ?_) (fun hc => ?_) (fun _ => hmax) fun _ => ?_
  · cases hconn
  · cases hc
  · simp [hfree]

theorem Inv.resume {m : Monitor ι} (h : s.Inv) (hresume : s.freeNotify.resume i = some m) :
    ({ s with freeNotify := m }.setCall i .retest).Inv := by
  have hagrees := h.agrees.resume hresume
  obtain ⟨hheld, hwoken, rfl⟩ := Monitor.resume_eq_some hresume
  refine h.move hagrees (fun conn hconn => ?_) (fun hc => ?_) h.full fun hwaiting => ?_
  · cases hconn
  · cases hc
  · have henough := h.enough hwaiting
    have hpos := List.length_pos_of_mem hwoken
    rw [underWay_of_nil hheld] at henough
    rw [underWay_setCall_self rfl]
    simp only [ConnCall.wakes, Bool.toNat_true]
    rw [List.length_erase_of_mem hwoken]
    omega

theorem Inv.signal {m : Monitor ι} {pick : ι} (h : s.Inv) (hcall : s.call i = .signal)
    (hsignal : s.freeNotify.signal pick = some m) :
    ({ s with freeNotify := m }.setCall i .relUnlock).Inv := by
  have hplace : s.place i = .inside := by simp [place, hcall, ConnCall.place]
  have hheld := h.agrees.held_eq hplace
  have hagrees := (h.agrees.signal hsignal).update_self hplace
  obtain ⟨hnil, rfl⟩ | ⟨hpick, rfl⟩ := Monitor.signal_eq_some hsignal
  · refine h.move hagrees (fun conn hconn => ?_) (fun hc => ?_) h.full (fun hne => absurd hnil hne)
    · cases hconn
    · cases hc
  · have hwaiting : s.freeNotify.waiting ≠ [] := List.ne_nil_of_mem hpick
    refine h.move hagrees (fun conn hconn => ?_) (fun hc => ?_) (fun _ => h.full hwaiting) fun _ => ?_
    · cases hconn
    · cases hc
    · have henough := h.enough hwaiting
      rw [underWay_of_held hheld, hcall] at henough
      rw [underWay_setCall_self]
      · simpa [Monitor.wake, ConnCall.wakes] using henough
      · exact hheld

omit [DecidableEq ι] in
/-- No other thread is about to wait while one has the mutex. -/
theorem Inv.ne_wait (h : s.Inv) (hplace : s.place i = .inside) {j : ι} (hj : j ≠ i) :
    s.call j ≠ .wait := by
  intro hcall
  have hinside : s.place j = .inside := by simp [place, hcall, ConnCall.place]
  exact hj (h.agrees.inside_unique hinside hplace)

theorem Inv.take {conn : κ} {rest : List κ} (h : s.Inv) (hplace : s.place i = .inside)
    (hfree : s.freeList = conn :: rest) :
    ({ s with freeList := rest, users := (i, conn) :: s.users }.setCall i .getUnlock).Inv := by
  have hheld := h.agrees.held_eq hplace
  refine ⟨?_, ?_, h.limit, ?_, fun j c hc => ?_, fun j hj => ?_, h.full, fun hwaiting => ?_⟩
  · rw [place_setCall]
    exact h.agrees.update_self hplace
  · have hnodup := h.nodup
    rw [hfree, List.cons_append] at hnodup
    exact List.perm_middle.nodup_iff.mpr hnodup
  · have hcount := h.count
    rw [hfree] at hcount
    simp only [setCall, List.length_cons] at hcount ⊢
    omega
  · by_cases hj : j = i
    · subst hj
      rw [call_setCall] at hc
      cases hc
    · rw [call_setCall_of_ne hj] at hc
      exact List.mem_cons_of_mem _ (h.returns j c hc)
  · by_cases hji : j = i
    · subst hji
      rw [call_setCall] at hj
      cases hj
    · rw [call_setCall_of_ne hji] at hj
      exact absurd hj (h.ne_wait hplace hji)
  · have henough := h.enough hwaiting
    have hone := Bool.toNat_le (s.call i).wakes
    rw [underWay_of_held hheld, hfree, List.length_cons] at henough
    rw [underWay_setCall_self]
    · simp only [setCall, ConnCall.wakes, Bool.toNat_false]
      omega
    · exact hheld

theorem Inv.create {new : κ} (h : s.Inv) (hplace : s.place i = .inside) (hfree : s.freeList = [])
    (hmax : s.curConnCnt < s.maxConnCnt) (hnew : new ∉ s.users.map Prod.snd)
    (hcall : s.call i ≠ .wait) :
    { s with freeList := [new], curConnCnt := s.curConnCnt + 1 }.Inv := by
  have hnobody : s.freeNotify.waiting = [] := by
    by_contra hwaiting
    exact Int.not_le.mpr hmax (h.full hwaiting)
  refine ⟨h.agrees, ?_, ?_, ?_, h.returns, fun j hj => ?_, ?_, ?_⟩
  · have hnodup := h.nodup
    rw [hfree, List.nil_append] at hnodup
    exact List.nodup_cons.mpr ⟨hnew, hnodup⟩
  · have hle : s.curConnCnt + 1 ≤ s.maxConnCnt := hmax
    exact hle.trans (le_max_right ..)
  · have hcount := h.count
    rw [hfree] at hcount
    simp only [List.length_nil, List.length_cons] at hcount ⊢
    omega
  · by_cases hji : j = i
    · subst hji
      exact absurd hj hcall
    · exact absurd hj (h.ne_wait hplace hji)
  · exact fun hwaiting => absurd hnobody hwaiting
  · exact fun hwaiting => absurd hnobody hwaiting

section Turns

variable [DecidableEq κ]

theorem Inv.getTest {new : κ} (h : s.Inv) (hplace : s.place i = .inside) (hcall : s.call i ≠ .wait)
    (hstep : s.getTest i new = some s') : s'.Inv := by
  unfold ConnPool.getTest at hstep
  split at hstep
  · next conn rest hfree =>
    cases hstep
    exact h.take hplace hfree
  · next hfree =>
    split at hstep
    · next hmax =>
      cases hstep
      refine h.move (m := s.freeNotify) (h.agrees.update_self hplace) (fun conn hconn => ?_)
        (fun _ => ⟨hfree, hmax⟩) h.full fun _ => ?_
      · cases hconn
      · simp [hfree]
    · next hmax =>
      split at hstep
      · cases hstep
      · next hnew =>
        cases hstep
        exact h.create hplace hfree (Int.not_le.mp hmax) hnew hcall

theorem Inv.push {conn : κ} (h : s.Inv) (hcall : s.call i = .push conn) :
    ({ s with freeList := if conn ∈ s.freeList then s.freeList else s.freeList ++ [conn],
              users := s.users.erase (i, conn) }.setCall i .signal).Inv := by
  have hplace : s.place i = .inside := by simp [place, hcall, ConnCall.place]
  have hheld := h.agrees.held_eq hplace
  have huser : (i, conn) ∈ s.users := h.returns i conn (by simp [hcall, ConnCall.returns])
  have hperm := List.perm_cons_erase huser
  have hnot : conn ∉ s.freeList := fun hmem =>
    List.disjoint_of_nodup_append h.nodup hmem (List.mem_map_of_mem huser)
  rw [if_neg hnot]
  refine ⟨?_, ?_, h.limit, ?_, fun j c hc => ?_, fun j hj => ?_, h.full, fun hwaiting => ?_⟩
  · rw [place_setCall]
    exact h.agrees.update_self hplace
  · have hmap : (s.users.map Prod.snd).Perm (conn :: (s.users.erase (i, conn)).map Prod.snd) :=
      hperm.map Prod.snd
    simp only [setCall, List.append_assoc, List.cons_append, List.nil_append]
    exact (hmap.append_left s.freeList).nodup_iff.mp h.nodup
  · have hcount := h.count
    rw [hperm.length_eq] at hcount
    simp only [setCall, List.length_append, List.length_cons, List.length_nil] at hcount ⊢
    omega
  · by_cases hj : j = i
    · subst hj
      rw [call_setCall] at hc
      cases hc
    · rw [call_setCall_of_ne hj] at hc
      have hne : (j, c) ≠ (i, conn) := fun heq => hj (congrArg Prod.fst heq)
      exact (List.mem_erase_of_ne hne).mpr (h.returns j c hc)
  · by_cases hji : j = i
    · subst hji
      rw [call_setCall] at hj
      cases hj
    · rw [call_setCall_of_ne hji] at hj
      exact absurd hj (h.ne_wait hplace hji)
  · have henough := h.enough hwaiting
    rw [underWay_of_held hheld, hcall] at henough
    rw [underWay_setCall_self]
    · simp only [setCall, ConnCall.wakes, Bool.toNat_true, Bool.toNat_false, List.length_append,
        List.length_cons, List.length_nil] at henough ⊢
      omega
    · exact hheld

theorem Inv.turn {new : κ} {pick : ι} (h : s.Inv) (hstep : s.turn i new pick = some s') : s'.Inv := by
  have hplace : s.place i = (s.call i).place := rfl
  unfold ConnPool.turn at hstep
  split at hstep
  case h_1 => cases hstep
  case h_2 hcall =>
    obtain ⟨m, hlock, rfl⟩ := Option.map_eq_some_iff.mp hstep
    refine h.lock (by rw [hcall]; rfl) hlock rfl rfl (fun conn hconn => ?_) (fun hc => ?_)
    · cases hconn
    · cases hc
  case h_3 hcall | h_4 hcall =>
    refine h.getTest ?_ ?_ hstep
    · rw [hplace, hcall]
      rfl
    · rw [hcall]
      exact fun hc => by cases hc
  case h_5 hcall =>
    cases hstep
    exact h.sleep hcall
  case h_6 hcall =>
    obtain ⟨m, hresume, rfl⟩ := Option.map_eq_some_iff.mp hstep
    exact h.resume hresume
  case h_7 hcall | h_11 hcall =>
    cases hstep
    exact h.unlock (by rw [hcall]; rfl) (by rw [hcall]; rfl) rfl
  case h_8 conn hcall =>
    obtain ⟨m, hlock, rfl⟩ := Option.map_eq_some_iff.mp hstep
    refine h.lock (by rw [hcall]; rfl) hlock rfl rfl (fun c hc => ?_) (fun hc => ?_)
    · exact h.returns i c (by rwa [hcall])
    · cases hc
  case h_9 conn hcall =>
    cases hstep
    exact h.push hcall
  case h_10 hcall =>
    obtain ⟨m, hsignal, rfl⟩ := Option.map_eq_some_iff.mp hstep
    exact h.signal hcall hsignal

omit [DecidableEq κ] in
theorem Inv.begin {call : ConnCall κ} (h : s.Inv) (hcall : s.call i = .outside)
    (hplace : call.place = .outside) (hreturns : ∀ conn ∈ call.returns, (i, conn) ∈ s.users) :
    (s.setCall i call).Inv := by
  have hout : s.place i = .outside := by simp [place, hcall, ConnCall.place]
  have hne : s.place i ≠ .inside := by simp [hout]
  refine h.move (m := s.freeNotify) ?_ hreturns (fun hc => ?_) h.full fun hwaiting => ?_
  · rw [hplace]
    exact h.agrees.update_self hout
  · rw [hc] at hplace
    cases hplace
  · have hunder := underWay_setCall call (h.agrees.not_mem_held hne)
    exact (h.enough hwaiting).trans (Nat.le_of_eq hunder.symm)

theorem Inv.step {e : Event ι κ} (h : s.Inv) (hstep : s.step e = some s') : s'.Inv := by
  cases e with
  | getCacheConn i =>
    simp only [ConnPool.step] at hstep
    split at hstep
    · next hcall =>
      cases hstep
      refine h.begin hcall rfl fun conn hconn => ?_
      cases hconn
    · cases hstep
  | relCacheConn i conn =>
    simp only [ConnPool.step] at hstep
    split at hstep
    · next hcall =>
      obtain ⟨huser, hs'⟩ := Option.ite_none_right_eq_some.mp hstep
      cases hs'
      refine h.begin hcall rfl fun c hc => ?_
      cases hc
      exact huser
    · cases hstep
  | turn i new pick => exact h.turn hstep
  | spurious i =>
    obtain ⟨m, hspurious, rfl⟩ := Option.map_eq_some_iff.mp hstep
    obtain ⟨hwaiting, rfl⟩ := Monitor.spurious_eq_some hspurious
    have hne : s.freeNotify.waiting ≠ [] := List.ne_nil_of_mem hwaiting
    refine ⟨h.agrees.wake hwaiting, h.nodup, h.limit, h.count, h.returns, h.wait, fun _ => h.full hne,
      fun _ => (h.enough hne).trans ?_⟩
    simp only [underWay, Monitor.wake, List.length_cons]
    omega

end Turns

omit [DecidableEq ι] in
theorem Inv.sound (h : s.Inv) : s.Sound where
  lent := h.nodup.of_append_right
  free := h.nodup.of_append_left
  apart _ hfree hlent := List.disjoint_of_nodup_append h.nodup hfree hlent
  limit := h.count ▸ h.limit
  count := h.count
  wakes hwaiting hfree := Nat.lt_of_lt_of_le (List.length_pos_iff.mpr hfree) (h.enough hwaiting)

/-- Every state of the pool is sound, whatever the threads do. -/
theorem pool_sound [DecidableEq κ] {maxConnCnt : Int} {a b : κ} (hab : a ≠ b)
    (h : Run.Reaches step (fun _ _ => True) (start maxConnCnt a b : ConnPool ι κ) s) : s.Sound := by
  have hinv : s.Inv := by
    refine h.invariant Inv (inv_start maxConnCnt hab) ?_
    intro s e s' hs _ hstep
    exact hs.step hstep
  exact hinv.sound

/-- Two threads have the two connections, a third one waits and gets the one that is given back. -/
def waitAndGet : List (Event (Fin 3) Nat) :=
  [.getCacheConn 0, .turn 0 0 0, .turn 0 0 0, .turn 0 0 0, .getCacheConn 1, .turn 1 0 0, .turn 1 0 0,
    .turn 1 0 0, .getCacheConn 2, .turn 2 0 0, .turn 2 0 0, .turn 2 0 0, .relCacheConn 0 10,
    .turn 0 0 0, .turn 0 0 0, .turn 0 0 2, .turn 0 0 0, .turn 2 0 0, .turn 2 0 0]

theorem pool_sound_waitAndGet :
    ((Run.runGood step (fun _ _ => True) (start 2 10 11) waitAndGet).map fun s => s.users) =
        some [(2, 10), (1, 11)] ∧
      ∀ s ∈ Run.runGood step (fun _ _ => True) (start 2 10 11) waitAndGet, s.Sound :=
  ⟨by decide, fun _ hrun => pool_sound (by decide) (Run.reaches_of_runGood hrun)⟩

end ConnPool

end Cache

end ImServer
