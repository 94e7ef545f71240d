import ImServer.Lib.Crew
import ImServer.Lib.Monitor
import Mathlib.Algebra.Group.Int.Defs
import Mathlib.Data.Finset.Card
import Mathlib.Data.Fintype.Card

/-!
# The pool of the channel and message servers

A `CThreadPool` (channel/thread_pool.h) has one queue and several threads that take its tasks. As
for the worker threads of the stores, each lock, unlock, wait and notification is a step of its own,
and the callers of `add_task`, the threads and the one call of `stop` take their steps in any order.

`terminate_all` sets the flag and notifies all without the mutex: a thread that has tested the flag
and has not begun to wait yet waits for ever, and `stop` waits for it.
-/

namespace ImServer

/-- Where a thread of the pool is in `run_task`. The notification of `_task_put`, for which nobody
waits, is left out. -/
inductive RunTask (τ : Type) where
  | lock
  | test
  | wait
  | asleep
  | check
  | unlock (task : Option τ)
  | decr (task : τ)
  | run (task : τ)
  | incr
  | leave
  | exit
  deriving DecidableEq, Repr

/-- Where a caller is in `add_task`. -/
inductive AddTask (τ : Type) where
  | idle
  | check (task : τ)
  | lock (task : τ)
  | push (task : τ)
  | unlock
  | notify
  deriving DecidableEq, Repr

inductive TerminateAll where
  | idle
  | notify
  | join
  | clean
  | clear
  | unlock
  | returned
  deriving DecidableEq, Repr

inductive PoolThread (ω κ : Type) where
  | worker (w : ω)
  | adder (k : κ)
  | stopper
  deriving DecidableEq, Repr

namespace RunTask

variable {τ : Type}

/-- The task that a thread has taken and not finished. -/
def task : RunTask τ → Option τ
  | .unlock task => task
  | .decr task | .run task => some task
  | _ => none

/-- The task that a thread has taken and not begun. -/
def fresh : RunTask τ → Option τ
  | .unlock task => task
  | .decr task => some task
  | _ => none

/-- The thread is not in the idle counter. -/
def counted : RunTask τ → Bool
  | .run _ | .incr => true
  | _ => false

def runs : RunTask τ → Bool
  | .run _ => true
  | _ => false

/-- The thread is not taking or finishing a task. -/
def settled : RunTask τ → Bool
  | .unlock (some _) | .decr _ | .incr => false
  | _ => true

def exited : RunTask τ → Bool
  | .exit => true
  | _ => false

end RunTask

def TerminateAll.notified : TerminateAll → Bool
  | .idle | .notify => false
  | _ => true

def TerminateAll.joined : TerminateAll → Bool
  | .idle | .notify | .join => false
  | _ => true

/-- The queue has been emptied. -/
def TerminateAll.cleared : TerminateAll → Bool
  | .unlock | .returned => true
  | _ => false

structure CThreadPool (ω κ τ : Type) where
  isStop : Bool := false
  taskQueue : List τ := []
  taskGet : Monitor (PoolThread ω κ) := {}
  idleNum : Int
  runTask : ω → RunTask τ := fun _ => .lock
  addTask : κ → AddTask τ := fun _ => .idle
  terminateAll : TerminateAll := .idle
  -- what has happened so far
  added : List τ := []
  takes : List (ω × τ) := []
  started : ω → List τ := fun _ => []
  finished : List τ := []

namespace CThreadPool

variable {ω κ τ : Type} [DecidableEq ω] [DecidableEq κ]

/-- `notify_one` wakes the thread `pick`, if one waits. -/
inductive Event (ω κ τ : Type) where
  | runTask (w : ω)
  | spurious (w : ω)
  | call (k : κ) (task : τ)
  | addTask (k : κ) (pick : ω)
  | stop

section Steps

variable (s : CThreadPool ω κ τ)

def setRun (w : ω) (place : RunTask τ) : CThreadPool ω κ τ :=
  { s with runTask := Function.update s.runTask w place }

def setAdd (k : κ) (place : AddTask τ) : CThreadPool ω κ τ :=
  { s with addTask := Function.update s.addTask k place }

def runStep (w : ω) : Option (CThreadPool ω κ τ) :=
  match s.runTask w with
  | .lock =>
    (s.taskGet.lock false (.worker w)).map fun m => { s with taskGet := m }.setRun w .test
  | .test => some (s.setRun w (if s.taskQueue.isEmpty && !s.isStop then .wait else .check))
  | .wait => some ({ s with taskGet := s.taskGet.wait (.worker w) }.setRun w .asleep)
  | .asleep => (s.taskGet.resume (.worker w)).map fun m => { s with taskGet := m }.setRun w .test
  | .check =>
    if s.isStop then some (s.setRun w .leave)
    else
      match s.taskQueue with
      | [] => some (s.setRun w (.unlock none))
      | task :: rest =>
        some ({ s with taskQueue := rest, takes := s.takes ++ [(w, task)] }.setRun w
          (.unlock (some task)))
  | .unlock none => some ({ s with taskGet := s.taskGet.unlock }.setRun w .lock)
  | .unlock (some task) => some ({ s with taskGet := s.taskGet.unlock }.setRun w (.decr task))
  | .decr task =>
    some ({ s with idleNum := s.idleNum - 1,
                   started := Function.update s.started w (s.started w ++ [task]) }.setRun w
      (.run task))
  | .run task => some ({ s with finished := s.finished ++ [task] }.setRun w .incr)
  | .incr => some ({ s with idleNum := s.idleNum + 1 }.setRun w .lock)
  | .leave => some ({ s with taskGet := s.taskGet.unlock }.setRun w .exit)
  | .exit => none

/-- `check_thread_status` throws once the pool is stopped. The notification comes after the
mutex. -/
def addStep (k : κ) (pick : ω) : Option (CThreadPool ω κ τ) :=
  match s.addTask k with
  | .idle => none
  | .check task => some (s.setAdd k (if s.isStop then .idle else .lock task))
  | .lock task =>
    (s.taskGet.lock false (.adder k)).map fun m => { s with taskGet := m }.setAdd k (.push task)
  | .push task =>
    some ({ s with taskQueue := s.taskQueue ++ [task], added := s.added ++ [task] }.setAdd k .unlock)
  | .unlock => some ({ s with taskGet := s.taskGet.unlock }.setAdd k .notify)
  | .notify =>
    (s.taskGet.signal (.worker pick)).map fun m => { s with taskGet := m }.setAdd k .idle

end Steps

section Stop

variable [Fintype ω] (s : CThreadPool ω κ τ)

/-- `clean_task_queue` follows when all threads have been joined. -/
def stopStep : Option (CThreadPool ω κ τ) :=
  match s.terminateAll with
  | .idle => some { s with isStop := true, terminateAll := .notify }
  | .notify => some { s with taskGet := s.taskGet.broadcast, terminateAll := .join }
  | .join => if ∀ w, (s.runTask w).exited then some { s with terminateAll := .clean } else none
  | .clean =>
    (s.taskGet.lock false .stopper).map fun m => { s with taskGet := m, terminateAll := .clear }
  | .clear => some { s with taskQueue := [], terminateAll := .unlock }
  | .unlock => some { s with taskGet := s.taskGet.unlock, terminateAll := .returned }
  | .returned => none

def step : Event ω κ τ → Option (CThreadPool ω κ τ)
  | .runTask w => s.runStep w
  | .spurious w => (s.taskGet.spurious (.worker w)).map fun m => { s with taskGet := m }
  | .call k task =>
    match s.addTask k with
    | .idle => some (s.setAdd k (.check task))
    | _ => none
  | .addTask k pick => s.addStep k pick
  | .stop => s.stopStep

end Stop

/-- The pool after `init_thread_num`, with every thread counted as idle and no task in the queue. -/
def start [Fintype ω] : CThreadPool ω κ τ := { idleNum := Fintype.card ω }

/-- Tasks are taken in the order in which they were added, each thread begins those that it has
taken once, nobody waits once all have been notified of the stop, and the counter tells how many
threads do not run a task. -/
structure Protocol [Fintype ω] (s : CThreadPool ω κ τ) : Prop where
  inOrder : s.takes.map Prod.snd <+: s.added
  once : ∀ w, (s.takes.filter (·.1 = w)).map Prod.snd = s.started w ++ (s.runTask w).fresh.toList
  wakes : s.terminateAll.notified = true → s.taskGet.waiting = []
  idle : (∀ w, (s.runTask w).settled = true) →
    s.idleNum = (Finset.univ.filter fun w => (s.runTask w).runs = false).card

/-- No thread begins to wait once all have been notified of the stop. -/
def Clean (s : CThreadPool ω κ τ) : Event ω κ τ → Prop
  | .runTask w => s.runTask w = .wait → s.terminateAll.notified = false
  | _ => True

variable {s s' : CThreadPool ω κ τ} {w : ω}

/-- A turn of a thread moves it on, takes a task, begins one, finishes one or counts the thread
again. Only a thread that begins to wait joins those who wait. -/
theorem runStep_cases (hstep : s.runStep w = some s') :
    (∃ m place, s' = { s with taskGet := m }.setRun w place ∧ place.task = (s.runTask w).task ∧
      place.fresh = (s.runTask w).fresh ∧ place.counted = (s.runTask w).counted ∧
      (s.runTask w ≠ .wait → m.waiting = s.taskGet.waiting) ∧ s.runTask w ≠ .exit) ∨
    (∃ task rest, s.taskQueue = task :: rest ∧ s.runTask w = .check ∧
      s' = { s with taskQueue := rest, takes := s.takes ++ [(w, task)] }.setRun w
        (.unlock (some task))) ∨
    (∃ task, s.runTask w = .decr task ∧
      s' = { s with idleNum := s.idleNum - 1,
                    started := Function.update s.started w (s.started w ++ [task]) }.setRun w
        (.run task)) ∨
    (∃ task, s.runTask w = .run task ∧
      s' = { s with finished := s.finished ++ [task] }.setRun w .incr) ∨
    (s.runTask w = .incr ∧ s' = { s with idleNum := s.idleNum + 1 }.setRun w .lock) := by
  unfold runStep at hstep
  split at hstep
  case h_1 hpc =>
    obtain ⟨m, hlock, rfl⟩ := Option.map_eq_some_iff.mp hstep
    obtain ⟨-, rfl⟩ := Monitor.lock_eq_some hlock
    exact .inl ⟨_, .test, rfl, by simp [hpc, RunTask.task, RunTask.fresh, RunTask.counted]⟩
  case h_2 hpc =>
    cases hstep
    refine .inl ⟨s.taskGet, _, rfl, ?_⟩
    rw [hpc]
    split <;> simp [RunTask.task, RunTask.fresh, RunTask.counted]
  case h_3 hpc =>
    cases hstep
    exact .inl ⟨_, .asleep, rfl, by simp [hpc, RunTask.task, RunTask.fresh, RunTask.counted]⟩
  case h_4 hpc =>
    obtain ⟨m, hresume, rfl⟩ := Option.map_eq_some_iff.mp hstep
    obtain ⟨-, -, rfl⟩ := Monitor.resume_eq_some hresume
    exact .inl ⟨_, .test, rfl, by simp [hpc, RunTask.task, RunTask.fresh, RunTask.counted]⟩
  case h_5 hpc =>
    split at hstep
    · cases hstep
      exact .inl ⟨s.taskGet, .leave, rfl, by simp [hpc, RunTask.task, RunTask.fresh, RunTask.counted]⟩
    · split at hstep
      · cases hstep
        exact .inl ⟨s.taskGet, .unlock none, rfl,
          by simp [hpc, RunTask.task, RunTask.fresh, RunTask.counted]⟩
      · next task rest hqueue =>
        cases hstep
        exact .inr (.inl ⟨task, rest, hqueue, hpc, rfl⟩)
  case h_6 hpc =>
    cases hstep
    exact .inl ⟨_, .lock, rfl,
      by simp [hpc, RunTask.task, RunTask.fresh, RunTask.counted, Monitor.unlock]⟩
  case h_7 task hpc =>
    cases hstep
    exact .inl ⟨_, .decr task, rfl,
      by simp [hpc, RunTask.task, RunTask.fresh, RunTask.counted, Monitor.unlock]⟩
  case h_8 task hpc =>
    cases hstep
    exact .inr (.inr (.inl ⟨task, hpc, rfl⟩))
  case h_9 task hpc =>
    cases hstep
    exact .inr (.inr (.inr (.inl ⟨task, hpc, rfl⟩)))
  case h_10 hpc =>
    cases hstep
    exact .inr (.inr (.inr (.inr ⟨hpc, rfl⟩)))
  case h_11 hpc =>
    cases hstep
    exact .inl ⟨_, .exit, rfl,
      by simp [hpc, RunTask.task, RunTask.fresh, RunTask.counted, Monitor.unlock]⟩
  case h_12 => cases hstep

theorem exited_of_runStep (hstep : s.runStep w = some s') : (s.runTask w).exited = false := by
  cases hpc : s.runTask w with
  | exit => simp [runStep, hpc] at hstep
  | _ => rfl

omit [DecidableEq κ] in
@[simp] theorem runTask_setRun (place : RunTask τ) : (s.setRun w place).runTask w = place :=
  Function.update_self ..

omit [DecidableEq κ] in
theorem runTask_setRun_of_ne {w' : ω} (hw : w' ≠ w) (place : RunTask τ) :
    (s.setRun w place).runTask w' = s.runTask w' := Function.update_of_ne hw ..

theorem runTask_of_runStep (hstep : s.runStep w = some s') {v : ω} (hv : v ≠ w) :
    s'.runTask v = s.runTask v := by
  obtain ⟨m, place, rfl, -⟩ | ⟨task, rest, -, -, rfl⟩ | ⟨task, -, rfl⟩ | ⟨task, -, rfl⟩ | ⟨-, rfl⟩ :=
    runStep_cases hstep <;> exact runTask_setRun_of_ne hv _

/-- What the steps of the others leave as it is, which is what a thread may rely on between two of
its own. -/
structure Kept (s s' : CThreadPool ω κ τ) : Prop where
  runTask : s'.runTask = s.runTask
  idleNum : s'.idleNum = s.idleNum
  takes : s'.takes = s.takes
  started : s'.started = s.started

theorem kept_addStep {k : κ} {pick : ω} (hstep : s.addStep k pick = some s') : s.Kept s' := by
  unfold addStep at hstep
  split at hstep
  case h_1 => cases hstep
  case h_3 | h_6 =>
    obtain ⟨m, -, rfl⟩ := Option.map_eq_some_iff.mp hstep
    exact ⟨rfl, rfl, rfl, rfl⟩
  all_goals
    cases hstep
    exact ⟨rfl, rfl, rfl, rfl⟩

theorem kept_step [Fintype ω] {e : Event ω κ τ} (hstep : s.step e = some s')
    (he : ∀ w, e ≠ .runTask w) : s.Kept s' := by
  cases e with
  | runTask w => exact absurd rfl (he w)
  | spurious w =>
    obtain ⟨m, -, rfl⟩ := Option.map_eq_some_iff.mp hstep
    exact ⟨rfl, rfl, rfl, rfl⟩
  | call k task =>
    simp only [step] at hstep
    split at hstep
    · cases hstep
      exact ⟨rfl, rfl, rfl, rfl⟩
    · cases hstep
  | addTask k pick => exact kept_addStep hstep
  | stop =>
    simp only [step, stopStep] at hstep
    split at hstep
    case h_3 =>
      obtain ⟨-, h⟩ := Option.ite_none_right_eq_some.mp hstep
      cases h
      exact ⟨rfl, rfl, rfl, rfl⟩
    case h_4 =>
      obtain ⟨m, -, rfl⟩ := Option.map_eq_some_iff.mp hstep
      exact ⟨rfl, rfl, rfl, rfl⟩
    case h_7 => cases hstep
    all_goals
      cases hstep
      exact ⟨rfl, rfl, rfl, rfl⟩

/-- While a thread is left the queue has not been emptied, and it has what was not taken. -/
structure Queued (s : CThreadPool ω κ τ) : Prop where
  joined : s.terminateAll.joined = true → ∀ w, (s.runTask w).exited = true
  added : s.terminateAll.cleared = false → s.added = s.takes.map Prod.snd ++ s.taskQueue
  taken : s.takes.map Prod.snd <+: s.added

theorem TerminateAll.joined_of_cleared {t : TerminateAll} (h : t.cleared = true) :
    t.joined = true := by
  cases t <;> first | rfl | cases h

theorem Queued.runStep (h : s.Queued) (hstep : s.runStep w = some s') : s'.Queued := by
  have hjoined : s.terminateAll.joined = false := by
    refine Bool.eq_false_of_not_eq_true fun hjoined => ?_
    exact Bool.eq_false_iff.mp (exited_of_runStep hstep) (h.joined hjoined w)
  have hcleared : s.terminateAll.cleared = false := by
    refine Bool.eq_false_of_not_eq_true fun hcleared => ?_
    rw [TerminateAll.joined_of_cleared hcleared] at hjoined
    cases hjoined
  have hadded := h.added hcleared
  have hjoin {p : Prop} (hj : s.terminateAll.joined = true) : p := by
    rw [hjoined] at hj
    cases hj
  obtain ⟨m, place, rfl, -⟩ | ⟨task, rest, hqueue, -, rfl⟩ | ⟨task, -, rfl⟩ | ⟨task, -, rfl⟩ |
    ⟨-, rfl⟩ :=
    runStep_cases hstep
  · exact ⟨hjoin, fun _ => hadded, h.taken⟩
  · rw [hqueue] at hadded
    have hadded' : s.added = (s.takes ++ [(w, task)]).map Prod.snd ++ rest := by simpa using hadded
    exact ⟨hjoin, fun _ => hadded', ⟨rest, hadded'.symm⟩⟩
  · exact ⟨hjoin, fun _ => hadded, h.taken⟩
  · exact ⟨hjoin, fun _ => hadded, h.taken⟩
  · exact ⟨hjoin, fun _ => hadded, h.taken⟩

theorem Queued.addStep {k : κ} {pick : ω} (h : s.Queued) (hstep : s.addStep k pick = some s') :
    s'.Queued := by
  unfold CThreadPool.addStep at hstep
  split at hstep
  case h_1 => cases hstep
  case h_3 | h_6 =>
    obtain ⟨m, -, rfl⟩ := Option.map_eq_some_iff.mp hstep
    exact ⟨h.joined, h.added, h.taken⟩
  case h_4 task hpc =>
    cases hstep
    refine ⟨h.joined, fun hcleared => ?_, h.taken.trans (List.prefix_append ..)⟩
    have hadded := h.added hcleared
    simp [setAdd, hadded]
  case h_2 | h_5 =>
    cases hstep
    exact ⟨h.joined, h.added, h.taken⟩

theorem Queued.stopStep [Fintype ω] (h : s.Queued) (hstep : s.stopStep = some s') : s'.Queued := by
  unfold CThreadPool.stopStep at hstep
  split at hstep
  case h_1 hpc | h_2 hpc =>
    cases hstep
    refine ⟨fun hjoined => ?_, fun _ => ?_, h.taken⟩
    · cases hjoined
    · exact h.added (by rw [hpc]; rfl)
  case h_3 hpc =>
    obtain ⟨hall, hs'⟩ := Option.ite_none_right_eq_some.mp hstep
    cases hs'
    exact ⟨fun _ => hall, fun _ => h.added (by rw [hpc]; rfl), h.taken⟩
  case h_4 hpc =>
    obtain ⟨m, -, rfl⟩ := Option.map_eq_some_iff.mp hstep
    refine ⟨fun _ => h.joined ?_, fun _ => h.added ?_, h.taken⟩ <;> rw [hpc] <;> rfl
  case h_5 hpc | h_6 hpc =>
    cases hstep
    refine ⟨fun _ => h.joined ?_, fun hcleared => ?_, h.taken⟩
    · rw [hpc]
      rfl
    · cases hcleared
  case h_7 => cases hstep

theorem Queued.step [Fintype ω] {e : Event ω κ τ} (h : s.Queued) (hstep : s.step e = some s') :
    s'.Queued := by
  cases e with
  | runTask w => exact h.runStep hstep
  | spurious w =>
    obtain ⟨m, -, rfl⟩ := Option.map_eq_some_iff.mp hstep
    exact ⟨h.joined, h.added, h.taken⟩
  | call k task =>
    simp only [CThreadPool.step] at hstep
    split at hstep
    · cases hstep
      exact ⟨h.joined, h.added, h.taken⟩
    · cases hstep
  | addTask k pick => exact h.addStep hstep
  | stop => exact h.stopStep hstep

/-- A thread begins what it has taken. -/
def Once (s : CThreadPool ω κ τ) : Prop :=
  ∀ w, (s.takes.filter (·.1 = w)).map Prod.snd = s.started w ++ (s.runTask w).fresh.toList

theorem Once.runStep (h : s.Once) (hstep : s.runStep w = some s') : s'.Once := by
  intro w'
  have hw' := h w'
  obtain ⟨m, place, rfl, -, hfresh, -⟩ | ⟨task, rest, -, hpc, rfl⟩ | ⟨task, hpc, rfl⟩ |
    ⟨task, hpc, rfl⟩ |
    ⟨hpc, rfl⟩ := runStep_cases hstep
  all_goals by_cases hw : w' = w
  all_goals try (rw [runTask_setRun_of_ne hw]; exact hw')
  · subst hw
    rwa [runTask_setRun, hfresh]
  · subst hw
    rw [hpc] at hw'
    rw [runTask_setRun]
    simp_all [setRun, RunTask.fresh]
  · rw [runTask_setRun_of_ne hw]
    simpa [setRun, Ne.symm hw] using hw'
  · subst hw
    rw [hpc] at hw'
    rw [runTask_setRun]
    simp_all [setRun, RunTask.fresh]
  · rw [runTask_setRun_of_ne hw]
    simpa [setRun, hw] using hw'
  · subst hw
    rw [hpc] at hw'
    rwa [runTask_setRun]
  · subst hw
    rw [hpc] at hw'
    rwa [runTask_setRun]

/-- The threads that the counter does not count. -/
def uncounted [Fintype ω] (s : CThreadPool ω κ τ) : Finset ω :=
  Finset.univ.filter fun w => (s.runTask w).counted = true

omit [DecidableEq κ] in
theorem uncounted_of_eq [Fintype ω] (hsame : ∀ v ≠ w, s'.runTask v = s.runTask v)
    (hw : (s.runTask w).counted = (s'.runTask w).counted) : s'.uncounted = s.uncounted := by
  ext v
  by_cases hv : v = w
  · subst hv
    simp [uncounted, hw]
  · simp [uncounted, hsame v hv]

omit [DecidableEq κ] in
theorem card_uncounted [Fintype ω] (hsame : ∀ v ≠ w, s'.runTask v = s.runTask v)
    (hw : (s.runTask w).counted = false) (hw' : (s'.runTask w).counted = true) :
    s'.uncounted.card = s.uncounted.card + 1 := by
  have hinsert : s'.uncounted = insert w s.uncounted := by
    ext v
    by_cases hv : v = w
    · subst hv
      simp [uncounted, hw']
    · simp [uncounted, hsame v hv, hv]
  rw [hinsert, Finset.card_insert_of_notMem (by simp [uncounted, hw])]

def Counts [Fintype ω] (s : CThreadPool ω κ τ) : Prop :=
  s.idleNum + s.uncounted.card = Fintype.card ω

theorem Counts.runStep [Fintype ω] (h : s.Counts) (hstep : s.runStep w = some s') : s'.Counts := by
  have hsame : ∀ v ≠ w, s'.runTask v = s.runTask v := fun v hv => runTask_of_runStep hstep hv
  unfold Counts at h ⊢
  obtain ⟨m, place, rfl, -, -, hcounted, -⟩ | ⟨task, rest, -, hpc, rfl⟩ | ⟨task, hpc, rfl⟩ |
    ⟨task, hpc, rfl⟩ | ⟨hpc, rfl⟩ := runStep_cases hstep
  · rw [uncounted_of_eq hsame (by rw [runTask_setRun, hcounted])]
    exact h
  · rw [uncounted_of_eq hsame (by rw [runTask_setRun, hpc]; rfl)]
    exact h
  · rw [card_uncounted hsame (by rw [hpc]; rfl) (by rw [runTask_setRun]; rfl)]
    simp only [setRun]
    omega
  · rw [uncounted_of_eq hsame (by rw [runTask_setRun, hpc]; rfl)]
    exact h
  · have hcard := card_uncounted (fun v hv => (hsame v hv).symm) (by rw [runTask_setRun]; rfl)
      (by rw [hpc]; rfl)
    simp only [setRun] at hcard ⊢
    omega

/-- Nobody waits once all have been notified. -/
def Wakes (s : CThreadPool ω κ τ) : Prop :=
  s.terminateAll.notified = true → s.taskGet.waiting = []

theorem Wakes.runStep (h : s.Wakes) (hclean : s.Clean (.runTask w)) (hstep : s.runStep w = some s') :
    s'.Wakes := by
  intro hnotified
  obtain ⟨m, place, rfl, -, -, -, hwaiting, -⟩ | ⟨task, rest, -, -, rfl⟩ | ⟨task, -, rfl⟩ |
    ⟨task, -, rfl⟩ | ⟨-, rfl⟩ := runStep_cases hstep
  · have hne : s.runTask w ≠ .wait := by
      intro hpc
      exact Bool.eq_false_iff.mp (hclean hpc) hnotified
    exact (hwaiting hne).trans (h hnotified)
  all_goals exact h hnotified

theorem Wakes.addStep {k : κ} {pick : ω} (h : s.Wakes) (hstep : s.addStep k pick = some s') :
    s'.Wakes := by
  intro hnotified
  unfold CThreadPool.addStep at hstep
  split at hstep
  case h_1 => cases hstep
  case h_3 =>
    obtain ⟨m, hlock, rfl⟩ := Option.map_eq_some_iff.mp hstep
    obtain ⟨-, rfl⟩ := Monitor.lock_eq_some hlock
    exact h hnotified
  case h_6 =>
    obtain ⟨m, hsignal, rfl⟩ := Option.map_eq_some_iff.mp hstep
    have hnil : s.taskGet.waiting = [] := h hnotified
    rw [Monitor.signal, if_pos hnil] at hsignal
    cases hsignal
    exact hnil
  all_goals
    cases hstep
    exact h hnotified

theorem Wakes.stopStep [Fintype ω] (h : s.Wakes) (hstep : s.stopStep = some s') : s'.Wakes := by
  intro hnotified
  unfold CThreadPool.stopStep at hstep
  split at hstep
  case h_1 =>
    cases hstep
    cases hnotified
  case h_2 =>
    cases hstep
    rfl
  case h_3 hpc =>
    obtain ⟨-, hs'⟩ := Option.ite_none_right_eq_some.mp hstep
    cases hs'
    exact h (by rw [hpc]; rfl)
  case h_4 hpc =>
    obtain ⟨m, hlock, rfl⟩ := Option.map_eq_some_iff.mp hstep
    obtain ⟨-, rfl⟩ := Monitor.lock_eq_some hlock
    exact h (by rw [hpc]; rfl)
  case h_5 hpc | h_6 hpc =>
    cases hstep
    exact h (by rw [hpc]; rfl)
  case h_7 => cases hstep

theorem Wakes.step [Fintype ω] {e : Event ω κ τ} (h : s.Wakes) (hclean : s.Clean e)
    (hstep : s.step e = some s') : s'.Wakes := by
  cases e with
  | runTask w => exact h.runStep hclean hstep
  | spurious w =>
    intro hnotified
    obtain ⟨m, hspurious, rfl⟩ := Option.map_eq_some_iff.mp hstep
    obtain ⟨hwaiting, -⟩ := Monitor.spurious_eq_some hspurious
    rw [h hnotified] at hwaiting
    cases hwaiting
  | call k task =>
    simp only [CThreadPool.step] at hstep
    split at hstep
    · cases hstep
      exact h
    · cases hstep
  | addTask k pick => exact h.addStep hstep
  | stop => exact h.stopStep hstep

section Runs

variable [Fintype ω]

/-- Holds in every run: the tasks leave the queue in its order, a thread begins what it has taken,
and the idle threads are counted. -/
structure Inv (s : CThreadPool ω κ τ) : Prop where
  queued : s.Queued
  once : s.Once
  counts : s.Counts

omit [DecidableEq κ] in
theorem inv_start : (start : CThreadPool ω κ τ).Inv where
  queued := ⟨fun h => Bool.noConfusion h, fun _ => rfl, List.nil_prefix⟩
  once _ := rfl
  counts := by simp [Counts, uncounted, start, RunTask.counted]

omit [DecidableEq ω] [DecidableEq κ] in
theorem Kept.uncounted (h : s.Kept s') : s'.uncounted = s.uncounted := by
  simp only [CThreadPool.uncounted, h.runTask]

theorem Inv.step {e : Event ω κ τ} (h : s.Inv) (hstep : s.step e = some s') : s'.Inv := by
  have hqueued := h.queued.step hstep
  by_cases he : ∃ w, e = .runTask w
  · obtain ⟨w, rfl⟩ := he
    exact ⟨hqueued, h.once.runStep hstep, h.counts.runStep hstep⟩
  · have hkept := kept_step hstep (not_exists.mp he)
    refine ⟨hqueued, ?_, ?_⟩
    · unfold Once
      rw [hkept.takes, hkept.started, hkept.runTask]
      exact h.once
    · unfold Counts
      rw [hkept.idleNum, hkept.uncounted]
      exact h.counts

theorem inv_of_reaches {good : CThreadPool ω κ τ → Event ω κ τ → Prop}
    (h : Run.Reaches step good start s) : s.Inv := by
  refine h.invariant Inv inv_start ?_
  intro s e s' hinv _ hstep
  exact hinv.step hstep

omit [DecidableEq κ] in
/-- While nothing is taken or finished, the threads that the counter leaves out run a task. -/
theorem Inv.idle (h : s.Inv) (hsettled : ∀ w, (s.runTask w).settled = true) :
    s.idleNum = (Finset.univ.filter fun w => (s.runTask w).runs = false).card := by
  have hruns : s.uncounted = Finset.univ.filter fun w => ¬ (s.runTask w).runs = false := by
    refine Finset.filter_congr fun w _ => ?_
    have hw := hsettled w
    cases hpc : s.runTask w with
    | incr => simp [hpc, RunTask.settled] at hw
    | _ => simp [RunTask.counted, RunTask.runs]
  have hcard := Finset.card_filter_add_card_filter_not (s := Finset.univ)
    fun w => (s.runTask w).runs = false
  have hcounts := h.counts
  unfold Counts at hcounts
  rw [hruns] at hcounts
  rw [Finset.card_univ] at hcard
  omega

/-- A pool whose threads do not begin to wait after the notification of the stop keeps the
protocol. -/
theorem pool_protocol_kept (h : Run.Reaches step Clean (start : CThreadPool ω κ τ) s) : s.Protocol := by
  have hinv := inv_of_reaches h
  refine ⟨hinv.queued.taken, hinv.once, ?_, hinv.idle⟩
  refine h.invariant Wakes (fun _ => rfl) ?_
  intro s e s' hwakes hclean hstep
  exact hwakes.step hclean hstep

end Runs

/-- And a wait that begins later is enough for the protocol to be broken. -/
theorem not_pool_protocol_of_not_clean [Fintype ω] {e : Event ω κ τ} (hclean : ¬ s.Clean e) :
    ∃ s', s.step e = some s' ∧ ¬ s'.Protocol := by
  cases e with
  | spurious | call | addTask | stop => exact absurd trivial hclean
  | runTask w =>
    obtain ⟨hpc, hnotified⟩ := Classical.not_imp.mp hclean
    refine ⟨{ s with taskGet := s.taskGet.wait (.worker w) }.setRun w .asleep, ?_, fun hbad => ?_⟩
    · simp only [step, runStep, hpc]
    · have hwaiting := hbad.wakes (Bool.eq_true_of_not_eq_false hnotified)
      exact List.cons_ne_nil _ _ hwaiting

def crew (s : CThreadPool ω κ τ) : Crew ω τ where
  queue := s.taskQueue
  running w := (s.runTask w).task
  added := s.added
  taken := s.takes.map Prod.snd
  finished := s.finished

theorem crew_runStep (hstep : s.runStep w = some s') :
    s'.crew = s.crew ∨ ∃ e, s.crew.step e = some s'.crew := by
  have hrunning : ∀ task, (s'.runTask w).task = task →
      (fun v => (s'.runTask v).task) = Function.update (fun v => (s.runTask v).task) w task := by
    intro task htask
    funext v
    by_cases hv : v = w
    · subst hv
      rw [Function.update_self, htask]
    · rw [Function.update_of_ne hv, runTask_of_runStep hstep hv]
  have hsame : (s'.runTask w).task = (s.runTask w).task →
      (fun v => (s'.runTask v).task) = fun v => (s.runTask v).task := by
    intro htask
    rw [hrunning _ htask, Function.update_eq_self_iff]
  obtain ⟨m, place, rfl, htask, -⟩ | ⟨task, rest, hqueue, hpc, rfl⟩ | ⟨task, hpc, rfl⟩ |
    ⟨task, hpc, rfl⟩ | ⟨hpc, rfl⟩ := runStep_cases hstep
  · left
    simp only [crew, hsame (by rw [runTask_setRun, htask])]
    rfl
  · right
    refine ⟨.take w, ?_⟩
    rw [Crew.take_of_eq task rest (by simp [crew, hpc, RunTask.task]) hqueue]
    simp only [crew, hrunning (some task) (by rw [runTask_setRun]; rfl)]
    simp [setRun]
  · left
    simp only [crew, hsame (by rw [runTask_setRun, hpc]; rfl)]
    rfl
  · right
    refine ⟨.finish w, ?_⟩
    rw [Crew.finish_of_eq task (by simp [crew, hpc, RunTask.task])]
    simp only [crew, hrunning none (by rw [runTask_setRun]; rfl)]
    simp [setRun]
  · left
    simp only [crew, hsame (by rw [runTask_setRun, hpc]; rfl)]
    rfl

/-- Every step of the pool before its queue is emptied is one of its threads at the queue, or
none. -/
theorem crew_step [Fintype ω] {e : Event ω κ τ} (hclear : s.terminateAll ≠ .clear)
    (hstep : s.step e = some s') : s'.crew = s.crew ∨ ∃ e', s.crew.step e' = some s'.crew := by
  cases e with
  | runTask w => exact crew_runStep hstep
  | spurious w =>
    obtain ⟨m, -, rfl⟩ := Option.map_eq_some_iff.mp hstep
    exact .inl rfl
  | call k task =>
    simp only [step] at hstep
    split at hstep
    · cases hstep
      exact .inl rfl
    · cases hstep
  | addTask k pick =>
    simp only [step, addStep] at hstep
    split at hstep
    case h_1 => cases hstep
    case h_3 | h_6 =>
      obtain ⟨m, -, rfl⟩ := Option.map_eq_some_iff.mp hstep
      exact .inl rfl
    case h_4 task hpc =>
      cases hstep
      exact .inr ⟨.add task, rfl⟩
    case h_2 | h_5 =>
      cases hstep
      exact .inl rfl
  | stop =>
    simp only [step, stopStep] at hstep
    split at hstep
    case h_1 | h_2 | h_6 =>
      cases hstep
      exact .inl rfl
    case h_3 =>
      obtain ⟨-, hs'⟩ := Option.ite_none_right_eq_some.mp hstep
      cases hs'
      exact .inl rfl
    case h_4 =>
      obtain ⟨m, -, rfl⟩ := Option.map_eq_some_iff.mp hstep
      exact .inl rfl
    case h_5 hpc => exact absurd hpc hclear
    case h_7 => cases hstep

instance [DecidableEq τ] (s : CThreadPool ω κ τ) : (e : Event ω κ τ) → Decidable (s.Clean e)
  | .runTask _ => inferInstanceAs (Decidable (_ → _))
  | .spurious _ | .call .. | .addTask .. | .stop => isTrue trivial

/-- A thread runs a task and waits again, and is told of the stop. -/
def runAndStop : List (Event Unit Unit Nat) :=
  [.runTask (), .runTask (), .runTask (), .call () 7, .addTask () (), .addTask () (), .addTask () (),
    .addTask () (), .addTask () (), .runTask (), .runTask (), .runTask (), .runTask (), .runTask (),
    .runTask (), .runTask (), .runTask (), .runTask (), .runTask (), .stop, .stop]

theorem pool_protocol_kept_runAndStop :
    ((Run.runGood step Clean start runAndStop).map fun s => (s.finished, s.idleNum)) = some ([7], 1) ∧
      ∀ s ∈ Run.runGood step Clean start runAndStop, s.Protocol :=
  ⟨by decide, fun _ hrun => pool_protocol_kept (Run.reaches_of_runGood hrun)⟩

/-- The stop comes between the test of a thread and its wait. -/
def stopBeforeWait : List (Event Unit Unit Nat) :=
  [.runTask (), .runTask (), .stop, .stop, .runTask ()]

theorem not_pool_protocol_kept :
    ¬ ∀ s : CThreadPool Unit Unit Nat, Run.Reaches step (fun _ _ => True) start s →
        s.Protocol := by
  intro hkept
  obtain ⟨s, hs⟩ := Option.isSome_iff_exists.mp
    (by decide : (Run.runGood step (fun _ _ => True) start stopBeforeWait).isSome)
  have hbad : ∀ s ∈ Run.runGood step (fun _ _ => True) start stopBeforeWait,
      s.terminateAll.notified = true ∧ s.taskGet.waiting ≠ [] := by decide
  exact (hbad s hs).2 ((hkept s (Run.reaches_of_runGood hs)).wakes (hbad s hs).1)

end CThreadPool

end ImServer
