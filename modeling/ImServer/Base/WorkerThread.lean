import ImServer.Lib.Monitor
import ImServer.Lib.Run
import Mathlib.Data.Fintype.Basic
import Mathlib.Tactic.Push

/-!
# A worker thread and its task list

A `CImWorkerThread` (base/threadpool.cpp) runs the tasks that other threads push. Each lock,
unlock, wait and signal is a step of its own, and so is each test that the worker makes; all
callers of `PushTask`, the one caller of `Stop` and the worker take their steps in any order.

Two things go wrong around `Stop`, which sets its flag and signals without the mutex. A worker that
finds the list empty and the flag down leaves its loop without unlocking. And a worker that saw
the flag up before it waits does not hear a signal that came before the wait.
-/

namespace ImServer

open Monitor (Place)

/-- Where the worker is in `Execute`: in front of a test, a call or an end. -/
inductive Execute (τ : Type) where
  | loop
  | lock
  | test
  | wait
  | asleep
  | front
  | unlock (task : τ)
  | run (task : τ)
  | exit
  deriving DecidableEq, Repr

/-- Where a thread is in `PushTask`. -/
inductive PushTask (τ : Type) where
  | idle
  | lock (task : τ)
  | push (task : τ)
  | signal
  | unlock
  deriving DecidableEq, Repr

/-- How far the call of `Stop` is. -/
inductive StopCall where
  | idle
  | signal
  | returned
  deriving DecidableEq, Repr

def Execute.place {τ : Type} : Execute τ → Place
  | .test | .wait | .front | .unlock _ => .inside
  | .asleep => .asleep
  | .loop | .lock | .run _ | .exit => .outside

/-- The task that the worker has taken and not run yet. -/
def Execute.taken {τ : Type} : Execute τ → List τ
  | .unlock task | .run task => [task]
  | _ => []

def PushTask.place {τ : Type} : PushTask τ → Place
  | .push _ | .signal | .unlock => .inside
  | .idle | .lock _ => .outside

/-- The call is still going to signal. -/
def PushTask.signals {τ : Type} : PushTask τ → Bool
  | .lock _ | .push _ | .signal => true
  | .idle | .unlock => false

/-- The worker has been started. The thread `none` is the worker, and the threads `some i` push. -/
structure CImWorkerThread (ι τ : Type) where
  running : Bool := true
  taskList : List τ := []
  threadNotify : Monitor (Option ι) := {}
  execute : Execute τ := .loop
  pushTask : ι → PushTask τ := fun _ => .idle
  stop : StopCall := .idle
  -- what has happened so far
  pushed : List τ := []
  ran : List τ := []

namespace CImWorkerThread

variable {ι τ : Type} [DecidableEq ι]

inductive Event (ι τ : Type) where
  | execute
  | spurious
  | call (i : ι) (task : τ)
  | pushTask (i : ι)
  | stop

section Steps

variable (s : CImWorkerThread ι τ)

/-- The worker holds the mutex from `lock` to `unlock`, and also when it goes on to `loop` with an
empty list. -/
def executeStep : Option (CImWorkerThread ι τ) :=
  match s.execute with
  | .loop =>
    some { s with execute := if s.running || !s.taskList.isEmpty then .lock else .exit }
  | .lock =>
    (s.threadNotify.lock true none).map fun m => { s with threadNotify := m, execute := .test }
  | .test =>
    some { s with execute := if s.taskList.isEmpty && s.running then .wait else .front }
  | .wait => some { s with threadNotify := s.threadNotify.wait none, execute := .asleep }
  | .asleep => (s.threadNotify.resume none).map fun m => { s with threadNotify := m, execute := .test }
  | .front =>
    match s.taskList with
    | [] => some { s with execute := .loop }
    | task :: rest => some { s with taskList := rest, execute := .unlock task }
  | .unlock task => some { s with threadNotify := s.threadNotify.unlock, execute := .run task }
  | .run task => some { s with ran := s.ran ++ [task], execute := .loop }
  | .exit => none

def setPush (i : ι) (place : PushTask τ) : CImWorkerThread ι τ :=
  { s with pushTask := Function.update s.pushTask i place }

def pushStep (i : ι) : Option (CImWorkerThread ι τ) :=
  match s.pushTask i with
  | .idle => none
  | .lock task =>
    (s.threadNotify.lock true (some i)).map fun m => { s with threadNotify := m }.setPush i (.push task)
  | .push task =>
    some ({ s with taskList := s.taskList ++ [task], pushed := s.pushed ++ [task] }.setPush i .signal)
  | .signal =>
    (s.threadNotify.signal none).map fun m => { s with threadNotify := m }.setPush i .unlock
  | .unlock => some ({ s with threadNotify := s.threadNotify.unlock }.setPush i .idle)

/-- `Stop` does not take the mutex. -/
def stopStep : Option (CImWorkerThread ι τ) :=
  match s.stop with
  | .idle => some { s with running := false, stop := .signal }
  | .signal => (s.threadNotify.signal none).map fun m => { s with threadNotify := m, stop := .returned }
  | .returned => none

def step : Event ι τ → Option (CImWorkerThread ι τ)
  | .execute => s.executeStep
  | .spurious => (s.threadNotify.spurious none).map fun m => { s with threadNotify := m }
  | .call i task =>
    match s.pushTask i with
    | .idle => some (s.setPush i (.lock task))
    | _ => none
  | .pushTask i => s.pushStep i
  | .stop => s.stopStep

end Steps

/-- States of a worker that was started, after any steps. -/
abbrev Reached : CImWorkerThread ι τ → Prop := Run.Reaches step (fun _ _ => True) {}

/-- Somebody is about to signal, so that a thread that sleeps although there are tasks will be
woken. -/
def SomeSignals (s : CImWorkerThread ι τ) : Prop := ∃ i, (s.pushTask i).signals = true

/-- What the worker and its callers rely on: tasks are run once and in the order of the pushes, the
mutex is not taken twice and is free when the worker has left, and once `Stop` has returned the
worker waits only if somebody is about to signal. -/
structure Protocol (s : CImWorkerThread ι τ) : Prop where
  tasks : s.pushed = s.ran ++ s.execute.taken ++ s.taskList
  relock : s.execute = .lock → none ∉ s.threadNotify.held
  exit : s.execute = .exit → none ∉ s.threadNotify.held
  wakes : s.stop = .returned → none ∈ s.threadNotify.waiting → s.SomeSignals

/-- A turn of the worker finds a task or the flag still up when it tests for the last time, and
begins a wait only before the signal of `Stop`, or while somebody is about to signal. -/
def Clean (s : CImWorkerThread ι τ) : Event ι τ → Prop
  | .execute =>
    (s.execute = .test → s.taskList = [] → s.running = true) ∧
      (s.execute = .wait → s.stop = .returned → s.SomeSignals)
  | _ => True

variable {s s' : CImWorkerThread ι τ}

theorem tasks_executeStep (h : s.pushed = s.ran ++ s.execute.taken ++ s.taskList)
    (hstep : s.executeStep = some s') : s'.pushed = s'.ran ++ s'.execute.taken ++ s'.taskList := by
  unfold executeStep at hstep
  split at hstep
  case h_1 hpc | h_3 hpc =>
    cases hstep
    rw [hpc] at h
    dsimp only
    split <;> exact h
  case h_2 hpc | h_5 hpc =>
    obtain ⟨m, -, rfl⟩ := Option.map_eq_some_iff.mp hstep
    simpa [hpc, Execute.taken] using h
  case h_4 hpc =>
    cases hstep
    simpa [hpc, Execute.taken] using h
  case h_6 hpc =>
    split at hstep
    · next hlist =>
      cases hstep
      simpa [hpc, Execute.taken, hlist] using h
    · next task rest hlist =>
      cases hstep
      simpa [hpc, Execute.taken, hlist] using h
  case h_7 task hpc | h_8 task hpc =>
    cases hstep
    simpa [hpc, Execute.taken] using h
  case h_9 => cases hstep

theorem tasks_step {e : Event ι τ} (h : s.pushed = s.ran ++ s.execute.taken ++ s.taskList)
    (hstep : s.step e = some s') : s'.pushed = s'.ran ++ s'.execute.taken ++ s'.taskList := by
  cases e with
  | execute => exact tasks_executeStep h hstep
  | spurious =>
    obtain ⟨m, -, rfl⟩ := Option.map_eq_some_iff.mp hstep
    exact h
  | call i task =>
    simp only [step] at hstep
    split at hstep
    · cases hstep
      exact h
    · cases hstep
  | pushTask i =>
    simp only [step, pushStep] at hstep
    split at hstep
    case h_1 => cases hstep
    case h_2 | h_4 =>
      obtain ⟨m, -, rfl⟩ := Option.map_eq_some_iff.mp hstep
      exact h
    case h_3 =>
      cases hstep
      simp [setPush, h]
    case h_5 =>
      cases hstep
      exact h
  | stop =>
    simp only [step, stopStep] at hstep
    split at hstep
    case h_1 =>
      cases hstep
      exact h
    case h_2 =>
      obtain ⟨m, -, rfl⟩ := Option.map_eq_some_iff.mp hstep
      exact h
    case h_3 => cases hstep

def place (s : CImWorkerThread ι τ) : Option ι → Place
  | none => s.execute.place
  | some i => (s.pushTask i).place

theorem agrees_of_execute (hpush : s'.pushTask = s.pushTask)
    (h : s'.threadNotify.Agrees (Function.update s.place none s'.execute.place)) :
    s'.threadNotify.Agrees s'.place := by
  have hplace : s'.place = Function.update s.place none s'.execute.place := by
    funext thread
    cases thread with
    | none => simp [place]
    | some i => simp [place, hpush]
  rwa [hplace]

theorem agrees_of_pushTask {i : ι} {p : PushTask τ} (hexecute : s'.execute = s.execute)
    (hpush : s'.pushTask = Function.update s.pushTask i p)
    (h : s'.threadNotify.Agrees (Function.update s.place (some i) p.place)) :
    s'.threadNotify.Agrees s'.place := by
  have hplace : s'.place = Function.update s.place (some i) p.place := by
    funext thread
    cases thread with
    | none => simp [place, hexecute]
    | some j =>
      by_cases hj : j = i
      · simp [place, hpush, hj]
      · simp [place, hpush, hj]
  rwa [hplace]

/-- Holds in runs whose turns are all clean. A thread that sleeps while the list has tasks is woken
by a signal that is still to come. -/
structure Inv (s : CImWorkerThread ι τ) : Prop where
  agrees : s.threadNotify.Agrees s.place
  front : s.execute = .front → s.taskList ≠ []
  wakes : s.stop = .returned → none ∈ s.threadNotify.waiting → s.SomeSignals

theorem agrees_executeStep (h : s.Inv) (hstep : s.executeStep = some s') :
    s'.threadNotify.Agrees s'.place := by
  have hagrees := h.agrees
  have hplace : s.place none = s.execute.place := rfl
  unfold executeStep at hstep
  split at hstep
  case h_1 hpc | h_3 hpc =>
    cases hstep
    refine agrees_of_execute (s := s) rfl ?_
    rw [hpc] at hplace
    dsimp only
    split <;> exact hagrees.update_self hplace
  case h_2 hpc =>
    obtain ⟨m, hlock, rfl⟩ := Option.map_eq_some_iff.mp hstep
    rw [hpc] at hplace
    exact agrees_of_execute (s := s) rfl (hagrees.lock hplace hlock)
  case h_4 hpc =>
    cases hstep
    rw [hpc] at hplace
    exact agrees_of_execute (s := s) rfl (hagrees.wait hplace)
  case h_5 hpc =>
    obtain ⟨m, hresume, rfl⟩ := Option.map_eq_some_iff.mp hstep
    exact agrees_of_execute (s := s) rfl (hagrees.resume hresume)
  case h_6 hpc =>
    rw [hpc] at hplace
    split at hstep
    · next hlist => exact absurd hlist (h.front hpc)
    · next task rest hlist =>
      cases hstep
      exact agrees_of_execute (s := s) rfl (hagrees.update_self hplace)
  case h_7 task hpc =>
    cases hstep
    rw [hpc] at hplace
    exact agrees_of_execute (s := s) rfl (hagrees.unlock hplace)
  case h_8 task hpc =>
    cases hstep
    rw [hpc] at hplace
    exact agrees_of_execute (s := s) rfl (hagrees.update_self hplace)
  case h_9 => cases hstep

theorem agrees_step {e : Event ι τ} (h : s.Inv) (hstep : s.step e = some s') :
    s'.threadNotify.Agrees s'.place := by
  have hagrees := h.agrees
  cases e with
  | execute => exact agrees_executeStep h hstep
  | spurious =>
    obtain ⟨m, hspurious, rfl⟩ := Option.map_eq_some_iff.mp hstep
    obtain ⟨hwaiting, rfl⟩ := Monitor.spurious_eq_some hspurious
    exact hagrees.wake hwaiting
  | call i task =>
    have hplace : s.place (some i) = (s.pushTask i).place := rfl
    simp only [step] at hstep
    split at hstep
    · next hpc =>
      cases hstep
      rw [hpc] at hplace
      exact agrees_of_pushTask (s := s) rfl rfl (hagrees.update_self hplace)
    · cases hstep
  | pushTask i =>
    have hplace : s.place (some i) = (s.pushTask i).place := rfl
    simp only [step, pushStep] at hstep
    split at hstep
    case h_1 => cases hstep
    case h_2 hpc =>
      obtain ⟨m, hlock, rfl⟩ := Option.map_eq_some_iff.mp hstep
      rw [hpc] at hplace
      exact agrees_of_pushTask (s := s) rfl rfl (hagrees.lock hplace hlock)
    case h_3 hpc =>
      cases hstep
      rw [hpc] at hplace
      exact agrees_of_pushTask (s := s) rfl rfl (hagrees.update_self hplace)
    case h_4 hpc =>
      obtain ⟨m, hsignal, rfl⟩ := Option.map_eq_some_iff.mp hstep
      rw [hpc] at hplace
      exact agrees_of_pushTask (s := s) rfl rfl ((hagrees.signal hsignal).update_self hplace)
    case h_5 hpc =>
      cases hstep
      rw [hpc] at hplace
      exact agrees_of_pushTask (s := s) rfl rfl (hagrees.unlock hplace)
  | stop =>
    simp only [step, stopStep] at hstep
    split at hstep
    case h_1 =>
      cases hstep
      exact hagrees
    case h_2 =>
      obtain ⟨m, hsignal, rfl⟩ := Option.map_eq_some_iff.mp hstep
      exact hagrees.signal hsignal
    case h_3 => cases hstep

theorem front_step {e : Event ι τ} (h : s.Inv) (hclean : s.Clean e) (hstep : s.step e = some s')
    (hfront : s'.execute = .front) : s'.taskList ≠ [] := by
  cases e with
  | execute =>
    simp only [step, executeStep] at hstep
    split at hstep
    case h_3 hpc =>
      cases hstep
      intro hlist
      have hrunning := hclean.1 hpc hlist
      simp only [hrunning, Bool.and_true, List.isEmpty_iff] at hfront
      rw [if_pos hlist] at hfront
      cases hfront
    case h_1 =>
      cases hstep
      dsimp only at hfront
      split at hfront <;> cases hfront
    case h_2 | h_5 =>
      obtain ⟨m, -, rfl⟩ := Option.map_eq_some_iff.mp hstep
      cases hfront
    case h_4 | h_7 | h_8 =>
      cases hstep
      cases hfront
    case h_6 =>
      split at hstep <;> (cases hstep; cases hfront)
    case h_9 => cases hstep
  | spurious =>
    obtain ⟨m, -, rfl⟩ := Option.map_eq_some_iff.mp hstep
    exact h.front hfront
  | call i task =>
    simp only [step] at hstep
    split at hstep
    · cases hstep
      exact h.front hfront
    · cases hstep
  | pushTask i =>
    simp only [step, pushStep] at hstep
    split at hstep
    case h_1 => cases hstep
    case h_2 | h_4 =>
      obtain ⟨m, -, rfl⟩ := Option.map_eq_some_iff.mp hstep
      exact h.front hfront
    case h_3 =>
      cases hstep
      exact List.append_ne_nil_of_right_ne_nil _ (List.cons_ne_nil _ _)
    case h_5 =>
      cases hstep
      exact h.front hfront
  | stop =>
    simp only [step, stopStep] at hstep
    split at hstep
    case h_1 =>
      cases hstep
      exact h.front hfront
    case h_2 =>
      obtain ⟨m, -, rfl⟩ := Option.map_eq_some_iff.mp hstep
      exact h.front hfront
    case h_3 => cases hstep

theorem SomeSignals.setPush {i : ι} {p : PushTask τ} (h : s.SomeSignals)
    (hpush : s'.pushTask = Function.update s.pushTask i p)
    (hp : (s.pushTask i).signals = true → p.signals = true) : s'.SomeSignals := by
  obtain ⟨j, hj⟩ := h
  refine ⟨j, ?_⟩
  by_cases hji : j = i
  · subst hji
    rw [hpush, Function.update_self]
    exact hp hj
  · rwa [hpush, Function.update_of_ne hji]

theorem wakes_step {e : Event ι τ} (h : s.Inv) (hclean : s.Clean e) (hstep : s.step e = some s')
    (hstop : s'.stop = .returned) (hwaiting : none ∈ s'.threadNotify.waiting) : s'.SomeSignals := by
  cases e with
  | execute =>
    simp only [step, executeStep] at hstep
    split at hstep
    case h_1 | h_3 | h_7 | h_8 =>
      cases hstep
      exact h.wakes hstop hwaiting
    case h_2 =>
      obtain ⟨m, hlock, rfl⟩ := Option.map_eq_some_iff.mp hstep
      obtain ⟨-, rfl⟩ := Monitor.lock_eq_some hlock
      exact h.wakes hstop hwaiting
    case h_4 hpc =>
      cases hstep
      exact hclean.2 hpc hstop
    case h_5 =>
      obtain ⟨m, hresume, rfl⟩ := Option.map_eq_some_iff.mp hstep
      obtain ⟨-, -, rfl⟩ := Monitor.resume_eq_some hresume
      exact h.wakes hstop hwaiting
    case h_6 =>
      split at hstep <;> (cases hstep; exact h.wakes hstop hwaiting)
    case h_9 => cases hstep
  | spurious =>
    obtain ⟨m, hspurious, rfl⟩ := Option.map_eq_some_iff.mp hstep
    obtain ⟨-, rfl⟩ := Monitor.spurious_eq_some hspurious
    exact h.wakes hstop (Monitor.mem_waiting_of_wake hwaiting)
  | call i task =>
    simp only [step] at hstep
    split at hstep
    · next hpc =>
      cases hstep
      exact (h.wakes hstop hwaiting).setPush rfl (fun _ => rfl)
    · cases hstep
  | pushTask i =>
    simp only [step, pushStep] at hstep
    split at hstep
    case h_1 => cases hstep
    case h_2 =>
      obtain ⟨m, hlock, rfl⟩ := Option.map_eq_some_iff.mp hstep
      obtain ⟨-, rfl⟩ := Monitor.lock_eq_some hlock
      exact (h.wakes hstop hwaiting).setPush rfl (fun _ => rfl)
    case h_3 =>
      cases hstep
      exact (h.wakes hstop hwaiting).setPush rfl (fun _ => rfl)
    case h_4 =>
      obtain ⟨m, hsignal, rfl⟩ := Option.map_eq_some_iff.mp hstep
      exact absurd hwaiting (h.agrees.not_mem_of_signal hsignal)
    case h_5 hpc =>
      cases hstep
      refine (h.wakes hstop hwaiting).setPush rfl ?_
      rw [hpc]
      exact id
  | stop =>
    simp only [step, stopStep] at hstep
    split at hstep
    case h_1 =>
      cases hstep
      cases hstop
    case h_2 =>
      obtain ⟨m, hsignal, rfl⟩ := Option.map_eq_some_iff.mp hstep
      exact absurd hwaiting (h.agrees.not_mem_of_signal hsignal)
    case h_3 => cases hstep

omit [DecidableEq ι] in
theorem inv_init : ({} : CImWorkerThread ι τ).Inv where
  agrees := Monitor.Agrees.start fun thread => by cases thread <;> rfl
  front h := by cases h
  wakes h := by cases h

theorem inv_of_reaches (h : Run.Reaches step Clean ({} : CImWorkerThread ι τ) s) : s.Inv := by
  refine h.invariant Inv inv_init ?_
  intro s e s' hinv hclean hstep
  exact ⟨agrees_step hinv hstep, front_step hinv hclean hstep, wakes_step hinv hclean hstep⟩

/-- Tasks are run once and in the order of the pushes, whatever `Stop` does. -/
theorem tasks_of_reaches {good : CImWorkerThread ι τ → Event ι τ → Prop}
    (h : Run.Reaches step good ({} : CImWorkerThread ι τ) s) :
    s.pushed = s.ran ++ s.execute.taken ++ s.taskList := by
  refine h.invariant (fun s => s.pushed = s.ran ++ s.execute.taken ++ s.taskList) rfl ?_
  intro s e s' htasks _ hstep
  exact tasks_step htasks hstep

/-- A worker all of whose turns are clean keeps the protocol. -/
theorem worker_protocol_kept (h : Run.Reaches step Clean ({} : CImWorkerThread ι τ) s) : s.Protocol := by
  have hinv := inv_of_reaches h
  have hplace : s.place none = s.execute.place := rfl
  refine ⟨tasks_of_reaches h, fun hlock => ?_, fun hexit => ?_, hinv.wakes⟩
  · refine hinv.agrees.not_mem_held ?_
    rw [hplace, hlock]
    exact Place.noConfusion
  · refine hinv.agrees.not_mem_held ?_
    rw [hplace, hexit]
    exact Place.noConfusion

/-- And a turn that is not clean is enough for the protocol to be broken. -/
theorem not_worker_protocol_of_not_clean {e : Event ι τ} (h : s.Inv) (hclean : ¬ s.Clean e) :
    ∃ events s', Run.run step s events = some s' ∧ ¬ s'.Protocol := by
  cases e with
  | spurious | call | pushTask | stop => exact absurd trivial hclean
  | execute =>
    obtain htest | hwait := not_and_or.mp hclean
    · -- the worker goes from its test to its end
      push Not at htest
      obtain ⟨hpc, hlist, hrunning⟩ := htest
      have hflag : s.running = false := Bool.eq_false_of_not_eq_true hrunning
      have hheld : s.threadNotify.held = [none] := by
        refine h.agrees.held_eq ?_
        simp [place, hpc, Execute.place]
      refine ⟨[.execute, .execute, .execute], { s with execute := .exit }, ?_, fun hbad => ?_⟩
      · simp [Run.run, step, executeStep, hpc, hlist, hflag]
      · exact hbad.exit rfl (by simp [hheld])
    · push Not at hwait
      obtain ⟨hpc, hstop, hsilent⟩ := hwait
      refine ⟨[.execute],
        { s with threadNotify := s.threadNotify.wait none, execute := .asleep }, ?_, fun hbad => ?_⟩
      · simp [Run.run, step, executeStep, hpc]
      · exact hsilent (hbad.wakes hstop List.mem_cons_self)

instance [Fintype ι] [DecidableEq τ] (s : CImWorkerThread ι τ) : Decidable s.SomeSignals :=
  inferInstanceAs (Decidable (∃ _, _))

instance [Fintype ι] [DecidableEq τ] (s : CImWorkerThread ι τ) : (e : Event ι τ) → Decidable (Clean s e)
  | .execute => inferInstanceAs (Decidable (_ ∧ _))
  | .spurious | .call .. | .pushTask _ | .stop => isTrue trivial

/-- A task is pushed while the worker waits, and `Stop` is called before the worker is up again. -/
def pushAndStop : List (Event (Fin 1) Nat) :=
  [.execute, .execute, .execute, .execute, .call 0 7, .pushTask 0, .pushTask 0, .pushTask 0,
    .pushTask 0, .stop, .stop, .execute, .execute, .execute, .execute, .execute, .execute]

theorem worker_protocol_kept_pushAndStop :
    ((Run.runGood step Clean {} pushAndStop).map fun s => (s.execute, s.ran)) = some (.exit, [7]) ∧
      ∀ s ∈ Run.runGood step Clean {} pushAndStop, s.Protocol :=
  ⟨by decide, fun _ hrun => worker_protocol_kept (Run.reaches_of_runGood hrun)⟩

/-- `Stop` sets the flag while the worker is in front of its last test, and the worker leaves with
the mutex. -/
def stopAtTest : List (Event (Fin 1) Nat) :=
  [.execute, .execute, .stop, .execute, .execute, .execute]

/-- `Stop` is called between the test and the wait, and nobody wakes the worker. -/
def stopBeforeWait : List (Event (Fin 1) Nat) :=
  [.execute, .execute, .execute, .stop, .stop, .execute]

theorem not_worker_protocol_kept :
    (¬ ∀ s : CImWorkerThread (Fin 1) Nat, Reached s → s.execute = .exit → none ∉ s.threadNotify.held) ∧
      ¬ ∀ s : CImWorkerThread (Fin 1) Nat, Reached s →
        s.stop = .returned → none ∈ s.threadNotify.waiting → s.SomeSignals := by
  constructor
  · intro hkept
    obtain ⟨s, hs⟩ := Option.isSome_iff_exists.mp
      (by decide : (Run.runGood step (fun _ _ => True) {} stopAtTest).isSome)
    have hbad : ∀ s ∈ Run.runGood step (fun _ _ => True) {} stopAtTest,
        s.execute = .exit ∧ none ∈ s.threadNotify.held := by decide
    exact hkept s (Run.reaches_of_runGood hs) (hbad s hs).1 (hbad s hs).2
  · intro hkept
    obtain ⟨s, hs⟩ := Option.isSome_iff_exists.mp
      (by decide : (Run.runGood step (fun _ _ => True) {} stopBeforeWait).isSome)
    have hbad : ∀ s ∈ Run.runGood step (fun _ _ => True) {} stopBeforeWait,
        s.stop = .returned ∧ none ∈ s.threadNotify.waiting ∧ ¬ s.SomeSignals := by decide
    obtain ⟨hstop, hwaiting, hsilent⟩ := hbad s hs
    exact hsilent (hkept s (Run.reaches_of_runGood hs) hstop hwaiting)

end CImWorkerThread

end ImServer
