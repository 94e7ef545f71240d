import ImServer.Lib.Monitor
import ImServer.Lib.Run
import Mathlib.Data.Fintype.Basic

/-!
# The sender of push requests

A `CPostDataSender` (ipush/postDataSender.cpp) posts the requests that other threads put into its
queue. The queue has a lock of its own, so that each of its operations is one step; the mutex of the
condition is taken by the sender only. `PostData` pushes and signals without it, and `StopThread`
clears the flag without any signal.

A request that is pushed between the tests of the sender and its wait is not noticed, and neither
is the cleared flag by a sender that waits. A sender that finds the queue empty and the flag down
goes on with the mutex.
-/

namespace ImServer

open Monitor (Place)

/-- Where the sender is in `OnThreadRun`. -/
inductive OnThreadRun (τ : Type) where
  | start
  | loopFlag
  | loopSize
  | lock
  | testSize
  | testFlag
  | wait
  | asleep
  | front
  | pop
  | unlock (data : τ)
  | post (data : τ)
  | exit
  deriving DecidableEq, Repr

/-- Where a thread is in `PostData`. -/
inductive PostData (τ : Type) where
  | idle
  | flag (data : τ)
  | push (data : τ)
  | signal
  deriving DecidableEq, Repr

/-- How far the call of `StopThread` is. -/
inductive StopThread where
  | idle
  | notRunning
  | clear
  | join
  | returned
  deriving DecidableEq, Repr

def OnThreadRun.place {τ : Type} : OnThreadRun τ → Place
  | .testSize | .testFlag | .wait | .front | .pop | .unlock _ => .inside
  | .asleep => .asleep
  | .start | .loopFlag | .loopSize | .lock | .post _ | .exit => .outside

/-- The request that the sender has taken and not posted yet. -/
def OnThreadRun.taken {τ : Type} : OnThreadRun τ → List τ
  | .unlock data | .post data => [data]
  | _ => []

/-- The call is still going to signal. -/
def PostData.signals {τ : Type} : PostData τ → Bool
  | .push _ | .signal => true
  | .idle | .flag _ => false

def StopThread.cleared : StopThread → Bool
  | .join | .returned => true
  | .idle | .notRunning | .clear => false

/-- The thread has been created. The constructor leaves the flag as the memory is. -/
structure CPostDataSender (ι τ : Type) where
  running : Bool
  maxQueueSize : Nat := 0x7ffffffe
  packStreamQueue : List τ := []
  threadNotify : Monitor Unit := {}
  onThreadRun : OnThreadRun τ := .start
  postData : ι → PostData τ := fun _ => .idle
  stopThread : StopThread := .idle
  -- what has happened so far
  pushed : List τ := []
  posted : List τ := []

namespace CPostDataSender

variable {ι τ : Type}

inductive Event (ι τ : Type) where
  | run
  | spurious
  | call (i : ι) (data : τ)
  | postData (i : ι)
  | stopThread

section Steps

variable [DecidableEq ι] (s : CPostDataSender ι τ)

/-- The mutex is held from `lock` to `unlock`, and also when the sender goes back to its loop
without a request. -/
def runStep : Option (CPostDataSender ι τ) :=
  match s.onThreadRun with
  | .start => some { s with running := true, onThreadRun := .loopFlag }
  | .loopFlag => some { s with onThreadRun := if s.running then .lock else .loopSize }
  | .loopSize => some { s with onThreadRun := if s.packStreamQueue.isEmpty then .exit else .lock }
  | .lock =>
    (s.threadNotify.lock true ()).map fun m => { s with threadNotify := m, onThreadRun := .testSize }
  | .testSize => some { s with onThreadRun := if s.packStreamQueue.isEmpty then .testFlag else .front }
  | .testFlag => some { s with onThreadRun := if s.running then .wait else .front }
  | .wait => some { s with threadNotify := s.threadNotify.wait (), onThreadRun := .asleep }
  | .asleep =>
    (s.threadNotify.resume ()).map fun m => { s with threadNotify := m, onThreadRun := .testSize }
  | .front => some { s with onThreadRun := if s.packStreamQueue.isEmpty then .loopFlag else .pop }
  | .pop =>
    match s.packStreamQueue with
    -- nobody else takes requests
    | [] => none
    | data :: rest => some { s with packStreamQueue := rest, onThreadRun := .unlock data }
  | .unlock data => some { s with threadNotify := s.threadNotify.unlock, onThreadRun := .post data }
  | .post data => some { s with posted := s.posted ++ [data], onThreadRun := .loopFlag }
  | .exit => none

def setPost (i : ι) (place : PostData τ) : CPostDataSender ι τ :=
  { s with postData := Function.update s.postData i place }

/-- A full queue takes nothing, and there is a signal all the same. -/
def postStep (i : ι) : Option (CPostDataSender ι τ) :=
  match s.postData i with
  | .idle => none
  | .flag data => some (s.setPost i (if s.running then .push data else .idle))
  | .push data =>
    if s.packStreamQueue.length < s.maxQueueSize then
      some ({ s with
        packStreamQueue := s.packStreamQueue ++ [data]
        pushed := s.pushed ++ [data] }.setPost i .signal)
    else some (s.setPost i .signal)
  | .signal => (s.threadNotify.signal ()).map fun m => { s with threadNotify := m }.setPost i .idle

/-- `StopThread` waits for the end of the sender. -/
def stopStep : Option (CPostDataSender ι τ) :=
  match s.stopThread with
  | .idle => some { s with stopThread := if s.running then .clear else .notRunning }
  | .clear => some { s with running := false, stopThread := .join }
  | .join => if s.onThreadRun matches .exit then some { s with stopThread := .returned } else none
  | .notRunning | .returned => none

def step : Event ι τ → Option (CPostDataSender ι τ)
  | .run => s.runStep
  | .spurious => (s.threadNotify.spurious ()).map fun m => { s with threadNotify := m }
  | .call i data =>
    match s.postData i with
    | .idle => some (s.setPost i (.flag data))
    | _ => none
  | .postData i => s.postStep i
  | .stopThread => s.stopStep

end Steps

/-- Somebody is about to signal, so that a sender that sleeps will be woken. -/
def SomeSignals (s : CPostDataSender ι τ) : Prop := ∃ i, (s.postData i).signals = true

/-- What the sender and its callers rely on: requests are posted once and in the order of the
pushes, the mutex is not taken twice and is free when the sender has left, and the sender does not
wait beside a request or a cleared flag unless somebody is about to signal. -/
structure Protocol (s : CPostDataSender ι τ) : Prop where
  order : s.pushed = s.posted ++ s.onThreadRun.taken ++ s.packStreamQueue
  relock : s.onThreadRun = .lock → () ∉ s.threadNotify.held
  exit : s.onThreadRun = .exit → () ∉ s.threadNotify.held
  wakes : () ∈ s.threadNotify.waiting → s.packStreamQueue ≠ [] → s.SomeSignals
  stops : () ∈ s.threadNotify.waiting → s.stopThread.cleared = true → s.SomeSignals

/-- The sender starts before the flag is cleared, begins a wait with an empty queue and the flag up,
and finds a request when it looks for the last time; the flag is cleared while it does not wait. A
signal that is still to come makes up for a wait. -/
def Clean (s : CPostDataSender ι τ) : Event ι τ → Prop
  | .run =>
    (s.onThreadRun = .wait →
      s.packStreamQueue ≠ [] ∨ s.stopThread.cleared = true → s.SomeSignals) ∧
    (s.onThreadRun = .front → s.packStreamQueue ≠ [])
  | .stopThread => s.stopThread = .clear → () ∈ s.threadNotify.waiting → s.SomeSignals
  | _ => True

variable {s s' : CPostDataSender ι τ}

/-- Holds in runs whose turns are all clean: what was pushed is posted in order, and a sender that
sleeps in vain is woken. -/
structure Inv (s : CPostDataSender ι τ) : Prop where
  order : s.pushed = s.posted ++ s.onThreadRun.taken ++ s.packStreamQueue
  agrees : s.threadNotify.Agrees fun _ => s.onThreadRun.place
  wakes : () ∈ s.threadNotify.waiting →
    s.packStreamQueue ≠ [] ∨ s.stopThread.cleared = true → s.SomeSignals

theorem agrees_of_update {m : Monitor Unit} {p p' : Place}
    (h : m.Agrees (Function.update (fun _ => p) () p')) : m.Agrees fun _ => p' := by
  have heq : Function.update (fun _ : Unit => p) () p' = fun _ => p' :=
    funext fun _ => Function.update_self _ _ _
  rwa [heq] at h

theorem inv_of_awake (horder : s.pushed = s.posted ++ s.onThreadRun.taken ++ s.packStreamQueue)
    (hagrees : s.threadNotify.Agrees fun _ => s.onThreadRun.place)
    (hplace : s.onThreadRun.place ≠ .asleep) : s.Inv :=
  ⟨horder, hagrees, fun hwaiting => absurd ((hagrees.asleep ()).mp (.inl hwaiting)) hplace⟩

theorem Inv.protocol (h : s.Inv) : s.Protocol where
  order := h.order
  relock hlock := h.agrees.not_mem_held (by rw [hlock]; exact Place.noConfusion)
  exit hexit := h.agrees.not_mem_held (by rw [hexit]; exact Place.noConfusion)
  wakes hwaiting hqueue := h.wakes hwaiting (.inl hqueue)
  stops hwaiting hcleared := h.wakes hwaiting (.inr hcleared)

/-- The thread has been created, and the flag has some value, since the constructor does not set
it. -/
def start (running : Bool) : CPostDataSender ι τ := { running := running }

theorem inv_start (running : Bool) : (start running : CPostDataSender ι τ).Inv :=
  inv_of_awake rfl (Monitor.Agrees.start fun _ => rfl) Place.noConfusion

theorem Inv.run (h : s.Inv) (hclean : s.Clean .run) (hstep : s.runStep = some s') : s'.Inv := by
  obtain ⟨horder, hagrees, -⟩ := h
  cases hpc : s.onThreadRun with
  | start | post data =>
    simp only [runStep, hpc] at hstep
    rw [hpc] at horder hagrees
    cases hstep
    refine inv_of_awake ?_ hagrees Place.noConfusion
    simpa [OnThreadRun.taken] using horder
  | loopFlag | loopSize | testSize | testFlag =>
    simp only [runStep, hpc] at hstep
    rw [hpc] at horder hagrees
    split at hstep
    all_goals
      cases hstep
      exact inv_of_awake horder hagrees Place.noConfusion
  | lock =>
    simp only [runStep, hpc] at hstep
    rw [hpc] at horder hagrees
    obtain ⟨m, hlock, rfl⟩ := Option.map_eq_some_iff.mp hstep
    exact inv_of_awake horder (agrees_of_update (hagrees.lock rfl hlock)) Place.noConfusion
  | wait =>
    simp only [runStep, hpc] at hstep
    rw [hpc] at horder hagrees
    cases hstep
    exact ⟨horder, agrees_of_update (hagrees.wait rfl), fun _ => hclean.1 hpc⟩
  | asleep =>
    simp only [runStep, hpc] at hstep
    rw [hpc] at horder hagrees
    obtain ⟨m, hresume, rfl⟩ := Option.map_eq_some_iff.mp hstep
    exact inv_of_awake horder (agrees_of_update (hagrees.resume hresume)) Place.noConfusion
  | front =>
    have hqueue := hclean.2 hpc
    simp only [runStep, hpc, List.isEmpty_iff, hqueue, if_false] at hstep
    rw [hpc] at horder hagrees
    cases hstep
    exact inv_of_awake horder hagrees Place.noConfusion
  | pop =>
    simp only [runStep, hpc] at hstep
    rw [hpc] at horder hagrees
    split at hstep
    · cases hstep
    · next data rest hqueue =>
      cases hstep
      rw [hqueue] at horder
      refine inv_of_awake ?_ hagrees Place.noConfusion
      simpa [OnThreadRun.taken] using horder
  | unlock data =>
    simp only [runStep, hpc] at hstep
    rw [hpc] at horder hagrees
    cases hstep
    exact inv_of_awake horder (agrees_of_update (hagrees.unlock rfl)) Place.noConfusion
  | exit =>
    simp only [runStep, hpc] at hstep
    cases hstep

section Runs

variable [DecidableEq ι]

theorem someSignals_setPost {i : ι} {p : PostData τ} (h : p.signals = true) :
    (s.setPost i p).SomeSignals :=
  ⟨i, by simp only [setPost, Function.update_self, h]⟩

/-- The call of a thread that has not begun to signal does not count. -/
theorem SomeSignals.setPost {i : ι} (h : s.SomeSignals) (hquiet : (s.postData i).signals = false)
    (p : PostData τ) : (s.setPost i p).SomeSignals := by
  obtain ⟨j, hj⟩ := h
  have hji : j ≠ i := by
    rintro rfl
    rw [hquiet] at hj
    cases hj
  exact ⟨j, by simp only [CPostDataSender.setPost, Function.update_of_ne hji, hj]⟩

theorem Inv.post {i : ι} (h : s.Inv) (hstep : s.postStep i = some s') : s'.Inv := by
  cases hpc : s.postData i with
  | idle =>
    simp only [postStep, hpc] at hstep
    cases hstep
  | flag data =>
    simp only [postStep, hpc] at hstep
    cases hstep
    exact ⟨h.order, h.agrees,
      fun hwaiting hdue => (h.wakes hwaiting hdue).setPost (by rw [hpc]; rfl) _⟩
  | push data =>
    simp only [postStep, hpc] at hstep
    split at hstep
    · cases hstep
      refine ⟨?_, h.agrees, fun _ _ => someSignals_setPost rfl⟩
      simp [CPostDataSender.setPost, h.order]
    · cases hstep
      exact ⟨h.order, h.agrees, fun _ _ => someSignals_setPost rfl⟩
  | signal =>
    simp only [postStep, hpc] at hstep
    obtain ⟨m, hsignal, rfl⟩ := Option.map_eq_some_iff.mp hstep
    exact ⟨h.order, h.agrees.signal hsignal,
      fun hwaiting => absurd hwaiting (h.agrees.not_mem_of_signal hsignal)⟩

theorem Inv.step {e : Event ι τ} (h : s.Inv) (hclean : s.Clean e) (hstep : s.step e = some s') :
    s'.Inv := by
  cases e with
  | run => exact h.run hclean hstep
  | spurious =>
    obtain ⟨m, hspurious, rfl⟩ := Option.map_eq_some_iff.mp hstep
    obtain ⟨hwaiting, rfl⟩ := Monitor.spurious_eq_some hspurious
    exact ⟨h.order, h.agrees.wake hwaiting, fun hmem => h.wakes (Monitor.mem_waiting_of_wake hmem)⟩
  | call i data =>
    simp only [CPostDataSender.step] at hstep
    split at hstep
    · next hpc =>
      cases hstep
      exact ⟨h.order, h.agrees,
        fun hwaiting hdue => (h.wakes hwaiting hdue).setPost (by rw [hpc]; rfl) _⟩
    · cases hstep
  | postData i => exact h.post hstep
  | stopThread =>
    cases hpc : s.stopThread with
    | idle =>
      simp only [CPostDataSender.step, stopStep, hpc] at hstep
      have hwakes := h.wakes
      rw [hpc] at hwakes
      split at hstep
      all_goals
        cases hstep
        exact ⟨h.order, h.agrees, hwakes⟩
    | clear =>
      simp only [CPostDataSender.step, stopStep, hpc] at hstep
      cases hstep
      exact ⟨h.order, h.agrees, fun hwaiting _ => hclean hpc hwaiting⟩
    | join =>
      simp only [CPostDataSender.step, stopStep, hpc] at hstep
      have hwakes := h.wakes
      rw [hpc] at hwakes
      split at hstep
      · cases hstep
        exact ⟨h.order, h.agrees, hwakes⟩
      · cases hstep
    | notRunning | returned =>
      simp only [CPostDataSender.step, stopStep, hpc] at hstep
      cases hstep

/-- A sender all of whose turns are clean keeps the protocol. -/
theorem sender_protocol_kept (running : Bool) (h : Run.Reaches step Clean (start running) s) :
    s.Protocol := by
  have hinv : s.Inv := h.invariant Inv (inv_start running)
    fun _ _ _ h hclean hstep => h.step hclean hstep
  exact hinv.protocol

end Runs

instance [Fintype ι] (s : CPostDataSender ι τ) : Decidable s.SomeSignals :=
  inferInstanceAs (Decidable (∃ i, (s.postData i).signals = true))

instance [Fintype ι] [DecidableEq τ] (s : CPostDataSender ι τ) : (e : Event ι τ) → Decidable (s.Clean e)
  | .run => inferInstanceAs (Decidable ((_ → _) ∧ (_ → s.packStreamQueue ≠ [])))
  | .stopThread => inferInstanceAs (Decidable (_ → () ∈ s.threadNotify.waiting → _))
  | .spurious | .call .. | .postData _ => .isTrue trivial

/-- A request is pushed, and the flag is cleared while it is posted. -/
def postAndStop : List (Event Unit Nat) :=
  [.run, .call () 7, .postData (), .postData (), .postData (), .run, .run, .run, .run, .run, .run,
    .stopThread, .stopThread, .run, .run, .run, .stopThread]

theorem sender_protocol_kept_postAndStop :
    ((Run.runGood step Clean (start false) postAndStop).map fun s => (s.stopThread, s.posted)) =
        some (.returned, [7]) ∧
      ∀ s ∈ Run.runGood step Clean (start false) postAndStop, s.Protocol :=
  ⟨by decide, fun _ hrun => sender_protocol_kept false (Run.reaches_of_runGood hrun)⟩

/-- A request is pushed between the tests and the wait. -/
def pushBeforeWait : List (Event Unit Nat) :=
  [.run, .run, .run, .run, .run, .call () 7, .postData (), .postData (), .postData (), .run]

/-- The flag is cleared while the sender waits. -/
def stopWaiting : List (Event Unit Nat) :=
  [.run, .run, .run, .run, .run, .run, .stopThread, .stopThread]

/-- The flag is cleared between the tests, and the sender leaves with the mutex. -/
def stopAtTest : List (Event Unit Nat) :=
  [.run, .run, .run, .run, .stopThread, .stopThread, .run, .run, .run, .run]

theorem not_sender_protocol_kept :
    (∃ s, Run.run step (start false) pushBeforeWait = some s ∧ () ∈ s.threadNotify.waiting ∧
      s.packStreamQueue = [7] ∧ ¬ s.SomeSignals) ∧
    (∃ s, Run.run step (start false) stopWaiting = some s ∧ () ∈ s.threadNotify.waiting ∧
      s.stopThread = .join ∧ ¬ s.SomeSignals) ∧
    (∃ s, Run.run step (start false) stopAtTest = some s ∧ s.onThreadRun = .exit ∧
      () ∈ s.threadNotify.held) :=
  ⟨⟨_, rfl, by decide⟩, ⟨_, rfl, by decide⟩, ⟨_, rfl, by decide⟩⟩

end CPostDataSender

end ImServer
