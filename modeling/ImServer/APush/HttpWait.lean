import ImServer.APush.HttpClient
import ImServer.Lib.Monitor
import Mathlib.Data.Fintype.Basic

/-!
# The condition that the sender of the Android push waits on

The same loop of a `CHttpClient` (apush/http_client.cpp) with each lock, unlock, wait and
notification as a step of its own. `getHttpData` looks at the queue under the mutex and gives it up;
a thread that found nothing takes the mutex once more and waits, without another look. A request
that is put in between is noticed only when the next one comes.
-/

namespace ImServer

open Monitor (Place)

/-- Where the thread is in `httpStart`. The mutex is taken in `getHttpData`, for the wait, and in
`addHttpData` for each request that is put in again. -/
inductive HttpThread (ρ : Type) where
  | lock
  | pop
  | unlock (req : Option ρ)
  | lockWait
  | wait
  | asleep
  | unlockWait
  | send (full : Bool)
  | check (full : Bool) (i : ℕ)
  | lockAgain (full : Bool) (i : ℕ) (req : ρ)
  | pushAgain (full : Bool) (i : ℕ) (req : ρ)
  | notifyAgain (full : Bool) (i : ℕ)
  | unlockAgain (full : Bool) (i : ℕ)
  deriving DecidableEq, Repr

/-- Where a caller is in `addHttpData`. -/
inductive AddHttpData (ρ : Type) where
  | idle
  | lock (req : ρ)
  | push (req : ρ)
  | notify
  | unlock
  deriving DecidableEq, Repr

def HttpThread.place {ρ : Type} : HttpThread ρ → Place
  | .pop | .unlock _ | .wait | .unlockWait | .pushAgain .. | .notifyAgain .. | .unlockAgain .. => .inside
  | .asleep => .asleep
  | .lock | .lockWait | .send _ | .check .. | .lockAgain .. => .outside

def AddHttpData.place {ρ : Type} : AddHttpData ρ → Place
  | .push _ | .notify | .unlock => .inside
  | .idle | .lock _ => .outside

/-- The call is still going to notify. Before that the thread may sleep although the queue is not
empty. -/
def AddHttpData.notifies {ρ : Type} : AddHttpData ρ → Bool
  | .lock _ | .push _ | .notify => true
  | .idle | .unlock => false

/-- The thread and the calls of `addHttpData` at one mutex, where the thread is `none` and each call
has its own name. -/
structure HttpThreads (ι ρ : Type) extends HttpBatch ρ where
  mtxReq : Monitor (Option ι) := {}
  thread : HttpThread ρ := .lock
  callers : ι → AddHttpData ρ := fun _ => .idle

namespace HttpThreads

variable {ι ρ : Type}

inductive Event (ι ρ : Type) where
  | run (handle : Bool) (answers : ρ → HttpReply)
  | call (i : ι) (req : ρ)
  | add (i : ι)
  | spurious

section Steps

variable [DecidableEq ι] [DecidableEq ρ] (s : HttpThreads ι ρ)

def withMutex (m : Option (Monitor (Option ι))) (thread : HttpThread ρ) : Option (HttpThreads ι ρ) :=
  m.map fun m => { s with mtxReq := m, thread := thread }

def runStep (handle : Bool) (answers : ρ → HttpReply) : Option (HttpThreads ι ρ) :=
  match s.thread with
  | .lock => s.withMutex (s.mtxReq.lock false none) .pop
  | .pop => some { s with httpReqList := s.httpReqList.tail, thread := .unlock s.httpReqList.head? }
  | .unlock none =>
    some { s with
      mtxReq := s.mtxReq.unlock
      thread := if s.nCount = 0 then .lockWait else .send false }
  | .unlock (some req) =>
    let added := s.addMultiCurl req handle
    some { s with
      toHttpBatch := added
      mtxReq := s.mtxReq.unlock
      thread := if curlMultiNum ≤ added.nCount then .send true else .lock }
  | .lockWait => s.withMutex (s.mtxReq.lock false none) .wait
  | .wait => some { s with mtxReq := s.mtxReq.wait none, thread := .asleep }
  | .asleep => s.withMutex (s.mtxReq.resume none) .unlockWait
  | .unlockWait => some { s with mtxReq := s.mtxReq.unlock, thread := .lock }
  | .send full => some { s with toHttpBatch := s.sendMultiData answers, thread := .check full 0 }
  | .check full i =>
    if i < s.nCount then
      match s.reqDataCach[i]? with
      | some req =>
        some { s with
          thread := if s.again full i req then .lockAgain full i req else .check full (i + 1) }
      | none => none
    else some { s with toHttpBatch := s.clear, thread := .lock }
  | .lockAgain full i req => s.withMutex (s.mtxReq.lock false none) (.pushAgain full i req)
  | .pushAgain full i req =>
    some { s with toHttpBatch := s.addHttpData req, thread := .notifyAgain full i }
  | .notifyAgain full i => some { s with mtxReq := s.mtxReq.broadcast, thread := .unlockAgain full i }
  | .unlockAgain full i => some { s with mtxReq := s.mtxReq.unlock, thread := .check full (i + 1) }

def setCaller (i : ι) (place : AddHttpData ρ) : HttpThreads ι ρ :=
  { s with callers := Function.update s.callers i place }

def addStep (i : ι) : Option (HttpThreads ι ρ) :=
  match s.callers i with
  | .idle => none
  | .lock req =>
    (s.mtxReq.lock false (some i)).map fun m => { s with mtxReq := m }.setCaller i (.push req)
  | .push req => some ({ s with toHttpBatch := s.addHttpData req }.setCaller i .notify)
  | .notify => some ({ s with mtxReq := s.mtxReq.broadcast }.setCaller i .unlock)
  | .unlock => some ({ s with mtxReq := s.mtxReq.unlock }.setCaller i .idle)

def step : Event ι ρ → Option (HttpThreads ι ρ)
  | .run handle answers => s.runStep handle answers
  | .call i req =>
    match s.callers i with
    | .idle => some (s.setCaller i (.lock req))
    | _ => none
  | .add i => s.addStep i
  | .spurious => (s.mtxReq.spurious none).map fun m => { s with mtxReq := m }

end Steps

/-- A notification is still to come, from a call that has put its request into the queue or is about
to. -/
def SomeNotifies (s : HttpThreads ι ρ) : Prop := ∃ i, (s.callers i).notifies = true

/-- The thread does not wait beside a request, unless somebody is going to notify it. -/
def NoneLies (s : HttpThreads ι ρ) : Prop :=
  none ∈ s.mtxReq.waiting → s.httpReqList ≠ [] → s.SomeNotifies

/-- The thread begins its wait with an empty queue, or while somebody is going to notify it. -/
def Good (s : HttpThreads ι ρ) : Event ι ρ → Prop
  | .run .. => s.thread = .wait → s.httpReqList ≠ [] → s.SomeNotifies
  | .call .. | .add _ | .spurious => True

def placeOf (s : HttpThreads ι ρ) : Option ι → Place
  | none => s.thread.place
  | some i => (s.callers i).place

structure Inv (s : HttpThreads ι ρ) : Prop where
  agrees : s.mtxReq.Agrees s.placeOf
  noneLies : s.NoneLies

variable {s s' : HttpThreads ι ρ}

/-- A thread that is up hears all notifications, since it looks at the queue before it waits
again. -/
theorem inv_of_awake (hagrees : s.mtxReq.Agrees s.placeOf) (hthread : s.thread.place ≠ .asleep) :
    s.Inv :=
  ⟨hagrees, fun hwaiting => absurd ((hagrees.asleep none).mp (.inl hwaiting)) hthread⟩

section Runs

variable [DecidableEq ι]

omit [DecidableEq ι] in
theorem inv_start : ({} : HttpThreads ι ρ).Inv :=
  inv_of_awake (Monitor.Agrees.start fun t => by cases t <;> rfl) Place.noConfusion

theorem placeOf_thread {b : HttpBatch ρ} {m : Monitor (Option ι)} {thread : HttpThread ρ} :
    ({ s with toHttpBatch := b, mtxReq := m, thread := thread } : HttpThreads ι ρ).placeOf =
      Function.update (s.placeOf : Option ι → Place) none thread.place := by
  funext t
  cases t with
  | none =>
    rw [Function.update_self]
    rfl
  | some i =>
    rw [Function.update_of_ne (Option.some_ne_none i)]
    rfl

theorem agrees_thread {b : HttpBatch ρ} {m : Monitor (Option ι)} {thread : HttpThread ρ}
    (h : m.Agrees (Function.update s.placeOf none thread.place)) :
    m.Agrees ({ s with toHttpBatch := b, mtxReq := m, thread := thread } : HttpThreads ι ρ).placeOf := by
  rw [placeOf_thread]
  exact h

theorem inv_of_thread {b : HttpBatch ρ} {m : Monitor (Option ι)} {thread : HttpThread ρ} {place : Place}
    (h : m.Agrees (Function.update s.placeOf none place)) (hplace : thread.place = place)
    (hawake : place ≠ .asleep) :
    ({ s with toHttpBatch := b, mtxReq := m, thread := thread } : HttpThreads ι ρ).Inv := by
  subst hplace
  exact inv_of_awake (agrees_thread h) hawake

theorem placeOf_caller {b : HttpBatch ρ} {m : Monitor (Option ι)} {i : ι} {place : AddHttpData ρ} :
    ({ s with toHttpBatch := b, mtxReq := m }.setCaller i place : HttpThreads ι ρ).placeOf =
      Function.update (s.placeOf : Option ι → Place) (some i) place.place := by
  funext t
  by_cases ht : t = some i
  · subst ht
    rw [Function.update_self]
    simp only [placeOf, setCaller, Function.update_self]
  · rw [Function.update_of_ne ht]
    cases t with
    | none => rfl
    | some j =>
      have hj : j ≠ i := fun heq => ht (congrArg some heq)
      simp only [placeOf, setCaller, Function.update_of_ne hj]

theorem agrees_caller {b : HttpBatch ρ} {m : Monitor (Option ι)} {i : ι} {place : AddHttpData ρ}
    (h : m.Agrees (Function.update s.placeOf (some i) place.place)) :
    m.Agrees ({ s with toHttpBatch := b, mtxReq := m }.setCaller i place : HttpThreads ι ρ).placeOf := by
  rw [placeOf_caller]
  exact h

theorem SomeNotifies.setCaller {i : ι} {place : AddHttpData ρ} {b : HttpBatch ρ}
    {m : Monitor (Option ι)}
    (h : s.SomeNotifies) (hquiet : (s.callers i).notifies = true → place.notifies = true) :
    ({ s with toHttpBatch := b, mtxReq := m }.setCaller i place : HttpThreads ι ρ).SomeNotifies := by
  obtain ⟨j, hj⟩ := h
  refine ⟨j, ?_⟩
  by_cases hji : j = i
  · subst hji
    simp only [HttpThreads.setCaller, Function.update_self]
    exact hquiet hj
  · simp only [HttpThreads.setCaller, Function.update_of_ne hji]
    exact hj

variable [DecidableEq ρ]

theorem Inv.run {handle : Bool} {f : ρ → HttpReply} (h : s.Inv) (hgood : s.Good (.run handle f))
    (hstep : s.runStep handle f = some s') : s'.Inv := by
  have hagrees := h.agrees
  have hnone : s.placeOf none = s.thread.place := rfl
  cases hthread : s.thread with
  | lock | lockWait | lockAgain full i req =>
    rw [hthread] at hnone
    simp only [runStep, hthread] at hstep
    obtain ⟨m, hlock, rfl⟩ := Option.map_eq_some_iff.mp hstep
    exact inv_of_thread (hagrees.lock hnone hlock) rfl Place.noConfusion
  | pop | send full | pushAgain full i req =>
    rw [hthread] at hnone
    simp only [runStep, hthread] at hstep
    cases hstep
    exact inv_of_thread (hagrees.update_self hnone) rfl Place.noConfusion
  | unlock req =>
    rw [hthread] at hnone
    cases req with
    | none =>
      simp only [runStep, hthread] at hstep
      cases hstep
      have hplace : (if s.nCount = 0 then HttpThread.lockWait else .send false : HttpThread ρ).place =
          .outside := by split <;> rfl
      exact inv_of_thread (hagrees.unlock hnone) hplace Place.noConfusion
    | some req =>
      simp only [runStep, hthread] at hstep
      cases hstep
      have hplace : (if curlMultiNum ≤ (s.addMultiCurl req handle).nCount then HttpThread.send true
          else .lock : HttpThread ρ).place = .outside := by split <;> rfl
      exact inv_of_thread (hagrees.unlock hnone) hplace Place.noConfusion
  | unlockWait | unlockAgain full i =>
    rw [hthread] at hnone
    simp only [runStep, hthread] at hstep
    cases hstep
    exact inv_of_thread (hagrees.unlock hnone) rfl Place.noConfusion
  | wait =>
    rw [hthread] at hnone
    simp only [runStep, hthread] at hstep
    cases hstep
    exact ⟨agrees_thread (hagrees.wait hnone), fun _ => hgood hthread⟩
  | asleep =>
    simp only [runStep, hthread] at hstep
    obtain ⟨m, hresume, rfl⟩ := Option.map_eq_some_iff.mp hstep
    exact inv_of_thread (hagrees.resume hresume) rfl Place.noConfusion
  | check full i =>
    rw [hthread] at hnone
    simp only [runStep, hthread] at hstep
    split at hstep
    · split at hstep
      · next req _ =>
        cases hstep
        have hplace : (if s.again full i req then HttpThread.lockAgain full i req
            else .check full (i + 1)).place = .outside := by split <;> rfl
        exact inv_of_thread (hagrees.update_self hnone) hplace Place.noConfusion
      · cases hstep
    · cases hstep
      exact inv_of_thread (hagrees.update_self hnone) rfl Place.noConfusion
  | notifyAgain full i =>
    rw [hthread] at hnone
    simp only [runStep, hthread] at hstep
    cases hstep
    exact inv_of_thread (hagrees.broadcast.update_self hnone) rfl Place.noConfusion

theorem Inv.add {i : ι} (h : s.Inv) (hstep : s.addStep i = some s') : s'.Inv := by
  have hagrees := h.agrees
  have hcaller : s.placeOf (some i) = (s.callers i).place := rfl
  cases hplace : s.callers i with
  | idle =>
    simp only [addStep, hplace] at hstep
    cases hstep
  | lock req =>
    rw [hplace] at hcaller
    simp only [addStep, hplace] at hstep
    obtain ⟨m, hlock, rfl⟩ := Option.map_eq_some_iff.mp hstep
    refine ⟨agrees_caller (hagrees.lock hcaller hlock), fun hwaiting hqueue => ?_⟩
    obtain ⟨-, rfl⟩ := Monitor.lock_eq_some hlock
    exact (h.noneLies hwaiting hqueue).setCaller fun _ => rfl
  | push req =>
    rw [hplace] at hcaller
    simp only [addStep, hplace] at hstep
    cases hstep
    refine ⟨agrees_caller (hagrees.update_self hcaller), fun _ _ => ⟨i, ?_⟩⟩
    simp only [setCaller, Function.update_self]
    rfl
  | notify =>
    rw [hplace] at hcaller
    simp only [addStep, hplace] at hstep
    cases hstep
    exact ⟨agrees_caller (hagrees.broadcast.update_self hcaller),
      fun hwaiting => absurd hwaiting List.not_mem_nil⟩
  | unlock =>
    rw [hplace] at hcaller
    simp only [addStep, hplace] at hstep
    cases hstep
    refine ⟨agrees_caller (hagrees.unlock hcaller), fun hwaiting hqueue => ?_⟩
    refine (h.noneLies hwaiting hqueue).setCaller fun hnotifies => ?_
    rw [hplace] at hnotifies
    cases hnotifies

theorem Inv.step {e : Event ι ρ} (h : s.Inv) (hgood : s.Good e)
    (hstep : s.step e = some s') : s'.Inv := by
  cases e with
  | run handle f => exact h.run hgood hstep
  | call i req =>
    simp only [HttpThreads.step] at hstep
    split at hstep
    · next hplace =>
      cases hstep
      have hcaller : s.placeOf (some i) = (s.callers i).place := rfl
      rw [hplace] at hcaller
      refine ⟨agrees_caller (h.agrees.update_self hcaller), fun hwaiting hqueue => ?_⟩
      exact (h.noneLies hwaiting hqueue).setCaller fun _ => rfl
    · cases hstep
  | add i => exact h.add hstep
  | spurious =>
    obtain ⟨m, hspurious, rfl⟩ := Option.map_eq_some_iff.mp hstep
    obtain ⟨hwaiting, rfl⟩ := Monitor.spurious_eq_some hspurious
    exact ⟨h.agrees.wake hwaiting, fun hmem => h.noneLies (Monitor.mem_waiting_of_wake hmem)⟩

/-- No request lies in the queue as long as each wait begins well, and a wait that does not begin
well leaves one there. -/
theorem none_lies :
    (∀ s : HttpThreads ι ρ, Run.Reaches step Good {} s → s.NoneLies) ∧
    ∀ (s s' : HttpThreads ι ρ) (e : Event ι ρ), s.step e = some s' → ¬ s.Good e → ¬ s'.NoneLies := by
  refine ⟨fun s h => ?_, fun s s' e hstep hbad hlies => ?_⟩
  · have hinv : s.Inv := h.invariant Inv inv_start fun _ _ _ hinv hgood hstep => hinv.step hgood hstep
    exact hinv.noneLies
  · cases e with
    | run handle f =>
      refine hbad fun hthread hqueue => ?_
      simp only [HttpThreads.step, runStep, hthread] at hstep
      cases hstep
      exact hlies List.mem_cons_self hqueue
    | call i req | add i | spurious => exact hbad trivial

end Runs

instance someNotifiesDecidable [Fintype ι] (s : HttpThreads ι ρ) : Decidable s.SomeNotifies :=
  inferInstanceAs (Decidable (∃ i, (s.callers i).notifies = true))

/-- A request is put in after the thread has found the queue empty and before it waits. -/
def putBeforeWait : List (Event Unit ℕ) :=
  List.replicate 3 (.run true fun _ => []) ++ .call () 7 :: List.replicate 4 (.add ()) ++
    List.replicate 2 (.run true fun _ => [])

theorem not_none_lies : ∃ s : HttpThreads Unit ℕ, Run.run step {} putBeforeWait = some s ∧
    none ∈ s.mtxReq.waiting ∧ s.httpReqList = [7] ∧ ¬ s.SomeNotifies :=
  ⟨_, rfl, by decide⟩

end HttpThreads

end ImServer
