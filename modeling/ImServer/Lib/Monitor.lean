import Mathlib.Data.List.Nodup
import Mathlib.Logic.Function.Basic

/-!
# Threads at a mutex and a condition variable

A thread that waits gives the mutex up and joins the waiters. A signal wakes one of them, a
broadcast all of them, and a wait may also end by itself. A woken thread goes on as soon as it has
the mutex again. Where each thread is, outside the mutex, inside it or asleep, agrees with the
monitor as long as no thread takes the mutex twice.
-/

/-- The mutex is taken as often as `held` says; those who wait, and those whose wait is over but
who do not have the mutex yet. -/
structure Monitor (ι : Type*) where
  held : List ι := []
  waiting : List ι := []
  woken : List ι := []
  deriving DecidableEq, Repr

namespace Monitor

variable {ι : Type*} [DecidableEq ι]

section Operations

variable (m : Monitor ι)

/-- A free mutex can be taken, and a recursive one also by the thread that has it. -/
def lock (recursive : Bool) (i : ι) : Option (Monitor ι) :=
  if m.held = [] ∨ recursive = true ∧ ∀ j ∈ m.held, j = i then some { m with held := i :: m.held }
  else none

def unlock : Monitor ι := { m with held := m.held.tail }

def wait (i : ι) : Monitor ι := { m.unlock with waiting := i :: m.waiting }

/-- The wait of a thread is over. -/
def wake (i : ι) : Monitor ι := { m with waiting := m.waiting.erase i, woken := i :: m.woken }

/-- A signal wakes one of those who wait, if there are any. -/
def signal (pick : ι) : Option (Monitor ι) :=
  if m.waiting = [] then some m else if pick ∈ m.waiting then some (m.wake pick) else none

def broadcast : Monitor ι := { m with waiting := [], woken := m.waiting ++ m.woken }

/-- A wait that ends without a signal. -/
def spurious (i : ι) : Option (Monitor ι) := if i ∈ m.waiting then some (m.wake i) else none

/-- A woken thread has the mutex again. -/
def resume (i : ι) : Option (Monitor ι) :=
  if m.held = [] ∧ i ∈ m.woken then some { m with held := [i], woken := m.woken.erase i } else none

end Operations

/-- Where a thread is: outside of the monitor, inside, or asleep in it. -/
inductive Place where
  | outside
  | inside
  | asleep
  deriving DecidableEq, Repr

/-- The monitor agrees with where the threads are: one thread at most is inside, and a thread sleeps
until it has been woken and gets in again. -/
structure Agrees (m : Monitor ι) (place : ι → Place) : Prop where
  held : ∀ i, m.held = [i] ↔ place i = .inside
  once : m.held.length ≤ 1
  asleep : ∀ i, i ∈ m.waiting ∨ i ∈ m.woken ↔ place i = .asleep
  nodup : (m.waiting ++ m.woken).Nodup

variable {m m' : Monitor ι} {place : ι → Place} {i j : ι}

theorem lock_eq_some {recursive : Bool} (h : m.lock recursive i = some m') :
    (∀ j ∈ m.held, j = i) ∧ m' = { m with held := i :: m.held } := by
  obtain ⟨hfree, hm'⟩ := Option.ite_none_right_eq_some.mp h
  refine ⟨?_, (Option.some.inj hm').symm⟩
  obtain hnil | ⟨-, hown⟩ := hfree
  · simp [hnil]
  · exact hown

theorem signal_eq_some {pick : ι} (h : m.signal pick = some m') :
    (m.waiting = [] ∧ m' = m) ∨ (pick ∈ m.waiting ∧ m' = m.wake pick) := by
  unfold signal at h
  split at h
  · next hnil => exact .inl ⟨hnil, (Option.some.inj h).symm⟩
  · obtain ⟨hpick, hm'⟩ := Option.ite_none_right_eq_some.mp h
    exact .inr ⟨hpick, (Option.some.inj hm').symm⟩

theorem spurious_eq_some (h : m.spurious i = some m') : i ∈ m.waiting ∧ m' = m.wake i := by
  obtain ⟨hi, hm'⟩ := Option.ite_none_right_eq_some.mp h
  exact ⟨hi, (Option.some.inj hm').symm⟩

theorem mem_waiting_of_wake (hj : j ∈ (m.wake i).waiting) : j ∈ m.waiting :=
  List.mem_of_mem_erase hj

theorem resume_eq_some (h : m.resume i = some m') :
    m.held = [] ∧ i ∈ m.woken ∧ m' = { m with held := [i], woken := m.woken.erase i } := by
  obtain ⟨⟨hheld, hi⟩, hm'⟩ := Option.ite_none_right_eq_some.mp h
  exact ⟨hheld, hi, (Option.some.inj hm').symm⟩

namespace Agrees

omit [DecidableEq ι] in
theorem start (hplace : ∀ i, place i = .outside) : Agrees ({} : Monitor ι) place where
  held i := by simp [hplace]
  once := Nat.zero_le 1
  asleep i := by simp [hplace]
  nodup := List.nodup_nil

omit [DecidableEq ι] in
theorem held_eq (h : Agrees m place) (hi : place i = .inside) : m.held = [i] := (h.held i).mpr hi

omit [DecidableEq ι] in
theorem not_mem_held (h : Agrees m place) (hi : place i ≠ .inside) : i ∉ m.held := by
  intro hmem
  have hlen : m.held.length = 1 := Nat.le_antisymm h.once (List.length_pos_of_mem hmem)
  obtain ⟨j, hj⟩ := List.length_eq_one_iff.mp hlen
  rw [hj, List.mem_singleton] at hmem
  exact hi ((h.held i).mp (hmem ▸ hj))

omit [DecidableEq ι] in
theorem inside_unique (h : Agrees m place) (hi : place i = .inside) (hj : place j = .inside) :
    i = j := by
  have heq : [i] = [j] := (h.held_eq hi).symm.trans (h.held_eq hj)
  exact List.singleton_inj.mp heq

theorem update_self {p : Place} (h : Agrees m place) (hp : place i = p) :
    Agrees m (Function.update place i p) := by
  rwa [Function.update_eq_self_iff.mpr hp.symm]

theorem held_nil_of_lock {recursive : Bool} (h : Agrees m place) (hi : place i = .outside)
    (hlock : m.lock recursive i = some m') : m.held = [] := by
  obtain ⟨hown, -⟩ := lock_eq_some hlock
  match hheld : m.held with
  | [] => rfl
  | j :: rest =>
    have hj : j = i := hown j (by simp [hheld])
    have hrest : rest = [] := by
      have honce := h.once
      rw [hheld, List.length_cons] at honce
      exact List.eq_nil_of_length_eq_zero (by omega)
    have hinside : place i = .inside := (h.held i).mp (by rw [hheld, hrest, hj])
    rw [hi] at hinside
    cases hinside

theorem lock {recursive : Bool} (h : Agrees m place) (hi : place i = .outside)
    (hlock : m.lock recursive i = some m') : Agrees m' (Function.update place i .inside) := by
  have hnil := h.held_nil_of_lock hi hlock
  obtain ⟨-, rfl⟩ := lock_eq_some hlock
  refine ⟨fun j => ?_, ?_, fun j => ?_, h.nodup⟩
  · by_cases hj : j = i
    · simp [hj, hnil]
    · rw [Function.update_of_ne hj, ← h.held j]
      simp [hnil, Ne.symm hj]
  · simp [hnil]
  · by_cases hj : j = i
    · subst hj
      rw [Function.update_self, h.asleep j, hi]
      simp
    · rw [Function.update_of_ne hj]
      exact h.asleep j

theorem unlock (h : Agrees m place) (hi : place i = .inside) :
    Agrees m.unlock (Function.update place i .outside) := by
  have hheld := h.held_eq hi
  refine ⟨fun j => ?_, ?_, fun j => ?_, h.nodup⟩
  · by_cases hj : j = i
    · simp [hj, Monitor.unlock, hheld]
    · rw [Function.update_of_ne hj, ← h.held j]
      simp [Monitor.unlock, hheld, Ne.symm hj]
  · simp [Monitor.unlock, hheld]
  · by_cases hj : j = i
    · subst hj
      rw [Function.update_self]
      exact (h.asleep j).trans (by simp [hi])
    · rw [Function.update_of_ne hj]
      exact h.asleep j

theorem wait (h : Agrees m place) (hi : place i = .inside) :
    Agrees (m.wait i) (Function.update place i .asleep) := by
  have hheld := h.held_eq hi
  have hnot : i ∉ m.waiting ++ m.woken := by
    intro hmem
    have hasleep := (h.asleep i).mp (List.mem_append.mp hmem)
    rw [hi] at hasleep
    cases hasleep
  refine ⟨fun j => ?_, ?_, fun j => ?_, List.nodup_cons.mpr ⟨hnot, h.nodup⟩⟩
  · by_cases hj : j = i
    · simp [hj, Monitor.wait, Monitor.unlock, hheld]
    · rw [Function.update_of_ne hj, ← h.held j]
      simp [Monitor.wait, Monitor.unlock, hheld, Ne.symm hj]
  · simp [Monitor.wait, Monitor.unlock, hheld]
  · by_cases hj : j = i
    · simp [hj, Monitor.wait]
    · rw [Function.update_of_ne hj, ← h.asleep j]
      simp [Monitor.wait, Monitor.unlock, hj]

theorem wake (h : Agrees m place) (hi : i ∈ m.waiting) : Agrees (m.wake i) place := by
  have hperm : (m.waiting.erase i ++ i :: m.woken).Perm (m.waiting ++ m.woken) :=
    List.perm_middle.trans (((List.perm_cons_erase hi).symm).append_right m.woken)
  refine ⟨h.held, h.once, fun j => ?_, hperm.nodup_iff.mpr h.nodup⟩
  rw [← h.asleep j, ← List.mem_append, ← List.mem_append]
  exact hperm.mem_iff

theorem signal {pick : ι} (h : Agrees m place) (hsignal : m.signal pick = some m') :
    Agrees m' place := by
  obtain ⟨-, rfl⟩ | ⟨hpick, rfl⟩ := signal_eq_some hsignal
  · exact h
  · exact h.wake hpick

theorem not_mem_of_signal (h : Agrees m place) (hsignal : m.signal i = some m') :
    i ∉ m'.waiting := by
  obtain ⟨hnil, rfl⟩ | ⟨-, rfl⟩ := signal_eq_some hsignal
  · simp [hnil]
  · exact h.nodup.of_append_left.not_mem_erase

omit [DecidableEq ι] in
theorem broadcast (h : Agrees m place) : Agrees m.broadcast place where
  held := h.held
  once := h.once
  asleep i := by
    rw [← h.asleep i]
    simp [Monitor.broadcast]
  nodup := h.nodup

theorem resume (h : Agrees m place) (hresume : m.resume i = some m') :
    Agrees m' (Function.update place i .inside) := by
  obtain ⟨hheld, hi, rfl⟩ := resume_eq_some hresume
  have hwoken : m.woken.Nodup := h.nodup.of_append_right
  have hnot : i ∉ m.waiting := fun hmem => List.disjoint_of_nodup_append h.nodup hmem hi
  refine ⟨fun j => ?_, Nat.le_refl 1, fun j => ?_, h.nodup.sublist ?_⟩
  · by_cases hj : j = i
    · simp [hj]
    · rw [Function.update_of_ne hj, ← h.held j]
      simp [hheld, Ne.symm hj]
  · by_cases hj : j = i
    · simp [hj, hnot, hwoken.mem_erase_iff]
    · rw [Function.update_of_ne hj, ← h.asleep j]
      simp [hwoken.mem_erase_iff, hj]
  · exact List.Sublist.append_left List.erase_sublist m.waiting

end Agrees

end Monitor
