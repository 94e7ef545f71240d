import Mathlib.Data.List.TakeWhile
import Mathlib.Logic.Function.Iterate

/-!
# Two parties that take turns

A schedule says whose turn it is. One party does the same in each of its turns; the other
one goes through a list of actions and has nothing more to do when it is exhausted. The
actions of the list cut the turns of the first party into segments.
-/

namespace Turns

variable {σ : Type*} {f : σ → σ} {acts : List (σ → σ)} {g : σ → σ}

inductive Party where
  | first
  | second
  deriving DecidableEq, Repr

abbrev Schedule := List Party

/-- The state after a schedule. -/
def interleave (f : σ → σ) : List (σ → σ) → Schedule → σ → σ
  | _, [], x => x
  | acts, .first :: sched, x => interleave f acts sched (f x)
  | [], .second :: sched, x => interleave f [] sched x
  | g :: acts, .second :: sched, x => interleave f acts sched (g x)

/-- The turns of the first party before the second one has its first. -/
def leading (sched : Schedule) : Nat := (sched.takeWhile (· = .first)).length

/-- What follows the first turn of the second party, when the first one may already be under way. -/
def behind (sched : Schedule) : Schedule := (sched.dropWhile (· = .first)).tail

@[simp] theorem leading_first (sched : Schedule) : leading (.first :: sched) = leading sched + 1 :=
  rfl

@[simp] theorem behind_first (sched : Schedule) : behind (.first :: sched) = behind sched := rfl

theorem mem_of_mem_behind {turn : Party} {sched : Schedule} (h : turn ∈ behind sched) : turn ∈ sched :=
  (List.dropWhile_sublist _).subset (List.mem_of_mem_tail h)

theorem mem_of_mem_behind_iterate {turn : Party} {n : Nat} {sched : Schedule}
    (h : turn ∈ behind^[n] sched) : turn ∈ sched := by
  induction n generalizing sched with
  | zero => exact h
  | succ n ih => exact mem_of_mem_behind (ih h)

theorem count_behind {sched : Schedule} (h : .second ∈ sched) :
    sched.count .second = (behind sched).count .second + 1 := by
  induction sched with
  | nil => cases h
  | cons turn sched ih =>
    cases turn with
    | second => exact List.count_cons_self
    | first =>
      rw [List.count_cons_of_ne Party.noConfusion, behind_first]
      exact ih ((List.mem_cons.mp h).resolve_left Party.noConfusion)

/-- The first party has the turns up to the first action, and then the rest goes on. -/
theorem interleave_cons {sched : Schedule} (h : .second ∈ sched) (x : σ) :
    interleave f (g :: acts) sched x = interleave f acts (behind sched) (g (f^[leading sched] x)) := by
  induction sched generalizing x with
  | nil => cases h
  | cons turn sched ih =>
    cases turn with
    | second => rfl
    | first =>
      rw [interleave, ih ((List.mem_cons.mp h).resolve_left Party.noConfusion) (f x),
        leading_first, behind_first, Function.iterate_succ_apply]

theorem interleave_id (hacts : ∀ g ∈ acts, g = id) (sched : Schedule) (x : σ) :
    interleave f acts sched x = f^[sched.count .first] x := by
  induction sched generalizing acts x with
  | nil => cases acts <;> rfl
  | cons turn sched ih =>
    match turn, acts with
    | .first, acts =>
      rw [interleave, ih hacts, List.count_cons_self, Function.iterate_succ_apply]
    | .second, [] => exact ih hacts x
    | .second, g :: acts =>
      rw [interleave, hacts g List.mem_cons_self]
      exact ih (fun g hg => hacts g (List.mem_cons_of_mem _ hg)) x

end Turns
