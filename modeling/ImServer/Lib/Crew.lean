import ImServer.Lib.Run
import Mathlib.Logic.Function.Basic

/-!
# A queue and those who work it off

Tasks are added to a queue, and each of some workers takes one from its front, is busy with it for
a while and finishes it. Tasks are taken in the order in which they were added; a worker who is
alone also finishes them in that order.
-/

universe u v

structure Crew (ω : Type u) (τ : Type v) where
  queue : List τ := []
  running : ω → Option τ := fun _ => none
  -- what has happened so far
  added : List τ := []
  taken : List τ := []
  finished : List τ := []

namespace Crew

variable {ω : Type u} {τ : Type v} [DecidableEq ω]

inductive Event (ω : Type u) (τ : Type v) where
  | add (task : τ)
  | take (w : ω)
  | finish (w : ω)

def step (c : Crew ω τ) : Event ω τ → Option (Crew ω τ)
  | .add task => some { c with queue := c.queue ++ [task], added := c.added ++ [task] }
  | .take w =>
    match c.running w, c.queue with
    | none, task :: rest =>
      some { c with queue := rest, taken := c.taken ++ [task],
                    running := Function.update c.running w (some task) }
    | _, _ => none
  | .finish w =>
    match c.running w with
    | some task =>
      some { c with finished := c.finished ++ [task], running := Function.update c.running w none }
    | none => none

variable {c c' : Crew ω τ} {w : ω} {task : τ}

theorem take_of_eq (task : τ) (rest : List τ) (hw : c.running w = none)
    (hqueue : c.queue = task :: rest) :
    c.step (.take w) = some { c with queue := rest, taken := c.taken ++ [task],
                                     running := Function.update c.running w (some task) } := by
  simp [step, hw, hqueue]

theorem finish_of_eq (task : τ) (hw : c.running w = some task) :
    c.step (.finish w) = some { c with finished := c.finished ++ [task],
                                       running := Function.update c.running w none } := by
  simp [step, hw]

theorem take_eq_some (h : c.step (.take w) = some c') :
    c.running w = none ∧ ∃ task rest, c.queue = task :: rest ∧
      c' = { c with queue := rest, taken := c.taken ++ [task],
                    running := Function.update c.running w (some task) } := by
  simp only [step] at h
  split at h
  · next task rest hw hqueue => exact ⟨hw, task, rest, hqueue, (Option.some.inj h).symm⟩
  · cases h

theorem finish_eq_some (h : c.step (.finish w) = some c') :
    ∃ task, c.running w = some task ∧
      c' = { c with
        finished := c.finished ++ [task], running := Function.update c.running w none } := by
  simp only [step] at h
  split at h
  · next task hw => exact ⟨task, hw, (Option.some.inj h).symm⟩
  · cases h

theorem added_of_finish (h : c.step (.finish w) = some c') : c'.added = c.added := by
  obtain ⟨task, -, rfl⟩ := finish_eq_some h
  rfl

theorem added_of_take (h : c.step (.take w) = some c') : c'.added = c.added := by
  obtain ⟨-, task, rest, -, rfl⟩ := take_eq_some h
  rfl

theorem finished_subset {e : Event ω τ} (h : c.step e = some c') : c.finished ⊆ c'.finished := by
  cases e with
  | add task =>
    cases h
    exact List.Subset.refl _
  | take w =>
    obtain ⟨-, task, rest, -, rfl⟩ := take_eq_some h
    exact List.Subset.refl _
  | finish w =>
    obtain ⟨task, -, rfl⟩ := finish_eq_some h
    exact List.subset_append_left _ _

/-- Tasks are taken in the order in which they were added, and those that are left are in the
queue. -/
def InOrder (c : Crew ω τ) : Prop := c.added = c.taken ++ c.queue

theorem InOrder.step {e : Event ω τ} (h : c.InOrder) (hstep : c.step e = some c') : c'.InOrder := by
  unfold InOrder at h ⊢
  cases e with
  | add task =>
    cases hstep
    simp [h]
  | take w =>
    obtain ⟨-, task, rest, hqueue, rfl⟩ := take_eq_some hstep
    simp [h, hqueue]
  | finish w =>
    obtain ⟨task, -, rfl⟩ := finish_eq_some hstep
    exact h

section Lone

variable {c c' : Crew Unit τ}

/-- The worker has finished what it has taken, up to the task it is busy with. -/
structure Lone (c : Crew Unit τ) : Prop where
  added : c.InOrder
  taken : c.taken = c.finished ++ (c.running ()).toList

theorem Lone.start : Lone ({} : Crew Unit τ) := ⟨rfl, rfl⟩

theorem Lone.step {e : Event Unit τ} (h : c.Lone) (hstep : c.step e = some c') : c'.Lone := by
  refine ⟨h.added.step hstep, ?_⟩
  have htaken := h.taken
  cases e with
  | add task =>
    cases hstep
    exact htaken
  | take w =>
    obtain ⟨hw, task, rest, -, rfl⟩ := take_eq_some hstep
    rw [hw] at htaken
    simp [htaken]
  | finish w =>
    obtain ⟨task, hw, rfl⟩ := finish_eq_some hstep
    rw [hw] at htaken
    simp [htaken]

/-- What was added before a task that was taken has been finished. -/
theorem Lone.finished_of_lt (h : c.Lone) {number : τ → Nat} {a b : τ}
    (hsorted : (c.added.map number).Pairwise (· < ·)) (ha : a ∈ c.added) (hb : b ∈ c.taken)
    (hlt : number a < number b) : a ∈ c.finished := by
  have hbefore : ∀ front back, c.added = front ++ back → b ∈ front → a ∉ back := by
    intro front back hsplit hfront hback
    rw [hsplit, List.map_append, List.pairwise_append] at hsorted
    have hba := hsorted.2.2 _ (List.mem_map_of_mem hfront) _ (List.mem_map_of_mem hback)
    omega
  have hqueue : a ∉ c.queue := hbefore _ _ h.added hb
  rw [h.added, List.mem_append, or_iff_left hqueue, h.taken, List.mem_append] at ha
  refine ha.resolve_right fun hrunning => ?_
  obtain hdone | hrunning' := List.mem_append.mp (h.taken ▸ hb)
  · refine hbefore c.finished ((c.running ()).toList ++ c.queue) ?_ hdone ?_
    · rw [← List.append_assoc, ← h.taken, h.added]
    · exact List.mem_append_left _ hrunning
  · rw [Option.mem_toList] at hrunning hrunning'
    rw [Option.some.inj (hrunning.symm.trans hrunning')] at hlt
    exact Nat.lt_irrefl _ hlt

end Lone

end Crew
