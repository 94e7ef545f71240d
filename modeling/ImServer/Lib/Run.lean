import Mathlib.Data.List.Induction

/-!
# Guarded runs of a step function

A system takes events one after another; an event that cannot happen in a state
has no successor. `good` restricts the events that the environment may choose.
A property that holds initially and survives every good event holds in every
state that good runs reach.
-/

namespace Run

universe u v

variable {σ : Type u} {ε : Type v} {step : σ → ε → Option σ} {good : σ → ε → Prop} {init s s' : σ}

/-- States reached from `init` by good events. An event that the step function refuses reaches
nothing. -/
inductive Reaches (step : σ → ε → Option σ) (good : σ → ε → Prop) (init : σ) : σ → Prop where
  | refl : Reaches step good init init
  | next {s s' : σ} {e : ε} :
      Reaches step good init s → good s e → step s e = some s' → Reaches step good init s'

theorem Reaches.invariant (inv : σ → Prop) (hinit : inv init)
    (hstep : ∀ s e s', inv s → good s e → step s e = some s' → inv s')
    (h : Reaches step good init s) : inv s := by
  induction h with
  | refl => exact hinit
  | next _ hgood hs ih => exact hstep _ _ _ ih hgood hs

/-- All events of a run from `init`, without any guard. -/
def run (step : σ → ε → Option σ) (init : σ) (events : List ε) : Option σ :=
  events.foldlM step init

theorem run_cons {e : ε} {events : List ε} :
    run step init (e :: events) = some s' ↔
      ∃ s, step init e = some s ∧ run step s events = some s' := by
  simp only [run, List.foldlM_cons, Option.bind_eq_bind, Option.bind_eq_some_iff]

/-- The invariant rule for a loop over the members of a list. -/
theorem run_invariant {events : List ε} (inv : σ → Prop) (hinit : inv init)
    (hstep : ∀ s s', ∀ e ∈ events, inv s → step s e = some s' → inv s')
    (h : run step init events = some s) : inv s := by
  induction events generalizing init with
  | nil =>
    cases h
    exact hinit
  | cons e events ih =>
    obtain ⟨s₁, hs₁, hrest⟩ := run_cons.mp h
    have hinv : inv s₁ := hstep init s₁ e List.mem_cons_self hinit hs₁
    exact ih hinv (fun s s' e he => hstep s s' e (List.mem_cons_of_mem _ he)) hrest

/-- What the body of a loop achieves for the member it is at, and keeps for the others, holds
for all members in the end. -/
theorem run_establishes {events : List ε} (inv : σ → Prop) (post : ε → σ → Prop) (hinit : inv init)
    (hstep : ∀ s s', ∀ e ∈ events, inv s → step s e = some s' → inv s' ∧ post e s')
    (hkeep : ∀ s s', ∀ e ∈ events, ∀ e', inv s → post e' s → step s e = some s' → post e' s')
    (h : run step init events = some s) : ∀ e ∈ events, post e s := by
  induction events generalizing init with
  | nil => exact fun e he => absurd he List.not_mem_nil
  | cons e events ih =>
    obtain ⟨s₁, hs₁, hrest⟩ := run_cons.mp h
    obtain ⟨hinv, hpost⟩ := hstep init s₁ e List.mem_cons_self hinit hs₁
    have hstep' := fun s s' e he => hstep s s' e (List.mem_cons_of_mem _ he)
    have hkeep' := fun s s' e he => hkeep s s' e (List.mem_cons_of_mem _ he)
    rintro e' (_ | ⟨_, he'⟩)
    · refine (run_invariant (fun s => inv s ∧ post e s) ⟨hinv, hpost⟩ ?_ hrest).2
      intro s s' e' he' hs hs'
      exact ⟨(hstep' s s' e' he' hs.1 hs').1, hkeep' s s' e' he' e hs.1 hs.2 hs'⟩
    · exact ih hinv hstep' hkeep' hrest e' he'

theorem run_append {before after : List ε} :
    run step init (before ++ after) = some s' ↔
      ∃ s, run step init before = some s ∧ run step s after = some s' := by
  simp only [run, List.foldlM_append, Option.bind_eq_bind, Option.bind_eq_some_iff]

/-- What no turn of a loop changes is as it was before the loop. -/
theorem foldl_keeps {β : Type*} {body : σ → ε → σ} (get : σ → β) {events : List ε}
    (hkeep : ∀ s, ∀ e ∈ events, get (body s e) = get s) (s : σ) :
    get (events.foldl body s) = get s := by
  induction events generalizing s with
  | nil => rfl
  | cons e events ih =>
    rw [List.foldl_cons, ih fun s e he => hkeep s e (List.mem_cons_of_mem _ he)]
    exact hkeep s e List.mem_cons_self

/-- What some turns of a loop set to `v` and the others do not change is `v` in the end, if
there is such a turn. -/
theorem foldl_sets {β : Type*} {body : σ → ε → σ} (get : σ → β) {v : β} (sets : ε → Prop)
    [DecidablePred sets] {events : List ε}
    (hset : ∀ s, ∀ e ∈ events, sets e → get (body s e) = v)
    (hkeep : ∀ s, ∀ e ∈ events, ¬ sets e → get (body s e) = get s)
    {e : ε} (he : e ∈ events) (hsets : sets e) (s : σ) : get (events.foldl body s) = v := by
  induction events generalizing s e with
  | nil => cases he
  | cons e₀ events ih =>
    have hset' := fun s e he => hset s e (List.mem_cons_of_mem _ he)
    have hkeep' := fun s e he => hkeep s e (List.mem_cons_of_mem _ he)
    rw [List.foldl_cons]
    by_cases hlater : ∃ e ∈ events, sets e
    · obtain ⟨e', he', hsets'⟩ := hlater
      exact ih hset' hkeep' he' hsets' _
    · have hnone : ∀ e ∈ events, ¬ sets e := fun e he hs => hlater ⟨e, he, hs⟩
      rw [foldl_keeps get fun s e he => hkeep' s e he (hnone e he)]
      obtain rfl | he := List.mem_cons.mp he
      · exact hset s e List.mem_cons_self hsets
      · exact absurd hsets (hnone e he)

/-- If the good events are those that keep the property, it holds at all times of a run
exactly when each event of the run is good at its time. -/
theorem foldl_inv_iff {body : σ → ε → σ} {good : σ → ε → Prop} (inv : σ → Prop) (hinit : inv init)
    (hstep : ∀ s e, inv s → (inv (body s e) ↔ good s e)) (events : List ε) :
    (∀ pre, pre <+: events → inv (pre.foldl body init)) ↔
      ∀ pre e, pre ++ [e] <+: events → good (pre.foldl body init) e := by
  constructor
  · intro hinv pre e hpre
    have hbefore := hinv pre ((List.prefix_append pre [e]).trans hpre)
    have hafter := hinv (pre ++ [e]) hpre
    rw [List.foldl_append] at hafter
    exact (hstep _ e hbefore).mp hafter
  · intro hgood pre
    induction pre using List.reverseRecOn with
    | nil => exact fun _ => hinit
    | append_singleton pre e ih =>
      intro hpre
      rw [List.foldl_append]
      exact (hstep _ e (ih ((List.prefix_append pre [e]).trans hpre))).mpr (hgood pre e hpre)

/-- All events of a run, as long as each of them is good. -/
def runGood (step : σ → ε → Option σ) (good : σ → ε → Prop) [∀ s e, Decidable (good s e)] (init : σ)
    (events : List ε) : Option σ :=
  run (fun s e => if good s e then step s e else none) init events

theorem run_of_runGood [∀ s e, Decidable (good s e)] {events : List ε}
    (h : runGood step good init events = some s) : run step init events = some s := by
  induction events generalizing init with
  | nil => exact h
  | cons e events ih =>
    obtain ⟨s₁, hstep, hrest⟩ := run_cons.mp h
    exact run_cons.mpr ⟨s₁, (Option.ite_none_right_eq_some.mp hstep).2, ih hrest⟩

/-- A good run that was computed ends in a reachable state. -/
theorem reaches_of_runGood [∀ s e, Decidable (good s e)] {events : List ε}
    (h : runGood step good init events = some s) : Reaches step good init s := by
  suffices hall : ∀ s₀, Reaches step good init s₀ →
      runGood step good s₀ events = some s → Reaches step good init s from hall init .refl h
  clear h
  induction events with
  | nil =>
    intro s₀ hreach h
    cases h
    exact hreach
  | cons e events ih =>
    intro s₀ hreach h
    obtain ⟨s₁, hstep, hrest⟩ := run_cons.mp h
    obtain ⟨hgood, hstep⟩ := Option.ite_none_right_eq_some.mp hstep
    exact ih s₁ (.next hreach hgood hstep) hrest

end Run
