import ImServer.Lib.Run
import Mathlib.Algebra.BigOperators.Group.Finset.Basic
import Mathlib.Algebra.Ring.Int.Defs
import Mathlib.Logic.Relation

/-!
# Threads over shared data

Threads take turns. In its turn a thread does one command on the data that all of them share, and
goes on from where it is. A part of a thread that only looks at the data is a tree of looks.
-/

universe u v w

/-- What each look finds decides how it goes on. -/
inductive Look (σ : Type u) (α : Type v) where
  | done (a : α)
  | look (next : σ → Look σ α)

namespace Look

variable {σ : Type u} {α β : Type v}

def bind (p : Look σ α) (next : α → Look σ β) : Look σ β :=
  match p with
  | done a => next a
  | look rest => look fun s => (rest s).bind next

/-- What comes out if nothing changes in between. -/
def eval : Look σ α → σ → α
  | done a, _ => a
  | look next, s => (next s).eval s

@[simp] theorem eval_done (a : α) (s : σ) : (done a : Look σ α).eval s = a := rfl

@[simp] theorem eval_look (next : σ → Look σ α) (s : σ) : (look next).eval s = (next s).eval s := rfl

@[simp] theorem eval_bind (p : Look σ α) (next : α → Look σ β) (s : σ) :
    (p.bind next).eval s = (next (p.eval s)).eval s := by
  induction p with
  | done a => rfl
  | look rest ih => exact ih s

end Look

/-- The data, and where each thread is. A thread has nothing of its own besides its place. -/
structure Threads (ι : Type u) (σ : Type v) (L : Type w) where
  data : σ
  place : ι → L

namespace Threads

variable {ι : Type u} {σ : Type v} {L : Type w} [DecidableEq ι] {turn : L → σ → Option (L × σ)}
  {t t' : Threads ι σ L} {i : ι}

def step (turn : L → σ → Option (L × σ)) (t : Threads ι σ L) (i : ι) : Option (Threads ι σ L) :=
  (turn (t.place i) t.data).map fun next => ⟨next.2, Function.update t.place i next.1⟩

theorem step_eq_some (h : step turn t i = some t') :
    ∃ l s, turn (t.place i) t.data = some (l, s) ∧ t' = ⟨s, Function.update t.place i l⟩ := by
  obtain ⟨⟨l, s⟩, hturn, rfl⟩ := Option.map_eq_some_iff.mp h
  exact ⟨l, s, hturn, rfl⟩

/-- A sum over all threads after one of them has gone on. -/
theorem sum_update [Fintype ι] (f : L → ℤ) (place : ι → L) (i : ι) (l : L) :
    ∑ j, f (Function.update place i l j) = ∑ j, f (place j) - f (place i) + f l := by
  have hafter : ∑ j, f (Function.update place i l j) =
      f l + ∑ j ∈ Finset.univ.erase i, f (place j) := by
    rw [← Finset.add_sum_erase Finset.univ _ (Finset.mem_univ i), Function.update_self]
    refine congrArg (f l + ·) (Finset.sum_congr rfl fun j hj => ?_)
    rw [Function.update_of_ne (Finset.ne_of_mem_erase hj)]
  have hbefore := Finset.add_sum_erase Finset.univ (fun j => f (place j)) (Finset.mem_univ i)
  omega

/-- The turns of a thread that nothing interrupts. -/
def Alone (turn : L → σ → Option (L × σ)) : L × σ → L × σ → Prop :=
  Relation.ReflTransGen fun a b => turn a.1 a.2 = some b

namespace Alone

variable {a b c : L × σ}

theorem refl : Alone turn a a := Relation.ReflTransGen.refl

theorem trans (h : Alone turn a b) (h' : Alone turn b c) : Alone turn a c :=
  Relation.ReflTransGen.trans h h'

theorem head (h : turn a.1 a.2 = some b) (h' : Alone turn b c) : Alone turn a c :=
  Relation.ReflTransGen.head h h'

end Alone

end Threads
