import ImServer.Lib.Run
import Mathlib.Logic.Function.Basic

/-!
# Programs whose commands interleave

A program does one command after another. A command changes the state that all programs share
at once, and the state it finds decides how its program goes on. Several programs run side by
side, and a schedule says whose turn it is.
-/

universe u v w

inductive Prog (σ : Type u) (α : Type v) where
  | done (a : α)
  | cmd (write : σ → σ) (next : σ → Prog σ α)

namespace Prog

variable {σ : Type u} {α β : Type v}

/-- The result of a program that nothing interrupts, and the state after it. -/
def alone : Prog σ α → σ → α × σ
  | done a, s => (a, s)
  | cmd write next, s => (next s).alone (write s)

/-- A command that only looks. -/
def read {γ : Type w} (get : σ → γ) (next : γ → Prog σ α) : Prog σ α := cmd id fun s => next (get s)

/-- A command that only writes. -/
def modify (write : σ → σ) (next : Prog σ α) : Prog σ α := cmd write fun _ => next

/-- Writes one after another. -/
def writes : List (σ → σ) → Prog σ α → Prog σ α
  | [], p => p
  | write :: rest, p => modify write (writes rest p)

def bind (p : Prog σ α) (next : α → Prog σ β) : Prog σ β :=
  match p with
  | done a => next a
  | cmd write rest => cmd write fun s => (rest s).bind next

def result : Prog σ α → Option α
  | done a => some a
  | cmd .. => none

@[simp] theorem alone_done (a : α) (s : σ) : (done a : Prog σ α).alone s = (a, s) := rfl

@[simp] theorem alone_read {γ : Type w} (get : σ → γ) (next : γ → Prog σ α) (s : σ) :
    (read get next).alone s = (next (get s)).alone s := rfl

@[simp] theorem alone_modify (write : σ → σ) (p : Prog σ α) (s : σ) :
    (modify write p).alone s = p.alone (write s) := rfl

theorem alone_writes (fs : List (σ → σ)) (p : Prog σ α) (s : σ) :
    (writes fs p).alone s = p.alone (fs.foldl (fun s f => f s) s) := by
  induction fs generalizing s with
  | nil => rfl
  | cons f fs ih => exact ih (f s)

theorem alone_bind (p : Prog σ α) (next : α → Prog σ β) (s : σ) :
    (p.bind next).alone s = (next (p.alone s).1).alone (p.alone s).2 := by
  induction p generalizing s with
  | done a => rfl
  | cmd write rest ih => exact ih s (write s)

theorem result_eq_some {p : Prog σ α} {a : α} : p.result = some a ↔ p = done a := by
  cases p with
  | done a' => simp [result]
  | cmd write next => simp [result]

variable {ι : Type w}

structure Pool (ι : Type w) (σ : Type u) (α : Type v) where
  state : σ
  progs : ι → Prog σ α

namespace Pool

variable [DecidableEq ι] {p p' : Pool ι σ α} {i : ι}

/-- A turn of one program, which does its next command on the state that the others have left. -/
def step (p : Pool ι σ α) (i : ι) : Option (Pool ι σ α) :=
  match p.progs i with
  | done _ => none
  | cmd write next => some ⟨write p.state, Function.update p.progs i (next p.state)⟩

def Finished (p : Pool ι σ α) : Prop := ∀ i, ∃ a, p.progs i = done a

theorem step_of_eq_cmd {write : σ → σ} {next : σ → Prog σ α} (h : p.progs i = cmd write next) :
    p.step i = some ⟨write p.state, Function.update p.progs i (next p.state)⟩ := by
  simp only [step, h]

theorem step_eq_some (h : p.step i = some p') :
    ∃ write next, p.progs i = cmd write next ∧
      p' = ⟨write p.state, Function.update p.progs i (next p.state)⟩ := by
  cases hprog : p.progs i with
  | done a => simp [step, hprog] at h
  | cmd write next =>
    rw [step_of_eq_cmd hprog] at h
    exact ⟨write, next, rfl, (Option.some.inj h).symm⟩

end Pool

end Prog
