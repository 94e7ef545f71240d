import ImServer.Lib.Prog
import ImServer.Lib.Turns

/-!
# A program that adds and a program that withdraws

One program adds something to a state, by writes that each leave some of it there; the other
one looks a few times and then withdraws it with one write. What is left in the end is what the
withdrawal does not reach, and whatever was added after it.
-/

namespace Prog

variable {σ α : Type*}

/-- All writes of a program, whatever it finds. -/
def All (P : (σ → σ) → Prop) : Prog σ α → Prop
  | done _ => True
  | cmd write next => P write ∧ ∀ s, (next s).All P

theorem All.mono {P Q : (σ → σ) → Prop} {p : Prog σ α} (h : p.All P) (hmono : ∀ w, P w → Q w) :
    p.All Q := by
  induction p with
  | done a => trivial
  | cmd write next ih => exact ⟨hmono write h.1, fun s => ih s (h.2 s)⟩

theorem all_of_forall {P : (σ → σ) → Prop} (hall : ∀ w, P w) (p : Prog σ α) : p.All P := by
  induction p with
  | done a => trivial
  | cmd write next ih => exact ⟨hall write, ih⟩

/-- All results of a program, whatever it finds. -/
def Ends (P : α → Prop) : Prog σ α → Prop
  | done a => P a
  | cmd _ next => ∀ s, (next s).Ends P

namespace Pool

variable {p p' : Pool Turns.Party σ α} {sched : Turns.Schedule}

theorem not_mem_of_done {i : Turns.Party} {a : α} (h : p.progs i = done a)
    (hrun : Run.run step p sched = some p') : i ∉ sched := by
  induction sched generalizing p with
  | nil => exact List.not_mem_nil
  | cons turn sched ih =>
    obtain ⟨p₁, hstep, hrest⟩ := Run.run_cons.mp hrun
    obtain ⟨write, next, hcmd, rfl⟩ := step_eq_some hstep
    have hne : i ≠ turn := by
      rintro rfl
      rw [h] at hcmd
      cases hcmd
    refine List.not_mem_cons_of_ne_of_not_mem hne (ih ?_ hrest)
    exact (Function.update_of_ne hne ..).trans h

theorem mem_of_not_done {i : Turns.Party} (h : ∀ a, p.progs i ≠ done a)
    (hrun : Run.run step p sched = some p') (hfinished : p'.Finished) : i ∈ sched := by
  induction sched generalizing p with
  | nil =>
    cases hrun
    obtain ⟨a, ha⟩ := hfinished i
    exact absurd ha (h a)
  | cons turn sched ih =>
    obtain ⟨p₁, hstep, hrest⟩ := Run.run_cons.mp hrun
    obtain ⟨write, next, -, rfl⟩ := step_eq_some hstep
    by_cases hturn : i = turn
    · exact hturn ▸ List.mem_cons_self
    · refine List.mem_cons_of_mem _ (ih (fun a => ?_) hrest)
      exact ne_of_eq_of_ne (Function.update_of_ne hturn ..) (h a)

theorem ends_of_run {P : α → Prop} {i : Turns.Party} (h : (p.progs i).Ends P)
    (hrun : Run.run step p sched = some p') : (p'.progs i).Ends P := by
  induction sched generalizing p with
  | nil =>
    cases hrun
    exact h
  | cons turn sched ih =>
    obtain ⟨p₁, hstep, hrest⟩ := Run.run_cons.mp hrun
    obtain ⟨write, next, hcmd, rfl⟩ := step_eq_some hstep
    refine ih ?_ hrest
    by_cases hturn : i = turn
    · subst hturn
      rw [hcmd] at h
      simpa using h p.state
    · simpa [Function.update_of_ne hturn] using h

end Pool

end Prog

namespace Withdraw

open Prog Turns

variable {σ α : Type*}

/-- The writes that add, those of them that reach beyond the withdrawal, and the withdrawal. -/
structure Rules (waits out : σ → Prop) (beyond withdraw : (σ → σ) → Prop) (fs : List (σ → σ)) :
    Prop where
  waits_add : ∀ f ∈ fs, ∀ s, waits (f s)
  out_add : ∀ f ∈ fs, ∀ s, out (f s) ↔ out s ∨ beyond f
  waits_withdraw : ∀ w, withdraw w → ∀ s, waits (w s) ↔ out s

/-- A write that neither adds nor withdraws, in whatever state it is done. -/
def Quiet (waits out : σ → Prop) (w : σ → σ) : Prop :=
  ∀ s, (waits (w s) ↔ waits s) ∧ (out (w s) ↔ out s)

/-- After quiet commands the program does the writes. The first of these commands may rely on what
the other program keeps. -/
inductive Leads (quiet : (σ → σ) → Prop) (fs : List (σ → σ)) : (σ → Prop) → Prog σ α → Prop
  | writes {rely : σ → Prop} (a : α) : Leads quiet fs rely (writes fs (done a))
  | quiet {rely : σ → Prop} {w : σ → σ} {next : σ → Prog σ α} :
      quiet w → (∀ s, rely s → Leads quiet fs (fun _ => True) (next s)) →
      Leads quiet fs rely (cmd w next)

/-- A program that withdraws after a number of looks. -/
inductive Withdraws (quiet withdraw : (σ → σ) → Prop) : Nat → Prog σ α → Prop
  | withdraw {w : σ → σ} {next : σ → Prog σ α} :
      withdraw w → (∀ s, (next s).All quiet) → Withdraws quiet withdraw 0 (cmd w next)
  | look {n : Nat} {next : σ → Prog σ α} :
      (∀ s, Withdraws quiet withdraw n (next s)) → Withdraws quiet withdraw (n + 1) (cmd id next)

/-- The writes of a program keep what the other one relies on. -/
def Keeps (rely : σ → Prop) (p : Prog σ α) : Prop := p.All fun w => ∀ s, rely s → rely (w s)

theorem keeps_true (p : Prog σ α) : Keeps (fun _ => True) p := all_of_forall (fun _ _ _ => trivial) p

theorem Leads.cases_on_next {quiet : (σ → σ) → Prop} {fs : List (σ → σ)} {rely : σ → Prop}
    {p : Prog σ α} (h : Leads quiet fs rely p) :
    (fs = [] ∧ ∃ a, p = done a) ∨
      (∃ f rest a, fs = f :: rest ∧ p = cmd f fun _ => Prog.writes rest (done a)) ∨
      ∃ w next, p = cmd w next ∧ quiet w ∧ ∀ s, rely s → Leads quiet fs (fun _ => True) (next s) := by
  cases h with
  | writes a =>
    cases fs with
    | nil => exact .inl ⟨rfl, a, rfl⟩
    | cons f rest => exact .inr (.inl ⟨f, rest, a, rfl, rfl⟩)
  | quiet hw hnext => exact .inr (.inr ⟨_, _, rfl, hw, hnext⟩)

theorem Leads.ne_done {quiet : (σ → σ) → Prop} {fs : List (σ → σ)} {rely : σ → Prop} {p : Prog σ α}
    (h : Leads quiet fs rely p) (hfs : fs ≠ []) (a : α) : p ≠ done a := by
  rintro rfl
  obtain ⟨hnil, -⟩ | ⟨f, rest, b, -, hcmd⟩ | ⟨w, next, hcmd, -⟩ := h.cases_on_next
  · exact hfs hnil
  · cases hcmd
  · cases hcmd

section Waits

variable {waits out rely : σ → Prop} {beyond withdraw : (σ → σ) → Prop}
  {fs : List (σ → σ)} {p p' : Pool Party σ α} {sched : Schedule}

/-- What the first program still adds after the withdrawal is left. -/
theorem waits_iff_behind (hadd : ∀ f ∈ fs, ∀ s, waits (f s))
    (hfirst : Leads (Quiet waits out) fs rely (p.progs .first)) (hrely : rely p.state)
    (hsecond : (p.progs .second).All (Quiet waits out)) (hkeeps : Keeps rely (p.progs .second))
    (hrun : Run.run Pool.step p sched = some p') (hfinished : p'.Finished) :
    waits p'.state ↔ waits p.state ∨ fs ≠ [] := by
  induction sched generalizing p fs rely with
  | nil =>
    cases hrun
    obtain ⟨a, ha⟩ := hfinished .first
    have hfs : fs = [] := by
      by_contra hne
      exact hfirst.ne_done hne a ha
    simp [hfs]
  | cons turn sched ih =>
    obtain ⟨p₁, hstep, hrest⟩ := Run.run_cons.mp hrun
    obtain ⟨write, next, hcmd, rfl⟩ := Pool.step_eq_some hstep
    cases turn with
    | first =>
      rw [hcmd] at hfirst
      obtain ⟨-, a, hdone⟩ | ⟨f, rest, a, rfl, heq⟩ | ⟨w, next', heq, hquiet, hleads⟩ :=
        hfirst.cases_on_next
      · cases hdone
      · obtain ⟨rfl, rfl⟩ := Prog.cmd.inj heq
        have hwaits : waits (write p.state) := hadd write List.mem_cons_self p.state
        have hiff := ih (p := ⟨_, Function.update p.progs .first (Prog.writes rest (done a))⟩)
          (fun f hf => hadd f (List.mem_cons_of_mem _ hf)) (.writes a) trivial hsecond
          (keeps_true _) hrest
        exact iff_of_true (hiff.mpr (.inl hwaits)) (.inr (List.cons_ne_nil _ _))
      · obtain ⟨rfl, rfl⟩ := Prog.cmd.inj heq
        have hiff := ih (p := ⟨_, Function.update p.progs .first (next p.state)⟩) hadd
          (hleads p.state hrely) trivial hsecond (keeps_true _) hrest
        exact hiff.trans (or_congr_left (hquiet p.state).1)
    | second =>
      rw [hcmd] at hsecond
      rw [Keeps, hcmd] at hkeeps
      have hiff := ih (p := ⟨_, Function.update p.progs .second (next p.state)⟩) hadd hfirst
        (hkeeps.1 _ hrely) (hsecond.2 p.state) (hkeeps.2 p.state) hrest
      exact hiff.trans (or_congr_left (hsecond.1 p.state).1)

/-- What is left in the end: what the withdrawal does not reach, and all of it if the first program
has a turn after the withdrawal. -/
theorem waits_iff (rules : Rules waits out beyond withdraw fs) {n : Nat}
    (hfirst : Leads (Quiet waits out) fs rely (p.progs .first)) (hrely : rely p.state)
    (hsecond : Withdraws (Quiet waits out) withdraw n (p.progs .second))
    (hkeeps : Keeps rely (p.progs .second))
    (hrun : Run.run Pool.step p sched = some p') (hfinished : p'.Finished) :
    waits p'.state ↔ out p.state ∨ (∃ f ∈ fs, beyond f) ∨
      (fs ≠ [] ∧ .first ∈ behind^[n + 1] sched) := by
  induction sched generalizing p fs rely n with
  | nil =>
    cases hrun
    obtain ⟨a, ha⟩ := hfinished .second
    rw [ha] at hsecond
    cases hsecond
  | cons turn sched ih =>
    obtain ⟨p₁, hstep, hrest⟩ := Run.run_cons.mp hrun
    obtain ⟨write, next, hcmd, rfl⟩ := Pool.step_eq_some hstep
    cases turn with
    | first =>
      have hbehind : behind^[n + 1] (.first :: sched) = behind^[n + 1] sched := rfl
      rw [hbehind]
      rw [hcmd] at hfirst
      obtain ⟨-, a, hdone⟩ | ⟨f, rest, a, rfl, heq⟩ | ⟨w, next', heq, hquiet, hleads⟩ :=
        hfirst.cases_on_next
      · cases hdone
      · obtain ⟨rfl, rfl⟩ := Prog.cmd.inj heq
        have hiff := ih (p := ⟨_, Function.update p.progs .first (Prog.writes rest (done a))⟩)
          ⟨fun f hf => rules.waits_add f (List.mem_cons_of_mem _ hf),
            fun f hf => rules.out_add f (List.mem_cons_of_mem _ hf), rules.waits_withdraw⟩
          (.writes a) trivial hsecond (keeps_true _) hrest
        have hlater : .first ∈ behind^[n + 1] sched → rest ≠ [] := by
          rintro hmem rfl
          exact Pool.not_mem_of_done (i := .first) rfl hrest (mem_of_mem_behind_iterate hmem)
        rw [hiff, and_iff_right_of_imp hlater, rules.out_add write List.mem_cons_self]
        simp only [List.mem_cons, exists_eq_or_imp, ne_eq, reduceCtorEq, not_false_eq_true,
          true_and, or_assoc]
      · obtain ⟨rfl, rfl⟩ := Prog.cmd.inj heq
        have hiff := ih (p := ⟨_, Function.update p.progs .first (next p.state)⟩) rules
          (hleads p.state hrely) trivial hsecond (keeps_true _) hrest
        exact hiff.trans (or_congr_left (hquiet p.state).2)
    | second =>
      rw [hcmd] at hsecond
      rw [Keeps, hcmd] at hkeeps
      cases hsecond with
      | withdraw hw hquiet =>
        have hiff := waits_iff_behind (p := ⟨_, Function.update p.progs .second (next p.state)⟩)
          rules.waits_add hfirst (hkeeps.1 _ hrely) (hquiet p.state) (hkeeps.2 p.state) hrest
          hfinished
        have hmem : fs ≠ [] → .first ∈ sched := by
          intro hfs
          exact Pool.mem_of_not_done (p := ⟨_, Function.update p.progs .second (next p.state)⟩)
            (hfirst.ne_done hfs) hrest hfinished
        have hbehind : behind^[0 + 1] (.second :: sched) = sched := rfl
        have hbeyond : (∃ f ∈ fs, beyond f) → fs ≠ [] := by
          rintro ⟨f, hf, -⟩
          exact List.ne_nil_of_mem hf
        rw [hiff, rules.waits_withdraw write hw, hbehind]
        refine or_congr_right ⟨fun hfs => .inr ⟨hfs, hmem hfs⟩, ?_⟩
        rintro (hf | ⟨hfs, -⟩)
        · exact hbeyond hf
        · exact hfs
      | look hnext =>
        have hiff := ih (p := ⟨_, Function.update p.progs .second (next p.state)⟩) rules
          hfirst hrely (hnext p.state) (hkeeps.2 p.state) hrest
        exact hiff

end Waits

end Withdraw
