import ImServer.Lib.Crew
import ImServer.Lib.Prog
import Mathlib.Data.Set.BooleanAlgebra
import Mathlib.Data.Set.Disjoint
import Mathlib.Order.CompletePartialOrder

/-!
# Tasks that overlap but do not meet

The workers of a crew run their tasks command by command on one store. The store is seen through
the values at its places, and a task stays within the places that it touches. If a worker does a
command only when no task that was taken earlier and is not finished touches a place of its own
task, the store is in the end as if the tasks had been run one after another in the order in which
they were added.
-/

universe u v w x y

variable {σ : Type u} {Loc : Type x} {V : Type y} (view : σ → Loc → V)

def SameOn (places : Set Loc) (s s' : σ) : Prop := ∀ l ∈ places, view s l = view s' l

/-- A command that changes only some places, and neither writes nor reads anything that depends on
others. -/
structure Local {β : Type w} (places : Set Loc) (write : σ → σ) (read : σ → β) : Prop where
  keeps : ∀ s, ∀ l ∉ places, view (write s) l = view s l
  write : ∀ s s', SameOn view places s s' → SameOn view places (write s) (write s')
  read : ∀ s s', SameOn view places s s' → read s = read s'

variable {view} in
theorem Local.mono {β : Type w} {places places' : Set Loc} {write : σ → σ} {read : σ → β}
    (h : Local view places write read) (hsub : places ⊆ places') : Local view places' write read where
  keeps s l hl := h.keeps s l fun hmem => hl (hsub hmem)
  write s s' hsame := by
    intro l hl
    by_cases hmem : l ∈ places
    · exact h.write s s' (fun l hl => hsame l (hsub hl)) l hmem
    · rw [h.keeps s l hmem, h.keeps s' l hmem, hsame l hl]
  read s s' hsame := h.read s s' fun l hl => hsame l (hsub hl)

theorem Local.look {β : Type w} {places : Set Loc} {read : σ → β}
    (hread : ∀ s s', SameOn view places s s' → read s = read s') : Local view places id read where
  keeps _ _ _ := rfl
  write _ _ hsame := hsame
  read := hread

namespace Prog

variable {α : Type v}

inductive Within (places : Set Loc) : Prog σ α → Prop where
  | done (a : α) : Within places (.done a)
  | cmd {write : σ → σ} {next : σ → Prog σ α} :
      Local view places write next → (∀ s, Within places (next s)) → Within places (.cmd write next)

variable {view} {places places' : Set Loc} {p : Prog σ α}

theorem Within.keeps (h : p.Within view places) (s : σ) {l : Loc} (hl : l ∉ places) :
    view (p.alone s).2 l = view s l := by
  induction h generalizing s with
  | done a => rfl
  | cmd hlocal _ ih => exact (ih s _).trans (hlocal.keeps s l hl)

theorem Within.sameOn (h : p.Within view places) {s s' : σ} (hsame : SameOn view places s s') :
    SameOn view places (p.alone s).2 (p.alone s').2 := by
  induction h generalizing s s' with
  | done a => exact hsame
  | cmd hlocal _ ih =>
    rename_i write next _
    have hrest := ih s (hlocal.write s s' hsame)
    rw [alone, alone, ← hlocal.read s s' hsame]
    exact hrest

/-- What a program makes of two stores that look the same looks the same. -/
theorem Within.congr (h : p.Within view places) {s s' : σ} (hsame : view s = view s') :
    view (p.alone s).2 = view (p.alone s').2 := by
  funext l
  by_cases hl : l ∈ places
  · exact h.sameOn (fun l _ => congrFun hsame l) l hl
  · rw [h.keeps s hl, h.keeps s' hl, hsame]

theorem Within.writes (fs : List (σ → σ)) (h : p.Within view places)
    (hfs : ∀ f ∈ fs, Local view places f fun _ => ()) : (writes fs p).Within view places := by
  induction fs with
  | nil => exact h
  | cons f fs ih =>
    obtain ⟨hf, hfs⟩ := List.forall_mem_cons.mp hfs
    exact .cmd ⟨hf.keeps, hf.write, fun _ _ _ => rfl⟩ fun _ => ih hfs

theorem Within.bind {β : Type v} {next : α → Prog σ β} (h : p.Within view places)
    (hnext : ∀ a, (next a).Within view places) : (p.bind next).Within view places := by
  induction h with
  | done a => exact hnext a
  | cmd hlocal _ ih =>
    refine .cmd ⟨hlocal.keeps, hlocal.write, fun s s' hsame => ?_⟩ ih
    rw [hlocal.read s s' hsame]

/-- A command and a program that touch different places may change their order. -/
theorem Within.swap {write : σ → σ} {next : σ → Prog σ α} {q : Prog σ α}
    (hcmd : Local view places write next) (hq : q.Within view places')
    (hdisj : Disjoint places places') (s : σ) :
    view (q.alone (write s)).2 = view (write (q.alone s).2) ∧ next s = next (q.alone s).2 := by
  have hout {l : Loc} (hl : l ∈ places') : l ∉ places := fun h => Set.disjoint_left.mp hdisj h hl
  have hsame : SameOn view places s (q.alone s).2 := fun l hl =>
    (hq.keeps s (Set.disjoint_left.mp hdisj hl)).symm
  refine ⟨?_, hcmd.read _ _ hsame⟩
  funext l
  by_cases hl : l ∈ places'
  · have hwrite : SameOn view places' (write s) s := fun l hl => hcmd.keeps s l (hout hl)
    rw [hq.sameOn hwrite l hl, hcmd.keeps _ l (hout hl)]
  · rw [hq.keeps _ hl]
    by_cases hl' : l ∈ places
    · exact hcmd.write _ _ hsame l hl'
    · rw [hcmd.keeps s l hl', hcmd.keeps _ l hl', hq.keeps s hl]

/-- Programs one after another. -/
def runAll (ps : List (Prog σ α)) (s : σ) : σ := ps.foldl (fun s p => (p.alone s).2) s

theorem runAll_append (ps qs : List (Prog σ α)) (s : σ) :
    runAll (ps ++ qs) s = runAll qs (runAll ps s) := List.foldl_append ..

theorem runAll_congr {ps : List (Prog σ α)} (hps : ∀ p ∈ ps, ∃ places, p.Within view places) {s s' : σ}
    (hsame : view s = view s') : view (runAll ps s) = view (runAll ps s') := by
  induction ps generalizing s s' with
  | nil => exact hsame
  | cons p ps ih =>
    obtain ⟨⟨places, hp⟩, hps⟩ := List.forall_mem_cons.mp hps
    exact ih hps (hp.congr hsame)

theorem runAll_swap {write : σ → σ} {next : σ → Prog σ α} (hcmd : Local view places write next)
    {ps : List (Prog σ α)}
    (hps : ∀ p ∈ ps, ∃ places', p.Within view places' ∧ Disjoint places places') (s : σ) :
    view (runAll ps (write s)) = view (write (runAll ps s)) ∧ next s = next (runAll ps s) := by
  induction ps generalizing s with
  | nil => exact ⟨rfl, rfl⟩
  | cons p ps ih =>
    obtain ⟨⟨places', hp, hdisj⟩, hps⟩ := List.forall_mem_cons.mp hps
    obtain ⟨hview, hnext⟩ := Within.swap hcmd hp hdisj s
    obtain ⟨hview', hnext'⟩ := ih hps (p.alone s).2
    have hwithin : ∀ p ∈ ps, ∃ places, p.Within view places := fun p hp =>
      (hps p hp).imp fun _ h => h.1
    exact ⟨(runAll_congr hwithin hview).trans hview', hnext.trans hnext'⟩

end Prog

structure Service (ω : Type w) (τ : Type v) (σ : Type u) where
  crew : Crew ω τ := {}
  /-- The workers who have a task, in the order in which they have taken it. -/
  order : List ω := []
  rest : ω → Prog σ Unit := fun _ => .done ()
  store : σ

namespace Service

variable {ω : Type w} {τ : Type v} [DecidableEq ω] (prog : τ → Prog σ Unit)

inductive Event (ω : Type w) (τ : Type v) where
  | add (task : τ)
  | take (w : ω)
  /-- The next command of a task. -/
  | turn (w : ω)
  | finish (w : ω)

def step (s : Service ω τ σ) : Event ω τ → Option (Service ω τ σ)
  | .add task => (s.crew.step (.add task)).map fun crew => { s with crew := crew }
  | .take w =>
    match s.crew.queue with
    | task :: _ =>
      (s.crew.step (.take w)).map fun crew =>
        { s with crew := crew, order := s.order ++ [w], rest := Function.update s.rest w (prog task) }
    | [] => none
  | .turn w =>
    match s.crew.running w, s.rest w with
    | some _, .cmd write next =>
      some { s with store := write s.store, rest := Function.update s.rest w (next s.store) }
    | _, _ => none
  | .finish w =>
    match s.rest w with
    | .done _ =>
      (s.crew.step (.finish w)).map fun crew =>
        { s with crew := crew, order := s.order.erase w }
    | .cmd .. => none

/-- No task that was taken earlier and is not finished meets the task whose command is next. -/
def Apart (meets : τ → τ → Prop) (s : Service ω τ σ) : Event ω τ → Prop
  | .turn w =>
    ∀ v ∈ s.order.takeWhile (· ≠ w), ∀ t ∈ s.crew.running v, ∀ t' ∈ s.crew.running w, ¬ meets t t'
  | _ => True

instance (meets : τ → τ → Prop) [∀ t t', Decidable (meets t t')] (s : Service ω τ σ) :
    (e : Event ω τ) → Decidable (s.Apart meets e)
  | .turn w => inferInstanceAs (Decidable (∀ v ∈ s.order.takeWhile (· ≠ w), _))
  | .add _ | .take _ | .finish _ => isTrue trivial

/-- The tasks one after another. -/
def serial (store : σ) (tasks : List τ) : σ := Prog.runAll (tasks.map prog) store

/-- The store after all that is still to be done, in the order of the tasks. -/
def flush (s : Service ω τ σ) : σ :=
  serial prog (Prog.runAll (s.order.map s.rest) s.store) s.crew.queue

/-- Every step is one of the crew, or a command, which the crew does not see. -/
theorem crew_step {s s' : Service ω τ σ} {e : Event ω τ} (h : s.step prog e = some s') :
    s'.crew = s.crew ∨ ∃ e', s.crew.step e' = some s'.crew := by
  cases e with
  | add task =>
    simp only [step] at h
    obtain ⟨crew, hcrew, rfl⟩ := Option.map_eq_some_iff.mp h
    exact .inr ⟨_, hcrew⟩
  | take w =>
    simp only [step] at h
    split at h
    · obtain ⟨crew, hcrew, rfl⟩ := Option.map_eq_some_iff.mp h
      exact .inr ⟨_, hcrew⟩
    · cases h
  | turn w =>
    simp only [step] at h
    split at h
    · cases h
      exact .inl rfl
    · cases h
  | finish w =>
    simp only [step] at h
    split at h
    · obtain ⟨crew, hcrew, rfl⟩ := Option.map_eq_some_iff.mp h
      exact .inr ⟨_, hcrew⟩
    · cases h

variable {prog} {view} {foot : τ → Set Loc} {meets : τ → τ → Prop} {init : σ} {s s' : Service ω τ σ}

/-- The workers with a task are in order, what is left of a task stays within its places, and the
store is on its way to what the tasks make of it one after another. -/
structure Kept (view : σ → Loc → V) (prog : τ → Prog σ Unit) (foot : τ → Set Loc) (init : σ)
    (s : Service ω τ σ) : Prop where
  nodup : s.order.Nodup
  busy : ∀ w, w ∈ s.order ↔ s.crew.running w ≠ none
  within : ∀ w, ∀ task ∈ s.crew.running w, (s.rest w).Within view (foot task)
  store : view (s.flush prog) = view (serial prog init s.crew.added)

omit [DecidableEq ω] in
theorem Kept.start : Kept view prog foot init ({ store := init } : Service ω τ σ) where
  nodup := List.nodup_nil
  busy w := by simp
  within w task htask := by cases htask
  store := rfl

omit [DecidableEq ω] in
theorem Kept.rest_within (h : Kept view prog foot init s) {w : ω} (hw : w ∈ s.order) :
    ∃ task ∈ s.crew.running w, (s.rest w).Within view (foot task) := by
  obtain ⟨task, htask⟩ := Option.ne_none_iff_exists'.mp ((h.busy w).mp hw)
  exact ⟨task, htask, h.within w task htask⟩

theorem Kept.add (hfoot : ∀ task, (prog task).Within view (foot task))
    (h : Kept view prog foot init s) {task : τ} (hstep : s.step prog (.add task) = some s') :
    Kept view prog foot init s' := by
  simp only [step] at hstep
  obtain ⟨crew, hcrew, rfl⟩ := Option.map_eq_some_iff.mp hstep
  cases hcrew
  refine ⟨h.nodup, h.busy, h.within, ?_⟩
  have hstore := h.store
  simp only [flush, serial, List.map_append, List.map_singleton, Prog.runAll_append] at hstore ⊢
  exact (hfoot task).congr hstore

theorem Kept.take (hfoot : ∀ task, (prog task).Within view (foot task))
    (h : Kept view prog foot init s) {w : ω} (hstep : s.step prog (.take w) = some s') :
    Kept view prog foot init s' := by
  simp only [step] at hstep
  split at hstep
  case h_2 => cases hstep
  case h_1 task tail hqueue =>
    obtain ⟨crew, hcrew, rfl⟩ := Option.map_eq_some_iff.mp hstep
    obtain ⟨hidle, task', tail', hqueue', rfl⟩ := Crew.take_eq_some hcrew
    obtain ⟨rfl, rfl⟩ := List.cons.inj (hqueue.symm.trans hqueue')
    have hw : w ∉ s.order := fun hmem => (h.busy w).mp hmem hidle
    have hrest : (s.order ++ [w]).map (Function.update s.rest w (prog task)) =
        s.order.map s.rest ++ [prog task] := by
      rw [List.map_append, List.map_singleton, Function.update_self]
      refine congrArg (· ++ [prog task]) (List.map_congr_left fun v hv => ?_)
      exact Function.update_of_ne (by rintro rfl; exact hw hv) ..
    refine ⟨?_, fun v => ?_, fun v task' htask' => ?_, ?_⟩
    · refine List.nodup_append.mpr ⟨h.nodup, by simp, ?_⟩
      rintro v hv _ hw' rfl
      exact hw ((List.mem_singleton.mp hw') ▸ hv)
    · by_cases hv : v = w
      · subst hv
        simp
      · simp [hv, h.busy v]
    · dsimp only at htask' ⊢
      by_cases hv : v = w
      · subst hv
        rw [Function.update_self] at htask' ⊢
        cases htask'
        exact hfoot task
      · rw [Function.update_of_ne hv] at htask' ⊢
        exact h.within v task' htask'
    · have hstore := h.store
      rw [flush, hqueue] at hstore
      simp only [flush, hrest, Prog.runAll_append]
      exact hstore

theorem runAll_erase {w : ω} {a : Unit} (hdone : s.rest w = .done a) (ws : List ω) (store : σ) :
    Prog.runAll ((ws.erase w).map s.rest) store = Prog.runAll (ws.map s.rest) store := by
  induction ws generalizing store with
  | nil => rfl
  | cons v ws ih =>
    by_cases hv : v = w
    · subst hv
      rw [List.erase_cons_head, List.map_cons, Prog.runAll, Prog.runAll, List.foldl_cons, hdone]
      rfl
    · rw [List.erase_cons_tail (by simpa using hv), List.map_cons, List.map_cons]
      exact ih _

theorem Kept.finish (h : Kept view prog foot init s) {w : ω}
    (hstep : s.step prog (.finish w) = some s') : Kept view prog foot init s' := by
  simp only [step] at hstep
  split at hstep
  case h_2 => cases hstep
  case h_1 a hdone =>
    obtain ⟨crew, hcrew, rfl⟩ := Option.map_eq_some_iff.mp hstep
    obtain ⟨task, hrunning, rfl⟩ := Crew.finish_eq_some hcrew
    refine ⟨h.nodup.erase w, fun v => ?_, fun v task' htask' => ?_, ?_⟩
    · by_cases hv : v = w
      · subst hv
        simp [h.nodup.mem_erase_iff]
      · simp [h.nodup.mem_erase_iff, hv, h.busy v]
    · dsimp only at htask'
      by_cases hv : v = w
      · subst hv
        rw [Function.update_self] at htask'
        cases htask'
      · rw [Function.update_of_ne hv] at htask'
        exact h.within v task' htask'
    · have hstore := h.store
      simp only [flush, runAll_erase hdone]
      exact hstore

/-- The workers who have taken their tasks before a worker, and those who have taken them after. -/
theorem Kept.split (h : Kept view prog foot init s) {w : ω} (hw : w ∈ s.order) :
    ∃ before after, s.order = before ++ w :: after ∧ s.order.takeWhile (· ≠ w) = before ∧
      w ∉ before ∧ w ∉ after := by
  obtain ⟨before, after, horder⟩ := List.append_of_mem hw
  have hnodup := h.nodup
  rw [horder, List.nodup_append] at hnodup
  obtain ⟨-, hafter, hdisj⟩ := hnodup
  have hne : ∀ v ∈ before, v ≠ w := fun v hv => hdisj v hv w List.mem_cons_self
  have htake : s.order.takeWhile (· ≠ w) = before := by
    rw [horder, List.takeWhile_append_of_pos fun v hv => decide_eq_true (hne v hv)]
    simp
  exact ⟨before, after, horder, htake, fun hmem => hne w hmem rfl, (List.nodup_cons.mp hafter).1⟩

theorem Kept.turn (hfoot : ∀ task, (prog task).Within view (foot task))
    (hmeets : ∀ t t', ¬ meets t t' → Disjoint (foot t') (foot t))
    (h : Kept view prog foot init s) {w : ω} (hapart : s.Apart meets (.turn w))
    (hstep : s.step prog (.turn w) = some s') : Kept view prog foot init s' := by
  simp only [step] at hstep
  split at hstep
  case h_2 => cases hstep
  case h_1 task write next hrunning hcmd =>
    cases hstep
    have hw : w ∈ s.order := (h.busy w).mpr (by simp [hrunning])
    obtain ⟨before, after, horder, htake, hbefore, hafter⟩ := h.split hw
    have hwithin := h.within w task hrunning
    rw [hcmd] at hwithin
    cases hwithin with
    | cmd hlocal hnext =>
      refine ⟨h.nodup, h.busy, fun v task' htask' => ?_, ?_⟩
      · dsimp only at htask' ⊢
        by_cases hv : v = w
        · subst hv
          rw [Function.update_self]
          rw [hrunning] at htask'
          cases htask'
          exact hnext _
        · rw [Function.update_of_ne hv]
          exact h.within v task' htask'
      · -- The command moves over what is left of the tasks before it.
        have hearlier : ∀ p ∈ before.map s.rest,
            ∃ places', p.Within view places' ∧ Disjoint (foot task) places' := by
          intro p hp
          obtain ⟨v, hv, rfl⟩ := List.mem_map.mp hp
          obtain ⟨t, ht, hwithin⟩ := h.rest_within (horder ▸ List.mem_append_left _ hv : v ∈ s.order)
          exact ⟨foot t, hwithin, hmeets t task (hapart v (htake ▸ hv) t ht task hrunning)⟩
        obtain ⟨hview, hsame⟩ := Prog.runAll_swap hlocal hearlier s.store
        have hother {ws : List ω} (hws : w ∉ ws) :
            ws.map (Function.update s.rest w (next s.store)) = ws.map s.rest :=
          List.map_congr_left fun v hv => Function.update_of_ne (by rintro rfl; exact hws hv) ..
        have hlater : ∀ p ∈ next (Prog.runAll (before.map s.rest) s.store) :: after.map s.rest ++
            s.crew.queue.map prog, ∃ places, p.Within view places := by
          simp only [List.mem_append, List.mem_cons, List.mem_map]
          rintro p ((rfl | ⟨v, hv, rfl⟩) | ⟨t, -, rfl⟩)
          · exact ⟨_, hnext _⟩
          · have hmem : v ∈ s.order := by
              rw [horder]
              exact List.mem_append_right _ (List.mem_cons_of_mem _ hv)
            obtain ⟨t, -, hwithin⟩ := h.rest_within hmem
            exact ⟨foot t, hwithin⟩
          · exact ⟨_, hfoot t⟩
        have hstore := h.store
        simp only [flush, serial, horder, List.map_append, List.map_cons, hcmd, Prog.runAll_append,
          hother hbefore, hother hafter, Function.update_self] at hstore ⊢
        rw [← hstore, hsame]
        have hrest := Prog.runAll_congr hlater hview
        simp only [Prog.runAll_append] at hrest
        exact hrest

theorem Kept.step (hfoot : ∀ task, (prog task).Within view (foot task))
    (hmeets : ∀ t t', ¬ meets t t' → Disjoint (foot t') (foot t))
    (h : Kept view prog foot init s) {e : Event ω τ} (hapart : s.Apart meets e)
    (hstep : s.step prog e = some s') : Kept view prog foot init s' := by
  cases e with
  | add task => exact h.add hfoot hstep
  | take w => exact h.take hfoot hstep
  | turn w => exact h.turn hfoot hmeets hapart hstep
  | finish w => exact h.finish hstep

/-- Tasks that do not meet while they overlap leave what they leave one after another. -/
theorem view_store (hfoot : ∀ task, (prog task).Within view (foot task))
    (hmeets : ∀ t t', ¬ meets t t' → Disjoint (foot t') (foot t))
    (h : Run.Reaches (step prog) (Apart meets) { store := init } s) (hqueue : s.crew.queue = [])
    (hidle : ∀ w, s.crew.running w = none) :
    view s.store = view (serial prog init s.crew.added) := by
  have hkept : Kept view prog foot init s :=
    h.invariant (Kept view prog foot init) .start fun s e s' hs hapart hstep =>
      hs.step hfoot hmeets hapart hstep
  have horder : s.order = [] := by
    refine List.eq_nil_iff_forall_not_mem.mpr fun w hw => ?_
    exact (hkept.busy w).mp hw (hidle w)
  have hstore := hkept.store
  rw [flush, hqueue, horder] at hstore
  exact hstore

end Service
