import ImServer.Group.InStep
import ImServer.Group.MemberThreads
import ImServer.Group.PlainIds

/-!
# The counts of a group under interleaving

After the rows of members have changed, a task counts them anew for the row of the group and adds
to the count in redis. Other tasks come in between: a number that was taken too early is written
over a later one, and a count that was read too early is written back. What is counted comes out
right if each of these writes still finds what it was computed from.
-/

namespace ImServer

namespace Group

open Run (Reaches)

/-- The row and the hash of a group have the number of its active members. Only a group without
any may have no hash. -/
structure Counted (d : GroupData) : Prop where
  row : d.row.map GroupRow.count = some d.active
  cache : ∀ count ∈ d.cache.count, count = d.active
  kept : 0 < d.active → d.cache.count.isSome = true

instance (d : GroupData) : Decidable (Counted d) :=
  decidable_of_iff (d.row.map GroupRow.count = some d.active ∧
      (∀ count ∈ d.cache.count, count = d.active) ∧ (0 < d.active → d.cache.count.isSome = true))
    ⟨fun ⟨hrow, hcache, hkept⟩ => ⟨hrow, hcache, hkept⟩, fun h => ⟨h.row, h.cache, h.kept⟩⟩

namespace Change

/-- What the change adds to the count. -/
def diff (c : Change) : ℤ := if c.dec then -c.nCount else c.nCount

theorem newCount_eq {c : Change} {count : Nat} (h : c.newCount count ≠ 0) :
    (c.newCount count : ℤ) = count + c.diff := by
  unfold newCount diff at *
  split at h
  · rw [if_pos ‹_›, if_pos ‹_›]
    omega
  · rw [if_neg ‹_›, if_neg ‹_›]
    omega

theorem add_diff_nonpos {c : Change} {count : Nat} (h : c.newCount count = 0) :
    (count : ℤ) + c.diff ≤ 0 := by
  unfold newCount at h
  unfold diff
  split at h
  · rw [if_pos ‹_›]
    omega
  · rw [if_neg ‹_›]
    omega

end Change

namespace Place

/-- The change of the thread that is in the rows and not yet in the count of redis. -/
def owed : Place → Option Change
  | hash c _ | select c _ | update c _ _ | hmget c _ | store c _ _ => some c
  | hdel userId _ _ => some (.remove userId)
  | _ => none

def debt (l : Place) : ℤ := l.owed.elim 0 Change.diff

theorem debt_of_owed {l : Place} {c : Change} (h : l.owed = some c) : l.debt = c.diff := by
  rw [debt, h]
  rfl

theorem debt_of_none {l : Place} (h : l.owed = none) : l.debt = 0 := by
  rw [debt, h]
  rfl

/-- Whether the row will have the right number once the thread has gone on, if nobody joins or
leaves in between. -/
def recounts (d : GroupData) : Place → Bool
  | hash _ _ | hdel _ _ _ | select _ _ => true
  | update _ _ nNumber => nNumber = d.active
  | _ => false

/-- The code that the task has ended with. -/
def result : Place → Option ErrCode
  | done err => some err
  | _ => none

theorem owed_ofLook (p : Look GroupData Verdict) : (ofLook p).owed = none := by
  cases p with
  | look next => rfl
  | done verdict => cases verdict <;> rfl

end Place

theorem Ending.owed_place (ending : Ending) : ending.place.owed = none := by
  unfold Ending.place
  split <;> rfl

theorem count_updateGroupStatus (status : GroupStatus) (d : GroupData) :
    (updateGroupStatus status d).row.map GroupRow.count = d.row.map GroupRow.count := by
  simp only [updateGroupStatus, Option.map_map]
  refine congrFun (congrArg Option.map (funext fun row => ?_)) d.row
  simp only [Function.comp_apply]
  split <;> rfl

section Counting

variable {ι : Type} {t t' : Threads ι GroupData Place} {i : ι} {p l : Place} {d : GroupData}

/-- What the thread has to find at its place, so that no count is lost by its turn. -/
def OnTime (t : Threads ι GroupData Place) (i : ι) : Place → Prop
  | .rows (.join j) _ =>
    (∀ userId ∈ j.userIds, ¬ t.data.IsActive userId) ∧ j.userIds.length < 2 ^ 16 ∧
      t.data.cache.count.isSome = true
  | .rows (.remove userId) _ => t.data.IsActive userId
  | .select _ _ => t.data.active < 2 ^ 16
  | .update _ _ nNumber =>
    nNumber = t.data.active ∨ ∃ j, j ≠ i ∧ (t.place j).recounts t.data = true
  | .store c _ count =>
    t.data.cache.count = some count ∧
      (c.newCount count = 0 → ∀ j, j ≠ i → (t.place j).owed = none)
  | _ => True

def Good (t : Threads ι GroupData Place) (i : ι) : Prop := OnTime t i (t.place i)

instance [Fintype ι] [DecidableEq ι] (t : Threads ι GroupData Place) (i : ι) :
    (p : Place) → Decidable (OnTime t i p)
  | .rows (.join j) _ =>
    inferInstanceAs (Decidable ((∀ userId ∈ j.userIds, ¬ t.data.IsActive userId) ∧ _ ∧ _))
  | .rows (.remove userId) _ => inferInstanceAs (Decidable (t.data.IsActive userId))
  | .select _ _ => inferInstanceAs (Decidable (_ < _))
  | .update _ _ nNumber =>
    inferInstanceAs (Decidable (nNumber = _ ∨ ∃ j, j ≠ i ∧ (t.place j).recounts t.data = true))
  | .store _ _ _ =>
    inferInstanceAs (Decidable (_ ∧ (_ → ∀ j, j ≠ i → (t.place j).owed = none)))
  | .checks _ | .hash _ _ | .hdel _ _ _ | .hmget _ _ | .dismiss _ | .activateRow _
  | .activateCache _ | .done _ => .isTrue trivial

instance [Fintype ι] [DecidableEq ι] (t : Threads ι GroupData Place) (i : ι) : Decidable (Good t i) :=
  inferInstanceAs (Decidable (OnTime t i (t.place i)))

/-- What a turn from `p` to `l` does to the counts. -/
inductive Counting (t : Threads ι GroupData Place) (i : ι) (p l : Place) (d : GroupData) : Prop where
  | other (active : d.active = t.data.active) (cache : d.cache.count = t.data.cache.count)
      (row : d.row.map GroupRow.count = t.data.row.map GroupRow.count) (owed : l.owed = p.owed)
      (recounts : p.recounts t.data = true → l.recounts d = true)
  | rows (c : Change) (owed : p.owed = none) (owes : l.owed = some c)
      (active : (d.active : ℤ) = t.data.active + c.diff) (cache : d.cache = t.data.cache)
      (known : t.data.cache.count = none → 0 < t.data.active) (row : d.row = t.data.row)
      (recounts : l.recounts d = true)
  | update (nNumber : Nat) (active : d.active = t.data.active) (cache : d.cache = t.data.cache)
      (row : d.row.map GroupRow.count = t.data.row.map fun _ => nNumber) (owed : l.owed = p.owed)
      (right : nNumber = t.data.active ∨ ∃ j, j ≠ i ∧ (t.place j).recounts t.data = true)
  | store (c : Change) (count : Nat) (owed : p.owed = some c) (owes : l.owed = none)
      (active : d.active = t.data.active) (row : d.row = t.data.row)
      (found : t.data.cache.count = some count)
      (cache : d.cache.count = if c.newCount count = 0 then none else some (c.newCount count))
      (alone : c.newCount count = 0 → ∀ j, j ≠ i → (t.place j).owed = none)
      (recounts : p.recounts t.data = false)

theorem counting_of_turn (hgood : OnTime t i p) (hcount : p.owed ≠ none → t.data.cache.count ≠ none)
    (hturn : p.turn t.data = some (l, d)) : Counting t i p l d := by
  cases p with
  | checks next =>
    cases hturn
    exact .other rfl rfl rfl (Place.owed_ofLook _) fun h => absurd h Bool.false_ne_true
  | rows c ending =>
    cases c with
    | join j =>
      cases hturn
      obtain ⟨hnew, hlength, hknown⟩ := hgood
      have hactive := active_withMembers j.nodup j.active hnew
      have hnCount : (Change.join j).nCount = j.userIds.length := Nat.mod_eq_of_lt hlength
      have hdiff : (Change.join j).diff = (Change.join j).nCount := rfl
      refine .rows (.join j) rfl rfl ?_ rfl (fun hnone => ?_) rfl rfl
      · rw [hdiff, hnCount]
        exact_mod_cast hactive
      · rw [hnone] at hknown
        cases hknown
    | remove userId =>
      cases hturn
      have hactive : ((withoutMember t.data userId).active : ℤ) + 1 = t.data.active := by
        exact_mod_cast active_withoutMember hgood
      have hdiff : (Change.remove userId).diff = -1 := rfl
      refine .rows (.remove userId) rfl rfl ?_ rfl (fun _ => count_pos_of_isActive hgood) rfl rfl
      rw [hdiff]
      exact eq_sub_of_add_eq hactive
  | hash c ending =>
    cases c with
    | join j =>
      cases hturn
      exact .other rfl rfl rfl rfl fun _ => rfl
    | remove userId =>
      cases hturn
      exact .other rfl rfl rfl rfl fun _ => rfl
  | hdel userId ending len =>
    cases hturn
    exact .other rfl rfl rfl rfl fun _ => rfl
  | select c ending =>
    cases hturn
    exact .other rfl rfl rfl rfl fun _ => decide_eq_true (Nat.mod_eq_of_lt hgood)
  | update c ending nNumber =>
    cases hturn
    refine .update nNumber rfl rfl ?_ rfl hgood
    rw [Option.map_map]
    rfl
  | hmget c ending =>
    cases hread : t.data.cache.count with
    | none => exact absurd hread (hcount (Option.some_ne_none c))
    | some count =>
      rw [turn_hmget_of_some hread] at hturn
      cases hturn
      exact .other rfl rfl rfl rfl fun h => absurd h Bool.false_ne_true
  | store c ending count =>
    cases hturn
    refine .store c count rfl rfl rfl rfl hgood.1 ?_ hgood.2 rfl
    dsimp only
    split <;> rfl
  | dismiss ending =>
    cases hturn
    exact .other rfl rfl (count_updateGroupStatus _ _) ending.owed_place
      fun h => absurd h Bool.false_ne_true
  | activateRow err =>
    cases hturn
    exact .other rfl rfl (count_updateGroupStatus _ _) rfl fun h => absurd h Bool.false_ne_true
  | activateCache err =>
    cases hturn
    exact .other rfl rfl rfl rfl fun h => absurd h Bool.false_ne_true
  | done err => cases hturn

/-- A thread that does not go on still recounts, if nobody joins or leaves. -/
theorem recounts_congr {d d' : GroupData} (h : d'.active = d.active) (p : Place) :
    p.recounts d' = p.recounts d := by
  cases p with
  | update c ending nNumber => simp only [Place.recounts, h]
  | _ => rfl

variable [DecidableEq ι]

theorem owed_update (howed : l.owed = (t.place i).owed) (j : ι) :
    (Function.update t.place i l j).owed = (t.place j).owed := by
  by_cases hj : j = i
  · subst hj
    rw [Function.update_self, howed]
  · rw [Function.update_of_ne hj]

theorem recounts_of_ne (hactive : d.active = t.data.active) {j : ι} (hj : j ≠ i)
    (hrecounts : (t.place j).recounts t.data = true) :
    (Function.update t.place i l j).recounts d = true := by
  rw [Function.update_of_ne hj, recounts_congr hactive, hrecounts]

end Counting

section Runs

variable {ι : Type} [Fintype ι] {t t' : Threads ι GroupData Place} {i : ι}

/-- The row has the right number or will have it, and redis lacks what the threads still owe. -/
structure Due (t : Threads ι GroupData Place) : Prop where
  row : ∃ n, t.data.row.map GroupRow.count = some n ∧
    (n = t.data.active ∨ ∃ j, (t.place j).recounts t.data = true)
  cache : ∀ count ∈ t.data.cache.count, (count : ℤ) + ∑ j, (t.place j).debt = t.data.active
  gone : t.data.cache.count = none → t.data.active = 0 ∧ ∀ j, (t.place j).owed = none

theorem due_of_start {env : ι → Env} {task : ι → MemberTask} (hcounted : Counted t.data)
    (hstart : ∀ i, t.place i = (task i).start (env i)) : Due t := by
  have howed : ∀ i, (t.place i).owed = none := fun i => by
    rw [hstart i]
    exact Place.owed_ofLook _
  refine ⟨⟨_, hcounted.row, .inl rfl⟩, fun count hcount => ?_, fun hnone => ⟨?_, howed⟩⟩
  · have hnothing : ∑ j, (t.place j).debt = 0 :=
      Finset.sum_eq_zero fun j _ => Place.debt_of_none (howed j)
    rw [hnothing, hcounted.cache count hcount, add_zero]
  · by_contra hne
    have hkept := hcounted.kept (Nat.pos_of_ne_zero hne)
    rw [hnone] at hkept
    cases hkept

theorem Place.owed_of_result {p : Place} (h : p.result.isSome = true) : p.owed = none := by
  cases p with
  | done err => rfl
  | _ => cases h

theorem Place.recounts_of_result {p : Place} (h : p.result.isSome = true) (d : GroupData) :
    p.recounts d = false := by
  cases p with
  | done err => rfl
  | _ => cases h

theorem Due.counted (h : Due t) (hdone : ∀ i, (t.place i).result.isSome = true) : Counted t.data := by
  have hnothing : ∑ j, (t.place j).debt = 0 :=
    Finset.sum_eq_zero fun j _ => Place.debt_of_none (Place.owed_of_result (hdone j))
  refine ⟨?_, fun count hcount => ?_, fun hpos => ?_⟩
  · obtain ⟨n, hn, rfl | ⟨j, hj⟩⟩ := h.row
    · exact hn
    · rw [Place.recounts_of_result (hdone j)] at hj
      cases hj
  · have hdue := h.cache count hcount
    omega
  · by_contra hnone
    exact hpos.ne' (h.gone (Option.not_isSome_iff_eq_none.mp hnone)).1

variable [DecidableEq ι]

section Turn

variable {l : Place} {d : GroupData}

theorem sum_debt_update (howed : l.owed = (t.place i).owed) :
    ∑ j, (Function.update t.place i l j).debt = ∑ j, (t.place j).debt :=
  Finset.sum_congr rfl fun j _ => by simp only [Place.debt, owed_update howed]

/-- A step that changes neither who is active, nor what redis counts, nor what is owed. -/
theorem Due.steady (h : Due t) (hactive : d.active = t.data.active)
    (hcache : d.cache.count = t.data.cache.count) (howed : l.owed = (t.place i).owed) {n : Nat}
    (hrow : d.row.map GroupRow.count = some n)
    (hright : n = t.data.active ∨ ∃ j, (Function.update t.place i l j).recounts d = true) :
    Due ⟨d, Function.update t.place i l⟩ := by
  refine ⟨⟨n, hrow, hright.imp_left (·.trans hactive.symm)⟩, fun count hcount => ?_, fun hnone => ?_⟩
  · have hdue := h.cache count (hcache ▸ hcount)
    simp only [sum_debt_update howed, hactive]
    exact hdue
  · obtain ⟨hempty, hnobody⟩ := h.gone (hcache ▸ hnone)
    exact ⟨hactive.trans hempty, fun j => (owed_update howed j).trans (hnobody j)⟩

theorem Due.other (h : Due t) (hactive : d.active = t.data.active)
    (hcache : d.cache.count = t.data.cache.count)
    (hrow : d.row.map GroupRow.count = t.data.row.map GroupRow.count)
    (howed : l.owed = (t.place i).owed)
    (hrecounts : (t.place i).recounts t.data = true → l.recounts d = true) :
    Due ⟨d, Function.update t.place i l⟩ := by
  obtain ⟨n, hn, hright⟩ := h.row
  refine h.steady hactive hcache howed (hrow.trans hn) (hright.imp_right fun ⟨j, hj⟩ => ⟨j, ?_⟩)
  by_cases hji : j = i
  · subst hji
    rw [Function.update_self]
    exact hrecounts hj
  · exact recounts_of_ne hactive hji hj

theorem Due.rows (h : Due t) {c : Change} (howed : (t.place i).owed = none) (howes : l.owed = some c)
    (hactive : (d.active : ℤ) = t.data.active + c.diff) (hcache : d.cache = t.data.cache)
    (hknown : t.data.cache.count = none → 0 < t.data.active) (hrow : d.row = t.data.row)
    (hrecounts : l.recounts d = true) : Due ⟨d, Function.update t.place i l⟩ := by
  obtain ⟨n, hn, -⟩ := h.row
  refine ⟨⟨n, ?_, .inr ⟨i, ?_⟩⟩, fun count hcount => ?_, fun hnone => ?_⟩
  · rw [← hn, ← hrow]
  · dsimp only
    rw [Function.update_self, hrecounts]
  · have hdue := h.cache count (hcache ▸ hcount)
    have hsum := Threads.sum_update Place.debt t.place i l
    rw [Place.debt_of_none howed, Place.debt_of_owed howes] at hsum
    dsimp only
    omega
  · have hnone' : t.data.cache.count = none := hcache ▸ hnone
    exact absurd (h.gone hnone').1 (hknown hnone').ne'

theorem Due.update (h : Due t) {nNumber : Nat} (hactive : d.active = t.data.active)
    (hcache : d.cache = t.data.cache)
    (hrow : d.row.map GroupRow.count = t.data.row.map fun _ => nNumber)
    (howed : l.owed = (t.place i).owed)
    (hright : nNumber = t.data.active ∨ ∃ j, j ≠ i ∧ (t.place j).recounts t.data = true) :
    Due ⟨d, Function.update t.place i l⟩ := by
  obtain ⟨n, hn, -⟩ := h.row
  obtain ⟨row, hstored, -⟩ := Option.map_eq_some_iff.mp hn
  have hnumber : d.row.map GroupRow.count = some nNumber := by rw [hrow, hstored, Option.map_some]
  exact h.steady hactive (congrArg _ hcache) howed hnumber <|
    hright.imp_right fun ⟨j, hji, hj⟩ => ⟨j, recounts_of_ne hactive hji hj⟩

theorem Due.store (h : Due t) {c : Change} {count : Nat} (howed : (t.place i).owed = some c)
    (howes : l.owed = none) (hactive : d.active = t.data.active) (hrow : d.row = t.data.row)
    (hfound : t.data.cache.count = some count)
    (hcache : d.cache.count = if c.newCount count = 0 then none else some (c.newCount count))
    (halone : c.newCount count = 0 → ∀ j, j ≠ i → (t.place j).owed = none)
    (hrecounts : (t.place i).recounts t.data = false) : Due ⟨d, Function.update t.place i l⟩ := by
  have hdue := h.cache count hfound
  have hsum := Threads.sum_update Place.debt t.place i l
  rw [Place.debt_of_owed howed, Place.debt_of_none howes] at hsum
  obtain ⟨n, hn, hright⟩ := h.row
  refine ⟨⟨n, ?_, ?_⟩, fun count' hcount' => ?_, fun hnone => ?_⟩
  · rw [← hn, ← hrow]
  · obtain hnow | ⟨j, hj⟩ := hright
    · exact .inl (hnow.trans hactive.symm)
    · have hji : j ≠ i := by
        rintro rfl
        rw [hrecounts] at hj
        cases hj
      exact .inr ⟨j, recounts_of_ne hactive hji hj⟩
  · dsimp only at hcount' ⊢
    rw [hcache] at hcount'
    split at hcount'
    · cases hcount'
    · next hpos =>
      obtain rfl := Option.some.inj hcount'
      have hnew := Change.newCount_eq hpos
      omega
  · dsimp only at hnone ⊢
    rw [hcache] at hnone
    split at hnone
    · next hzero =>
      -- The others owe nothing, so that all members that redis knew of have left.
      have hnobody : ∀ j, (Function.update t.place i l j).owed = none := by
        intro j
        by_cases hji : j = i
        · rw [hji, Function.update_self, howes]
        · rw [Function.update_of_ne hji, halone hzero j hji]
      have hnothing : ∑ j, (Function.update t.place i l j).debt = 0 :=
        Finset.sum_eq_zero fun j _ => Place.debt_of_none (hnobody j)
      have hleft := Change.add_diff_nonpos hzero
      exact ⟨by omega, hnobody⟩
    · cases hnone

end Turn

theorem Due.step (h : Due t) (hgood : Good t i) (hstep : t.step Place.turn i = some t') : Due t' := by
  obtain ⟨l, d, hturn, rfl⟩ := Threads.step_eq_some hstep
  have hread : (t.place i).owed ≠ none → t.data.cache.count ≠ none :=
    fun howed hnone => howed ((h.gone hnone).2 i)
  cases counting_of_turn hgood hread hturn with
  | other hactive hcache hrow howed hrecounts =>
    exact h.other hactive hcache hrow howed hrecounts
  | rows c howed howes hactive hcache hknown hrow hrecounts =>
    exact h.rows howed howes hactive hcache hknown hrow hrecounts
  | update nNumber hactive hcache hrow howed hright =>
    exact h.update hactive hcache hrow howed hright
  | store c count howed howes hactive hrow hfound hcache halone hrecounts =>
    exact h.store howed howes hactive hrow hfound hcache halone hrecounts

/-- If the tasks that were started put plain texts into their statements and each turn is on time,
the counts are right once all tasks have ended. -/
theorem counted_of_done {env : ι → Env} {task : ι → MemberTask} (hcounted : Counted t.data)
    (hstart : ∀ i, ((task i).task.checks = true ∧ (task i).task.Plain) ∧
      t.place i = (task i).start (env i))
    (hreach : Reaches (Threads.step Place.turn) Good t t')
    (hdone : ∀ i, (t'.place i).result.isSome = true) : Counted t'.data := by
  have hdue : Due t' := hreach.invariant Due
    (due_of_start hcounted fun i => (hstart i).2) fun _ _ _ h hgood hstep => h.step hgood hstep
  exact hdue.counted hdone

end Runs

def annsGroup : GroupData where
  row := some ⟨1, 0, .normalGroupstatus, "ann", 0⟩
  members := (∅ : Members).insert "ann" .masterMember
  cache := ⟨some "ann", some 1, some .normalGroupstatus, some 0, some 0⟩
  memCache := (∅ : Members).insert "ann" .masterMember

def application (dan : Bool) : MemberTask :=
  .apply { userId := if dan then "dan" else "carl", groupId := grp }

def applications : Threads Bool GroupData Place := ⟨annsGroup, fun dan => (application dan).start {}⟩

/-- Both count the rows, and the number of carl is written before that of dan. -/
def inOrder : List Bool :=
  List.replicate 7 false ++ List.replicate 7 true ++ List.replicate 4 false ++ List.replicate 4 true

theorem counted_of_done_inOrder : ∃ t',
    Run.run (Threads.step Place.turn) applications inOrder = some t' ∧ t'.data.active = 3 ∧
      Counted t'.data := by
  have hrun : (Run.runGood (Threads.step Place.turn) Good applications inOrder).map
      (fun t => (t.data.active, decide (∀ i, (t.place i).result.isSome = true))) = some (3, true) := by
    decide +kernel
  obtain ⟨t', hgood, ht'⟩ := Option.map_eq_some_iff.mp hrun
  obtain ⟨hactive, hdone⟩ := Prod.mk.inj ht'
  have hcounted : Counted applications.data := by decide +kernel
  have hplain : ∀ dan, (application dan).task.checks = true ∧ (application dan).task.Plain := by
    decide +kernel
  have hstart : ∀ dan, ((application dan).task.checks = true ∧ (application dan).task.Plain) ∧
      applications.place dan = (application dan).start {} := fun dan => ⟨hplain dan, rfl⟩
  exact ⟨t', Run.run_of_runGood hgood, hactive,
    counted_of_done hcounted hstart (Run.reaches_of_runGood hgood) (of_decide_eq_true hdone)⟩

/-- Dan joins and reads the count in redis after carl has counted the rows and before he goes on. -/
def overlapping : List Bool :=
  List.replicate 7 false ++ List.replicate 9 true ++ List.replicate 4 false ++ List.replicate 2 true

theorem count_lost_overlapping : Counted applications.data ∧
    ∃ t', Run.run (Threads.step Place.turn) applications overlapping = some t' ∧
      (∀ i, (t'.place i).result.isSome = true) ∧ ¬ Counted t'.data ∧
      (t'.data.row.map GroupRow.count, t'.data.cache.count, t'.data.active) = (some 2, some 2, 3) := by
  have hrun : (Run.run (Threads.step Place.turn) applications overlapping).any (fun t =>
      (∀ i, (t.place i).result.isSome = true) ∧ ¬ Counted t.data ∧
        (t.data.row.map GroupRow.count, t.data.cache.count, t.data.active) = (some 2, some 2, 3)) =
      true := by
    decide +kernel
  obtain ⟨t', ht', hlost⟩ := (Option.any_eq_true _ _).mp hrun
  exact ⟨by decide +kernel, t', ht', of_decide_eq_true hlost⟩

end Group

end ImServer
