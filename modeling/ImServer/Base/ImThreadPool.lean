import ImServer.Base.WorkerThread
import ImServer.Lib.Crew
import ImServer.Lib.CText
import ImServer.Msg.OfflineMsg

/-!
# The pool of the store tasks

The asynchronous operations of a collection (database/mongoDbColl.cpp) are tasks of a
`CImThreadPool` (base/threadpool.cpp) and go to it with the hash value of their document or key,
which for messages is that of the receiver (msg/mod_mongodb/offlineMsg.cpp). Each worker of the
pool runs the tasks of its own list in order, so that tasks with the same hash would be run in
order if the hash chose the worker. `AddTask` takes a random worker instead.
-/

namespace ImServer

namespace CImWorkerThread

variable {ι τ : Type} [DecidableEq ι] {s s' : CImWorkerThread ι τ}

/-- What a worker does with its tasks, without the mutex. -/
def crew (s : CImWorkerThread ι τ) : Crew Unit τ where
  queue := s.taskList
  running _ := s.execute.taken.head?
  added := s.pushed
  taken := s.ran ++ s.execute.taken
  finished := s.ran

/-- Every step of the worker and its callers is one of a lone worker at its queue, or none. -/
theorem crew_step {e : Event ι τ} (hstep : s.step e = some s') :
    s'.crew = s.crew ∨ ∃ e', s.crew.step e' = some s'.crew := by
  cases e with
  | execute =>
    simp only [step, executeStep] at hstep
    split at hstep
    case h_1 hpc | h_3 hpc =>
      cases hstep
      left
      simp only [crew, hpc]
      split <;> rfl
    case h_2 hpc | h_5 hpc =>
      obtain ⟨m, -, rfl⟩ := Option.map_eq_some_iff.mp hstep
      simp [crew, hpc, Execute.taken]
    case h_4 hpc =>
      cases hstep
      simp [crew, hpc, Execute.taken]
    case h_6 hpc =>
      split at hstep
      · cases hstep
        simp [crew, hpc, Execute.taken]
      · next task rest hlist =>
        cases hstep
        right
        refine ⟨.take (), ?_⟩
        rw [Crew.take_of_eq task rest (by simp [crew, hpc, Execute.taken]) hlist]
        simp [crew, hpc, Execute.taken, funext_iff]
    case h_7 task hpc =>
      cases hstep
      simp [crew, hpc, Execute.taken]
    case h_8 task hpc =>
      cases hstep
      right
      refine ⟨.finish (), ?_⟩
      rw [Crew.finish_of_eq task (by simp [crew, hpc, Execute.taken])]
      simp [crew, hpc, Execute.taken, funext_iff]
    case h_9 => cases hstep
  | spurious =>
    obtain ⟨m, -, rfl⟩ := Option.map_eq_some_iff.mp hstep
    exact .inl rfl
  | call i task =>
    simp only [step] at hstep
    split at hstep
    · cases hstep
      exact .inl rfl
    · cases hstep
  | pushTask i =>
    simp only [step, pushStep] at hstep
    split at hstep
    case h_1 => cases hstep
    case h_2 | h_4 =>
      obtain ⟨m, -, rfl⟩ := Option.map_eq_some_iff.mp hstep
      exact .inl rfl
    case h_3 task hpc =>
      cases hstep
      exact .inr ⟨.add task, rfl⟩
    case h_5 =>
      cases hstep
      exact .inl rfl
  | stop =>
    simp only [step, stopStep] at hstep
    split at hstep
    case h_1 =>
      cases hstep
      exact .inl rfl
    case h_2 =>
      obtain ⟨m, -, rfl⟩ := Option.map_eq_some_iff.mp hstep
      exact .inl rfl
    case h_3 => cases hstep

end CImWorkerThread

/-- The tasks in the lists of the workers carry their place in the order of submission. -/
structure CImThreadPool (τ : Type) (size : Nat) where
  workers : Fin size → Crew Unit (Nat × τ) := fun _ => {}
  submitted : List τ := []

namespace CImThreadPool

variable {τ : Type} {size : Nat}

/-- `AddTask` leaves its second argument aside. -/
def threadIdx (size : Nat) (_index : UInt32) (random : Nat) : Nat := random % size

inductive Event (τ : Type) (size : Nat) where
  | submit (task : τ) (random : Nat)
  | take (w : Fin size)
  | finish (w : Fin size)

section Steps

variable (hashVal : τ → UInt32) (s : CImThreadPool τ size)

def setWorker (w : Fin size) (c : Crew Unit (Nat × τ)) : CImThreadPool τ size :=
  { s with workers := Function.update s.workers w c }

def addTask (task : τ) (index : UInt32) (random : Nat) : Option (CImThreadPool τ size) :=
  if h : threadIdx size index random < size then
    ((s.workers ⟨_, h⟩).step (.add (s.submitted.length, task))).map fun c =>
      { s.setWorker ⟨_, h⟩ c with submitted := s.submitted ++ [task] }
  else none

/-- `InsertOne`, `UpdateOne` and `DelOne` submit their task with its hash value. -/
def step : Event τ size → Option (CImThreadPool τ size)
  | .submit task random => s.addTask task (hashVal task) random
  | .take w => ((s.workers w).step (.take ())).map (s.setWorker w)
  | .finish w => ((s.workers w).step (.finish ())).map (s.setWorker w)

def Begun (n : Nat) : Prop := ∃ w, ∃ entry ∈ (s.workers w).taken, entry.1 = n

def Finished (n : Nat) : Prop := ∃ w, ∃ entry ∈ (s.workers w).finished, entry.1 = n

/-- When a task begins, those with the same hash value that were submitted before are finished. -/
def InOrder : Prop :=
  ∀ m n a b, s.submitted[m]? = some a → s.submitted[n]? = some b → m < n → hashVal a = hashVal b →
    s.Begun n → s.Finished m

/-- The random worker is the one that has all unfinished tasks with the hash value. -/
def Picks : Event τ size → Prop
  | .submit task random =>
    ∀ w, ∀ entry ∈ ((s.workers w).running ()).toList ++ (s.workers w).queue,
      hashVal entry.2 = hashVal task → w.val = threadIdx size (hashVal task) random
  | _ => True

end Steps

variable {hashVal : τ → UInt32} {s s' : CImThreadPool τ size}

structure Inv (hashVal : τ → UInt32) (s : CImThreadPool τ size) : Prop where
  lone : ∀ w, (s.workers w).Lone
  numbered : ∀ w, ∀ entry ∈ (s.workers w).added, s.submitted[entry.1]? = some entry.2
  sorted : ∀ w, ((s.workers w).added.map Prod.fst).Pairwise (· < ·)
  placed : ∀ n < s.submitted.length, ∃ w, ∃ entry ∈ (s.workers w).added, entry.1 = n
  together : ∀ w w', ∀ a ∈ (s.workers w).added, ∀ b ∈ (s.workers w').added, a.1 < b.1 →
    hashVal a.2 = hashVal b.2 → w = w' ∨ a ∈ (s.workers w).finished

theorem inv_init : ({} : CImThreadPool τ size).Inv hashVal where
  lone _ := .start
  numbered _ _ h := absurd h List.not_mem_nil
  sorted _ := .nil
  placed _ h := absurd h (Nat.not_lt_zero _)
  together _ _ _ h := absurd h List.not_mem_nil

@[simp] theorem workers_setWorker (w : Fin size) (c : Crew Unit (Nat × τ)) :
    (s.setWorker w c).workers w = c := Function.update_self ..

theorem workers_setWorker_of_ne {w w' : Fin size} (hw : w' ≠ w) (c : Crew Unit (Nat × τ)) :
    (s.setWorker w c).workers w' = s.workers w' := Function.update_of_ne hw ..

theorem Inv.setWorker {w : Fin size} {c : Crew Unit (Nat × τ)} (h : s.Inv hashVal) (hlone : c.Lone)
    (hadded : c.added = (s.workers w).added) (hfinished : (s.workers w).finished ⊆ c.finished) :
    (s.setWorker w c).Inv hashVal := by
  have hadd : ∀ w', ((s.setWorker w c).workers w').added = (s.workers w').added := by
    intro w'
    by_cases hw : w' = w
    · subst hw
      rw [workers_setWorker, hadded]
    · rw [workers_setWorker_of_ne hw]
  refine ⟨fun w' => ?_, ?_, ?_, ?_, ?_⟩
  · by_cases hw : w' = w
    · subst hw
      rwa [workers_setWorker]
    · rw [workers_setWorker_of_ne hw]
      exact h.lone w'
  · simp only [hadd]
    exact h.numbered
  · simp only [hadd]
    exact h.sorted
  · simp only [hadd]
    exact h.placed
  · simp only [hadd]
    intro w₁ w₂ a ha b hb hlt hhash
    refine (h.together w₁ w₂ a ha b hb hlt hhash).imp_right fun hdone => ?_
    by_cases hw : w₁ = w
    · subst hw
      rw [workers_setWorker]
      exact hfinished hdone
    · rwa [workers_setWorker_of_ne hw]

theorem Inv.lt_length (h : s.Inv hashVal) {w : Fin size} {entry : Nat × τ}
    (hentry : entry ∈ (s.workers w).added) : entry.1 < s.submitted.length :=
  (List.getElem?_eq_some_iff.mp (h.numbered w entry hentry)).1

/-- What a worker has and has not finished is still with it. -/
theorem Inv.pending (h : s.Inv hashVal) {w : Fin size} {entry : Nat × τ}
    (hentry : entry ∈ (s.workers w).added) : entry ∈ (s.workers w).finished ∨
      entry ∈ ((s.workers w).running ()).toList ++ (s.workers w).queue := by
  have hlone := h.lone w
  rwa [hlone.added, hlone.taken, List.append_assoc, List.mem_append] at hentry

/-- A task goes to the worker that has the unfinished ones with its hash value. -/
theorem Inv.submit {task : τ} {random : Nat} (h : s.Inv hashVal)
    (hpicks : s.Picks hashVal (.submit task random))
    (hstep : s.step hashVal (.submit task random) = some s') : s'.Inv hashVal := by
  simp only [step, addTask] at hstep
  split at hstep
  case isFalse => cases hstep
  case isTrue hidx =>
    obtain ⟨c, hadd, rfl⟩ := Option.map_eq_some_iff.mp hstep
    have hlone := (h.lone ⟨_, hidx⟩).step hadd
    cases hadd
    generalize hw : (⟨_, hidx⟩ : Fin size) = w at hlone ⊢
    have hpick : ∀ w', ∀ entry ∈ ((s.workers w').running ()).toList ++ (s.workers w').queue,
        hashVal entry.2 = hashVal task → w' = w := by
      intro w' entry hentry hhash
      rw [← hw]
      exact Fin.ext (hpicks w' entry hentry hhash)
    generalize hc : ({ s.workers w with queue := _, added := _ } : Crew Unit (Nat × τ)) = c at hlone ⊢
    have hfinished : c.finished = (s.workers w).finished := by rw [← hc]
    have hself : c.added = (s.workers w).added ++ [(s.submitted.length, task)] := by rw [← hc]
    have hmem : ∀ w' entry, entry ∈ ((s.setWorker w c).workers w').added ↔
        entry ∈ (s.workers w').added ∨ w' = w ∧ entry = (s.submitted.length, task) := by
      intro w' entry
      by_cases hw' : w' = w
      · subst hw'
        simp [hself]
      · simp [workers_setWorker_of_ne hw', hw']
    have hdone : ∀ w', ((s.setWorker w c).workers w').finished = (s.workers w').finished := by
      intro w'
      by_cases hw' : w' = w
      · subst hw'
        rw [workers_setWorker, hfinished]
      · rw [workers_setWorker_of_ne hw']
    refine ⟨fun w' => ?_, fun w' entry hentry => ?_, fun w' => ?_, fun n hn => ?_, ?_⟩
    · by_cases hw' : w' = w
      · subst hw'
        simpa using hlone
      · have hold := h.lone w'
        rwa [← workers_setWorker_of_ne hw' c] at hold
    · obtain hentry | ⟨rfl, rfl⟩ := (hmem w' entry).mp hentry
      · exact (List.getElem?_append_left (h.lt_length hentry)).trans (h.numbered w' entry hentry)
      · exact List.getElem?_concat_length
    · by_cases hw' : w' = w
      · subst hw'
        have hold := h.sorted w'
        change ((s.setWorker w' c).workers w').added.map Prod.fst |>.Pairwise _
        rw [workers_setWorker, hself, List.map_append, List.pairwise_append]
        refine ⟨hold, List.pairwise_singleton .., fun m hm n hn => ?_⟩
        obtain ⟨entry, hentry, rfl⟩ := List.mem_map.mp hm
        obtain rfl : n = s.submitted.length := by simpa using hn
        exact h.lt_length hentry
      · have hold := h.sorted w'
        rwa [← workers_setWorker_of_ne hw' c] at hold
    · rw [List.length_append, List.length_singleton] at hn
      obtain hlt | rfl := Nat.lt_succ_iff_lt_or_eq.mp hn
      · obtain ⟨w', entry, hentry, hnum⟩ := h.placed n hlt
        exact ⟨w', entry, (hmem w' entry).mpr (.inl hentry), hnum⟩
      · exact ⟨w, _, (hmem w _).mpr (.inr ⟨rfl, rfl⟩), rfl⟩
    · intro w₁ w₂ a ha b hb hlt hhash
      change w₁ = w₂ ∨ a ∈ ((s.setWorker w c).workers w₁).finished
      rw [hdone]
      obtain haold | ⟨rfl, rfl⟩ := (hmem w₁ a).mp ha
      · obtain hbold | ⟨rfl, rfl⟩ := (hmem w₂ b).mp hb
        · exact h.together w₁ w₂ a haold b hbold hlt hhash
        · -- the new task against one that was submitted before
          exact (h.pending haold).symm.imp_left fun hpending => hpick w₁ a hpending hhash
      · obtain hbold | ⟨rfl, rfl⟩ := (hmem w₂ b).mp hb
        · exact absurd (h.lt_length hbold) (Nat.lt_asymm hlt)
        · exact absurd hlt (Nat.lt_irrefl _)

theorem Inv.step {e : Event τ size} (h : s.Inv hashVal) (hpicks : s.Picks hashVal e)
    (hstep : s.step hashVal e = some s') : s'.Inv hashVal := by
  cases e with
  | submit task random => exact h.submit hpicks hstep
  | take w =>
    obtain ⟨c, htake, rfl⟩ := Option.map_eq_some_iff.mp hstep
    exact h.setWorker ((h.lone w).step htake) (Crew.added_of_take htake) (Crew.finished_subset htake)
  | finish w =>
    obtain ⟨c, hfinish, rfl⟩ := Option.map_eq_some_iff.mp hstep
    exact h.setWorker ((h.lone w).step hfinish) (Crew.added_of_finish hfinish)
      (Crew.finished_subset hfinish)

theorem Inv.inOrder (h : s.Inv hashVal) : s.InOrder hashVal := by
  intro m n a b ha hb hlt hhash hbegun
  obtain ⟨w', entry', htaken, rfl⟩ := hbegun
  have hadded' : entry' ∈ (s.workers w').added := by
    rw [(h.lone w').added]
    exact List.mem_append_left _ htaken
  obtain ⟨w, entry, hadded, rfl⟩ := h.placed m (List.getElem?_eq_some_iff.mp ha).1
  have hentry : entry.2 = a := Option.some.inj ((h.numbered w entry hadded).symm.trans ha)
  have hentry' : entry'.2 = b := Option.some.inj ((h.numbered w' entry' hadded').symm.trans hb)
  refine ⟨w, entry, ?_, rfl⟩
  obtain rfl | hfinished :=
    h.together w w' entry hadded entry' hadded' hlt (by rw [hentry, hentry', hhash])
  · exact (h.lone w).finished_of_lt (h.sorted w) hadded htaken hlt
  · exact hfinished

/-- Tasks with the same hash value run in the order in which they were submitted, if each goes to
the worker of the earlier ones. -/
theorem tasks_in_order
    (h : Run.Reaches (step hashVal) (Picks hashVal) ({} : CImThreadPool τ size) s) :
    s.InOrder hashVal := by
  have hinv : s.Inv hashVal := by
    refine h.invariant (fun s => s.Inv hashVal) inv_init ?_
    intro s e s' hs hpicks hstep
    exact hs.step hpicks hstep
  exact hinv.inOrder

instance (s : CImThreadPool τ size) (n : Nat) : Decidable (s.Begun n) :=
  inferInstanceAs (Decidable (∃ _, ∃ _ ∈ _, _))

instance (s : CImThreadPool τ size) (n : Nat) : Decidable (s.Finished n) :=
  inferInstanceAs (Decidable (∃ _, ∃ _ ∈ _, _))

instance (s : CImThreadPool τ size) : (e : Event τ size) → Decidable (s.Picks hashVal e)
  | .submit .. => inferInstanceAs (Decidable (∀ _, _))
  | .take _ | .finish _ => isTrue trivial

end CImThreadPool

/-- The characters of a text are signed. -/
def bkdrHash (str : List UInt8) : UInt32 :=
  (str.takeWhile (· ≠ 0)).foldl (fun hash c => hash * 31 + c.toInt8.toInt32.toUInt32) 0

namespace Msg

structure OfflineMsgKeys where
  toId : String
  cmdId : UInt32
  msgId : String
  deriving DecidableEq, Repr

def OfflineMsgKeys.hashVal (keys : OfflineMsgKeys) : UInt32 := bkdrHash (CText.bytes keys.toId)

def OfflineMsg.keys (doc : OfflineMsg) : OfflineMsgKeys := ⟨doc.toId, doc.cmdId, doc.msgId⟩

def OfflineMsg.hashVal (doc : OfflineMsg) : UInt32 := doc.keys.hashVal

/-- The tasks of the asynchronous operations of a collection, with the document or the keys that
they were called with. -/
inductive CollectionTask where
  | insertOne (doc : OfflineMsg)
  | updateOne (key : OfflineMsgKeys) (doc : OfflineMsg)
  | delOne (key : OfflineMsgKeys)
  deriving DecidableEq, Repr

def CollectionTask.hashVal : CollectionTask → UInt32
  | .insertOne doc => doc.hashVal
  | .updateOne key _ | .delOne key => key.hashVal

open CImThreadPool

/-- A deletion does not begin before the insertions for the same receiver that were submitted
earlier are finished. -/
theorem insertion_before_deletion {size m n : Nat} {s : CImThreadPool CollectionTask size}
    {doc : OfflineMsg} {key : OfflineMsgKeys} (h : s.InOrder CollectionTask.hashVal)
    (hinsert : s.submitted[m]? = some (.insertOne doc)) (hdel : s.submitted[n]? = some (.delOne key))
    (hlt : m < n) (hkey : key.toId = doc.toId) (hbegun : s.Begun n) : s.Finished m := by
  refine h m n _ _ hinsert hdel hlt ?_ hbegun
  simp only [CollectionTask.hashVal, OfflineMsg.hashVal, OfflineMsgKeys.hashVal, OfflineMsg.keys, hkey]

/-- A chat is inserted and deleted, and the two workers take the tasks in turn. -/
def insertAndDelete (random : Nat) : List (Event CollectionTask 2) :=
  let doc : OfflineMsg :=
    { msgId := "1", fromId := "a", toId := "b", cmdId := mesChatDeliver, msgData := .other "hi",
      createTime := 0 }
  [.submit (.insertOne doc) 0, .submit (.delOne doc.keys) random, .take ⟨random % 2, by omega⟩]

/-- The worker finishes the insertion, and then the deletion. -/
def insertThenDelete : List (Event CollectionTask 2) :=
  let worker : Fin 2 := ⟨0, Nat.zero_lt_two⟩
  insertAndDelete 2 ++ [.finish worker, .take worker, .finish worker]

theorem tasks_in_order_insertThenDelete :
    (∃ s ∈ Run.runGood (step CollectionTask.hashVal) (Picks CollectionTask.hashVal) {}
        insertThenDelete, s.Begun 1 ∧ s.Finished 1) ∧
      ∀ s ∈ Run.runGood (step CollectionTask.hashVal) (Picks CollectionTask.hashVal) {}
        insertThenDelete, s.InOrder CollectionTask.hashVal :=
  ⟨by decide +kernel, fun _ hrun => tasks_in_order (Run.reaches_of_runGood hrun)⟩

theorem not_tasks_in_order :
    ¬ ∀ s : CImThreadPool CollectionTask 2,
        Run.Reaches (step CollectionTask.hashVal) (fun _ _ => True) {} s →
          s.InOrder CollectionTask.hashVal := by
  intro hkept
  obtain ⟨s, hs⟩ := Option.isSome_iff_exists.mp
    (by decide +kernel :
      (Run.runGood (step CollectionTask.hashVal) (fun _ _ => True) {} (insertAndDelete 1)).isSome)
  have hbad : ∀ s ∈ Run.runGood (step CollectionTask.hashVal) (fun _ _ => True) {} (insertAndDelete 1),
      (∃ a ∈ s.submitted[0]?, ∃ b ∈ s.submitted[1]?, a.hashVal = b.hashVal) ∧
        s.Begun 1 ∧ ¬ s.Finished 0 := by decide +kernel
  obtain ⟨⟨a, ha, b, hb, hhash⟩, hbegun, hfinished⟩ := hbad s hs
  have horder := hkept s (Run.reaches_of_runGood hs)
  exact hfinished (horder 0 1 a b ha hb Nat.one_pos hhash hbegun)

end Msg

end ImServer
