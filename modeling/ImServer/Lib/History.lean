import Mathlib.Data.List.Basic
import Mathlib.Data.List.Infix

/-!
# A queue that is to hold the last messages

Messages are pushed at one end and popped at the other, and one may be cancelled in between. Each
message of the queue has its number, which says how many were pushed before it; what was pushed and
cancelled so far is kept beside the queue.
-/

universe u

structure History (α : Type u) where
  queue : List (α × Nat) := []
  pushed : List α := []
  cancelled : List Nat := []

namespace History

variable {α : Type u} {h : History α} {size n : Nat}

def texts (h : History α) : List α := h.queue.map Prod.fst

def push (h : History α) (a : α) : History α :=
  { h with queue := h.queue ++ [(a, h.pushed.length)], pushed := h.pushed ++ [a] }

def pop (h : History α) : History α := { h with queue := h.queue.tail }

/-- The last message with this text is cancelled. Those with the same text that are older stay. -/
def remove [DecidableEq α] (h : History α) (a : α) : History α :=
  match h.queue.reverse.find? (·.1 = a) with
  | none => h
  | some entry =>
    { h with
      queue := (h.queue.reverse.erase entry).reverse
      cancelled := h.cancelled ++ [entry.2] }

/-- The message is among the last `size` that were pushed. -/
def Latest (h : History α) (size n : Nat) : Prop := h.pushed.length ≤ n + size

instance (h : History α) (size n : Nat) : Decidable (h.Latest size n) := Nat.decLe _ _

/-- The queue holds those of the last `size` messages that were not cancelled. -/
def Recent (h : History α) (size : Nat) : Prop :=
  ∀ n a, h.pushed[n]? = some a → h.Latest size n → n ∉ h.cancelled → (a, n) ∈ h.queue

/-- What is popped next, if anything, is not one of the last `size`. -/
def Surplus (h : History α) (size : Nat) : Prop := ∀ entry ∈ h.queue.head?, ¬ h.Latest size entry.2

instance (h : History α) (size : Nat) : Decidable (h.Surplus size) :=
  inferInstanceAs (Decidable (∀ entry ∈ h.queue.head?, _))

/-- No message was taken out but at the end where messages are popped. -/
def Uncut (h : History α) : Prop := h.cancelled = [] → h.queue <:+ h.pushed.zipIdx

@[simp] theorem length_queue_push (a : α) : (h.push a).queue.length = h.queue.length + 1 := by
  simp [push]

@[simp] theorem length_queue_pop : h.pop.queue.length = h.queue.length - 1 := by
  simp [pop]

theorem length_queue_remove [DecidableEq α] (a : α) :
    (h.remove a).queue.length ≤ h.queue.length := by
  unfold remove
  split
  · exact Nat.le_refl _
  · rename_i entry _
    have herase := (List.erase_sublist (a := entry) (l := h.queue.reverse)).length_le
    simpa using herase

theorem Recent.start : ({} : History α).Recent size := by
  intro n a hn
  simp at hn

theorem Recent.push (hr : h.Recent size) (a : α) : (h.push a).Recent size := by
  intro n b hn hlatest hcancel
  unfold Latest History.push at hlatest
  simp only [List.length_append, List.length_singleton] at hlatest
  refine List.mem_append.mpr ?_
  by_cases hlt : n < h.pushed.length
  · have hold : h.pushed[n]? = some b := by
      rw [← hn]
      exact (List.getElem?_append_left hlt).symm
    exact Or.inl (hr n b hold (by unfold Latest; omega) hcancel)
  · have hn' : (h.pushed ++ [a])[n]? = some b := hn
    have hbound := (List.getElem?_eq_some_iff.mp hn').1
    rw [List.length_append, List.length_singleton] at hbound
    have hlast : n = h.pushed.length := by omega
    subst hlast
    rw [List.getElem?_concat_length] at hn'
    cases hn'
    exact Or.inr (List.mem_singleton.mpr rfl)

theorem Recent.pop (hr : h.Recent size) (hsurplus : h.Surplus size) : h.pop.Recent size := by
  intro n a hn hlatest hcancel
  have hmem := hr n a hn hlatest hcancel
  unfold Surplus at hsurplus
  unfold History.pop
  cases hqueue : h.queue with
  | nil =>
    rw [hqueue] at hmem
    cases hmem
  | cons entry rest =>
    rw [hqueue] at hmem hsurplus
    obtain heq | hrest := List.mem_cons.mp hmem
    · subst heq
      exact absurd hlatest (hsurplus _ rfl)
    · exact hrest

theorem Recent.remove [DecidableEq α] (hr : h.Recent size) (a : α) :
    (h.remove a).Recent size := by
  unfold History.remove
  split
  · exact hr
  · rename_i entry _
    intro n b hn hlatest hcancel
    have hmem := hr n b hn hlatest fun hold => hcancel (List.mem_append_left _ hold)
    have hne : (b, n) ≠ entry := by
      rintro rfl
      exact hcancel (List.mem_append_right _ (List.mem_singleton.mpr rfl))
    rw [List.mem_reverse, List.mem_erase_of_ne hne, List.mem_reverse]
    exact hmem

theorem Uncut.start : ({} : History α).Uncut := fun _ => List.suffix_refl _

theorem Uncut.push (hu : h.Uncut) (a : α) : (h.push a).Uncut := by
  intro hcancel
  obtain ⟨popped, hpopped⟩ := hu hcancel
  refine ⟨popped, ?_⟩
  unfold History.push
  rw [← List.append_assoc, hpopped, List.zipIdx_append]
  simp

theorem Uncut.pop (hu : h.Uncut) : h.pop.Uncut := fun hcancel =>
  (List.tail_suffix h.queue).trans (hu hcancel)

theorem Uncut.remove [DecidableEq α] (hu : h.Uncut) (a : α) : (h.remove a).Uncut := by
  unfold History.remove
  split
  · exact hu
  · intro hcancel
    simp at hcancel

/-- If none was cancelled, what is popped next is not among the last exactly when the queue is too
long, or there is nothing to pop. -/
theorem surplus_iff (hu : h.Uncut) (hcancel : h.cancelled = []) :
    h.Surplus size ↔ h.queue = [] ∨ size < h.queue.length := by
  have hqueue := List.suffix_iff_eq_drop.mp (hu hcancel)
  have htotal := (hu hcancel).length_le
  rw [List.length_zipIdx] at hqueue htotal
  cases hcons : h.queue with
  | nil => simp [Surplus, hcons]
  | cons entry rest =>
    have hhead : h.queue.head? = some entry := by rw [hcons]; rfl
    have hlength : 0 < h.queue.length := by rw [hcons]; exact Nat.succ_pos _
    have hentry : entry.2 = h.pushed.length - h.queue.length := by
      rw [hqueue, List.head?_drop, List.getElem?_zipIdx] at hhead
      obtain ⟨a, -, hpair⟩ := Option.map_eq_some_iff.mp hhead
      rw [← hpair]
      exact Nat.zero_add _
    have hsurplus : h.Surplus size ↔ ¬ h.Latest size entry.2 := by
      rw [Surplus, hhead]
      simp only [Option.mem_some_iff, forall_eq']
    rw [hsurplus, Latest, hentry, ← hcons, or_iff_right (List.ne_nil_of_length_pos hlength)]
    omega

/-- A queue that is not too long and has all it is to have holds the last messages. -/
theorem texts_eq_drop (hr : h.Recent size) (hu : h.Uncut) (hcancel : h.cancelled = [])
    (hlen : h.queue.length ≤ size) : h.texts = h.pushed.drop (h.pushed.length - size) := by
  have hqueue := List.suffix_iff_eq_drop.mp (hu hcancel)
  have htotal := (hu hcancel).length_le
  rw [List.length_zipIdx] at hqueue htotal
  have hlong : h.pushed.length - h.queue.length = h.pushed.length - size := by
    by_cases hnone : h.pushed.length - size = h.pushed.length
    · omega
    · have hlt : h.pushed.length - size < h.pushed.length := by omega
      have hmem : (h.pushed[h.pushed.length - size], h.pushed.length - size) ∈ h.queue := by
        refine hr _ _ (List.getElem?_eq_getElem hlt) ?_ ?_
        · unfold Latest
          omega
        · simp [hcancel]
      rw [hqueue] at hmem
      obtain ⟨k, hk, heq⟩ := List.mem_iff_getElem.mp hmem
      rw [List.getElem_drop, List.getElem_zipIdx] at heq
      have hidx := congrArg Prod.snd heq
      simp only at hidx
      omega
  rw [texts, hqueue, hlong, List.map_drop, List.zipIdx_map_fst]

end History
