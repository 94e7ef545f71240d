import Mathlib.Logic.Function.Basic

/-!
# One-shot watches

A store whose clients leave a watch on each key that they read. The first change of the key
removes the watch and sends the client a notice, and the notices of a client arrive in order,
some time later. What a client has read last is then what the store has, or a notice about the
key is on its way to it.
-/

namespace Watch

/-- What is stored, who watches what, and the notices that are on their way. -/
structure Store (κ α ι : Type*) where
  content : κ → α
  watched : ι → κ → Bool
  notices : ι → List κ

namespace Store

variable {κ α ι : Type*} (s : Store κ α ι)

/-- A client reads a key, and leaves a watch. -/
def read [DecidableEq κ] [DecidableEq ι] (i : ι) (k : κ) : Store κ α ι :=
  { s with watched := Function.update s.watched i (Function.update (s.watched i) k true) }

/-- A key gets new content, and the clients that watch it are told. -/
def change [DecidableEq κ] (k : κ) (a : α) : Store κ α ι where
  content := Function.update s.content k a
  watched i k' := s.watched i k' && k' ≠ k
  notices i := if s.watched i k then s.notices i ++ [k] else s.notices i

/-- The next notice of a client arrives. -/
def arrive [DecidableEq ι] (i : ι) : Store κ α ι :=
  { s with notices := Function.update s.notices i (s.notices i).tail }

/-- A client is gone, with its watches. -/
def leave [DecidableEq ι] (i : ι) : Store κ α ι :=
  { s with watched := Function.update s.watched i fun _ => false }

/-- What the client has read of the key is there, or it is going to be told of a change. -/
def Current (i : ι) (k : κ) (a : α) : Prop :=
  k ∈ s.notices i ∨ (s.watched i k = true ∧ s.content k = a)

variable {s} {i i' : ι} {k k' : κ} {a a' : α}

@[simp] theorem change_content [DecidableEq κ] :
    (s.change k a).content = Function.update s.content k a := rfl

@[simp] theorem arrive_content [DecidableEq ι] : (s.arrive i).content = s.content := rfl

@[simp] theorem leave_content [DecidableEq ι] : (s.leave i).content = s.content := rfl

theorem Current.eq (h : s.Current i k a) (hquiet : k ∉ s.notices i) : s.content k = a :=
  (h.resolve_left hquiet).2

section Read

variable [DecidableEq κ] [DecidableEq ι]

@[simp] theorem read_content : (s.read i k).content = s.content := rfl

@[simp] theorem read_notices : (s.read i k).notices = s.notices := rfl

theorem current_read : (s.read i k).Current i k (s.content k) := by
  refine .inr ⟨?_, rfl⟩
  simp only [Store.read, Function.update_self]

theorem Current.read (h : s.Current i k a) (i' : ι) (k' : κ) : (s.read i' k').Current i k a := by
  obtain hnotice | ⟨hwatched, hcontent⟩ := h
  · exact .inl hnotice
  · refine .inr ⟨?_, hcontent⟩
    by_cases hi : i = i'
    · subst hi
      simp only [Store.read, Function.update_self]
      by_cases hk : k = k'
      · rw [hk, Function.update_self]
      · rw [Function.update_of_ne hk, hwatched]
    · simp only [Store.read, Function.update_of_ne hi, hwatched]

end Read

theorem Current.change [DecidableEq κ] (h : s.Current i k a) (k' : κ) (a' : α) :
    (s.change k' a').Current i k a := by
  have hkept : k ∈ s.notices i → k ∈ (s.change k' a').notices i := by
    intro hnotice
    simp only [Store.change]
    split
    · exact List.mem_append_left _ hnotice
    · exact hnotice
  obtain hnotice | ⟨hwatched, hcontent⟩ := h
  · exact .inl (hkept hnotice)
  · by_cases hk : k = k'
    · subst hk
      refine .inl ?_
      simp only [Store.change, hwatched, if_true]
      exact List.mem_append_right _ List.mem_cons_self
    · refine .inr ⟨?_, ?_⟩
      · simp only [Store.change, hwatched, Bool.true_and]
        exact decide_eq_true hk
      · rw [change_content, Function.update_of_ne hk, hcontent]

/-- A notice about another key, or of another client, says nothing about this one. -/
theorem Current.arrive [DecidableEq ι] {rest : List κ} (h : s.Current i k a)
    (hnext : s.notices i' = k' :: rest) (hother : i = i' → k ≠ k') :
    (s.arrive i').Current i k a := by
  obtain hnotice | hcontent := h
  · refine .inl ?_
    by_cases hi : i = i'
    · subst hi
      rw [hnext] at hnotice
      simp only [Store.arrive, Function.update_self, hnext, List.tail_cons]
      exact (List.mem_cons.mp hnotice).resolve_left (hother rfl)
    · simp only [Store.arrive, Function.update_of_ne hi]
      exact hnotice
  · exact .inr hcontent

theorem Current.leave [DecidableEq ι] (h : s.Current i k a) (hother : i ≠ i') :
    (s.leave i').Current i k a := by
  obtain hnotice | ⟨hwatched, hcontent⟩ := h
  · exact .inl hnotice
  · refine .inr ⟨?_, hcontent⟩
    simp only [Store.leave, Function.update_of_ne hother, hwatched]

end Store

end Watch
