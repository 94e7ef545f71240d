import Mathlib.Data.List.Basic

/-!
# Bounded blocks of memory

A block is the list of the cells that an allocator handed out. Copies into and
out of a block are partial: they exist only when every cell they touch lies
inside the block. A program that steps outside has no defined result, and the
partiality keeps that visible instead of assigning a made-up value.

The lemmas describe each access by the prefix of the block below some offset,
because a growing buffer only ever gives a meaning to such a prefix.
-/

namespace Block

variable {α : Type*}

/-- Change the size of a block. The common prefix survives; new cells hold `fill`. -/
def resize (fill : α) (block : List α) (n : Nat) : List α :=
  block.take n ++ List.replicate (n - block.length) fill

/-- Read `len` cells starting at `off`. -/
def slice? (block : List α) (off len : Nat) : Option (List α) :=
  if off + len ≤ block.length then some ((block.drop off).take len) else none

/-- Overwrite the cells starting at `off` by `src`. -/
def store? (block : List α) (off : Nat) (src : List α) : Option (List α) :=
  if off + src.length ≤ block.length then
    some (block.take off ++ (src ++ block.drop (off + src.length)))
  else none

@[simp] theorem length_resize (fill : α) (block : List α) (n : Nat) :
    (resize fill block n).length = n := by
  simp only [resize, List.length_append, List.length_take, List.length_replicate]
  omega

theorem take_resize {fill : α} {block : List α} {k n : Nat}
    (hk : k ≤ block.length) (hn : k ≤ n) : (resize fill block n).take k = block.take k := by
  rw [resize, List.take_append_of_le_length (by simp only [List.length_take]; omega),
    List.take_take, Nat.min_eq_left hn]

theorem slice?_of_le {block : List α} {off len : Nat} (h : off + len ≤ block.length) :
    slice? block off len = some ((block.drop off).take len) := if_pos h

theorem slice?_of_lt {block : List α} {off len : Nat} (h : block.length < off + len) :
    slice? block off len = none := if_neg (by omega)

theorem slice?_head {part back : List α} {n : Nat} (hn : part.length = n) :
    slice? (part ++ back) 0 n = some part := by
  subst hn
  rw [slice?_of_le (by simp only [List.length_append]; omega), List.drop_zero, List.take_left]

/-- A read behind a known front part is a read of what follows it. -/
theorem slice?_skip {front block : List α} {k off len : Nat} (hk : front.length = k) :
    slice? (front ++ block) (k + off) len = slice? block off len := by
  subst hk
  unfold slice?
  rw [List.length_append, ← List.drop_drop, List.drop_left]
  split <;> split <;> first | rfl | omega

theorem store?_of_le {block src : List α} {off : Nat} (h : off + src.length ≤ block.length) :
    store? block off src =
      some (block.take off ++ (src ++ block.drop (off + src.length))) := if_pos h

theorem store?_of_lt {block src : List α} {off : Nat} (h : block.length < off + src.length) :
    store? block off src = none := if_neg (by omega)

theorem store?_head {part back src : List α} (h : part.length = src.length) :
    store? (part ++ back) 0 src = some (src ++ back) := by
  rw [store?_of_le (by simp only [List.length_append]; omega), Nat.zero_add, ← h, List.drop_left,
    List.take_zero, List.nil_append]

/-- A store behind a known front part is a store into what follows it. -/
theorem store?_skip {front block src : List α} {k off : Nat} (hk : front.length = k) :
    store? (front ++ block) (k + off) src = (store? block off src).map (front ++ ·) := by
  subst hk
  by_cases hle : off + src.length ≤ block.length
  · rw [store?_of_le hle, store?_of_le (by simp only [List.length_append]; omega),
      List.take_length_add_append, Nat.add_assoc, ← List.drop_drop, List.drop_left,
      Option.map_some, List.append_assoc]
  · have hshort : block.length < off + src.length := by omega
    rw [store?_of_lt hshort, store?_of_lt (by simp only [List.length_append]; omega),
      Option.map_none]

theorem store?_eq_some {block src result : List α} {off : Nat}
    (h : store? block off src = some result) :
    off + src.length ≤ block.length ∧
      result = block.take off ++ (src ++ block.drop (off + src.length)) := by
  by_cases hle : off + src.length ≤ block.length
  · rw [store?_of_le hle] at h
    exact ⟨hle, (Option.some.inj h).symm⟩
  · rw [store?_of_lt (by omega)] at h
    cases h

theorem length_of_store? {block src result : List α} {off : Nat}
    (h : store? block off src = some result) : result.length = block.length := by
  obtain ⟨hle, rfl⟩ := store?_eq_some h
  simp only [List.length_append, List.length_take, List.length_drop]
  omega

/-- Appending at the end of a prefix extends that prefix by the stored cells. -/
theorem take_of_store? {block src result : List α} {off : Nat}
    (h : store? block off src = some result) :
    result.take (off + src.length) = block.take off ++ src := by
  obtain ⟨hle, rfl⟩ := store?_eq_some h
  have hlen : (block.take off ++ src).length = off + src.length := by
    simp only [List.length_append, List.length_take]
    omega
  rw [← List.append_assoc, List.take_append_of_le_length (Nat.le_of_eq hlen.symm)]
  exact List.take_of_length_le (Nat.le_of_eq hlen)

theorem exists_cut {l : List α} {n : Nat} (h : n ≤ l.length) :
    ∃ front back, l = front ++ back ∧ front.length = n :=
  ⟨l.take n, l.drop n, (List.take_append_drop n l).symm, List.length_take_of_le h⟩

end Block
