import Mathlib.Data.List.Basic

/-!
# Cutting a stream into frames

A framing rule says, for the items received so far, how long the frame at the
front is once it is complete. The rule is prefix-stable: items that arrive later
never change a decision already made. From stability alone the frames of a
stream and its unfinished remainder do not depend on how the stream was cut
into pieces on its way to the receiver.
-/

namespace Framing

/-- The size of a complete first frame. It is positive, lies inside the items
received, and does not change when more items follow. -/
structure Rule (α : Type*) where
  size? : List α → Option Nat
  pos : ∀ {xs n}, size? xs = some n → 0 < n
  le : ∀ {xs n}, size? xs = some n → n ≤ xs.length
  stable : ∀ {xs n} (ys), size? xs = some n → size? (xs ++ ys) = some n

variable {α : Type*} (r : Rule α)

/-- All complete frames of a stream, and the remainder behind the last one. -/
def split (xs : List α) : List (List α) × List α :=
  match _h : r.size? xs with
  | none => ([], xs)
  | some n =>
    let rest := split (xs.drop n)
    (xs.take n :: rest.1, rest.2)
termination_by xs.length
decreasing_by
  have := r.pos _h
  have := r.le _h
  simp only [List.length_drop]
  omega

theorem split_of_none {xs : List α} (h : r.size? xs = none) : split r xs = ([], xs) := by
  rw [split]
  split
  · rfl
  · next heq =>
    rw [h] at heq
    cases heq

theorem split_of_some {xs : List α} {n : Nat} (h : r.size? xs = some n) :
    split r xs = (xs.take n :: (split r (xs.drop n)).1, (split r (xs.drop n)).2) := by
  rw [split]
  split
  · next heq =>
    rw [h] at heq
    cases heq
  · next k heq =>
    rw [h] at heq
    cases heq
    rfl

theorem split_induction {motive : List α → Prop}
    (incomplete : ∀ xs, r.size? xs = none → motive xs)
    (frame : ∀ xs n, r.size? xs = some n → motive (xs.drop n) → motive xs) (xs : List α) :
    motive xs := by
  induction hlen : xs.length using Nat.strongRecOn generalizing xs with
  | ind k ih =>
    cases hs : r.size? xs with
    | none => exact incomplete xs hs
    | some n =>
      have hpos := r.pos hs
      have hle := r.le hs
      refine frame xs n hs (ih (xs.drop n).length ?_ _ rfl)
      simp only [List.length_drop]
      omega

theorem size?_remainder (xs : List α) : r.size? (split r xs).2 = none := by
  induction xs using split_induction r with
  | incomplete xs hs =>
    rw [split_of_none r hs]
    exact hs
  | frame xs n hs ih =>
    rw [split_of_some r hs]
    exact ih

theorem length_remainder_le (xs : List α) : (split r xs).2.length ≤ xs.length := by
  induction xs using split_induction r with
  | incomplete xs hs => simp only [split_of_none r hs, Nat.le_refl]
  | frame xs n hs ih =>
    rw [split_of_some r hs]
    refine Nat.le_trans ih ?_
    rw [List.length_drop]
    exact Nat.sub_le _ _

/-- A piece that arrives later continues exactly from the old remainder. -/
theorem split_append (xs ys : List α) :
    split r (xs ++ ys) = ((split r xs).1 ++ (split r ((split r xs).2 ++ ys)).1,
      (split r ((split r xs).2 ++ ys)).2) := by
  induction xs using split_induction r with
  | incomplete xs hs => simp [split_of_none r hs]
  | frame xs n hs ih =>
    rw [split_of_some r (r.stable ys hs), split_of_some r hs,
      List.take_append_of_le_length (r.le hs), List.drop_append_of_le_length (r.le hs), ih]
    simp

/-- A frame recognised on its own is the first frame of any stream it begins. -/
theorem split_frame_append {x : List α} (hx : r.size? x = some x.length) (ys : List α) :
    split r (x ++ ys) = (x :: (split r ys).1, (split r ys).2) := by
  rw [split_of_some r (r.stable ys hx), List.take_left, List.drop_left]

/-- A concatenation of frames followed by an unfinished one is cut back into them. -/
theorem split_flatten_append {frames : List (List α)} {tail : List α}
    (hframes : ∀ x ∈ frames, r.size? x = some x.length) (htail : r.size? tail = none) :
    split r (frames.flatten ++ tail) = (frames, tail) := by
  induction frames with
  | nil => exact split_of_none r htail
  | cons x frames ih =>
    rw [List.flatten_cons, List.append_assoc,
      split_frame_append r (hframes x List.mem_cons_self),
      ih (fun y hy => hframes y (List.mem_cons_of_mem x hy))]

end Framing
