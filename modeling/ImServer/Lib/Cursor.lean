import Mathlib.Data.List.Basic
import Mathlib.Data.List.Nodup

/-!
# A cursor in a list that changes

The nodes of a list have identities, and a cursor holds the identity of the node it stands at, or
none at the end. While the list is walked, nodes may be changed, taken out and put at the end. The
cursor stays inside as long as its own node is not taken out, and what is at its end stays there.
-/

namespace Cursor

universe u v

variable {α : Type u} {ι : Type v} (ident : α → ι)

/-- The node behind the node `i`. -/
def nextOf [DecidableEq ι] (l : List α) (i : ι) : Option ι :=
  ((l.dropWhile fun a => ident a ≠ i).drop 1).head?.map ident

/-- The nodes in front of the cursor. -/
def passed [DecidableEq ι] (l : List α) : Option ι → List α
  | none => l
  | some i => l.takeWhile fun a => ident a ≠ i

/-- The cursor stands between `front` and `back`. -/
structure At (l : List α) (it : Option ι) (front back : List α) : Prop where
  split : l = front ++ back
  head : it = back.head?.map ident

variable {ident} {l front back : List α} {it : Option ι} {i : ι}

theorem At.start (l : List α) : At ident l (l.head?.map ident) [] l := ⟨rfl, rfl⟩

theorem At.exists_cons (h : At ident l (some i) front back) :
    ∃ a rest, back = a :: rest ∧ ident a = i := by
  cases back with
  | nil => cases h.head
  | cons a rest => exact ⟨a, rest, rfl, (Option.some.inj h.head).symm⟩

theorem At.eq_nil (h : At ident l none front back) : back = [] := by
  cases back with
  | nil => rfl
  | cons a rest => cases h.head

section Distinct

variable {a : α} {rest : List α}

/-- No node in front has the identity of the node at the cursor. -/
theorem ne_of_mem_front (hids : ((front ++ a :: rest).map ident).Nodup) :
    ∀ b ∈ front, ident b ≠ ident a := by
  intro b hb
  rw [List.map_append, List.map_cons] at hids
  exact (List.nodup_append.mp hids).2.2 _ (List.mem_map_of_mem hb) _ List.mem_cons_self

variable [DecidableEq ι]

theorem find?_eq (hids : ((front ++ a :: rest).map ident).Nodup) :
    (front ++ a :: rest).find? (fun b => ident b = ident a) = some a := by
  have hfront : front.find? (fun b => decide (ident b = ident a)) = none := by
    apply List.find?_eq_none.mpr
    intro b hb
    simpa using ne_of_mem_front hids b hb
  rw [List.find?_append, hfront, Option.none_or]
  exact List.find?_cons_of_pos (by simp)

theorem At.next (hids : ((front ++ a :: rest).map ident).Nodup) :
    At ident (front ++ a :: rest) (nextOf ident (front ++ a :: rest) (ident a)) (front ++ [a])
      rest := by
  refine ⟨by rw [List.append_assoc, List.singleton_append], ?_⟩
  have hfront : ∀ b ∈ front, decide (ident b ≠ ident a) = true := by
    intro b hb
    simpa using ne_of_mem_front hids b hb
  have hhead : (a :: rest).dropWhile (fun b => ident b ≠ ident a) = a :: rest :=
    List.dropWhile_cons_of_neg (by simp)
  rw [nextOf, List.dropWhile_append_of_pos hfront, hhead]
  rfl

theorem At.passed_eq (hids : (l.map ident).Nodup) (h : At ident l it front back) :
    passed ident l it = front := by
  cases it with
  | none => rw [passed, h.split, h.eq_nil, List.append_nil]
  | some i =>
    obtain ⟨a, rest, rfl, rfl⟩ := h.exists_cons
    have hsplit := h.split
    subst hsplit
    have hfront : ∀ b ∈ front, decide (ident b ≠ ident a) = true := by
      intro b hb
      simpa using ne_of_mem_front hids b hb
    have hhead : (a :: rest).takeWhile (fun b => ident b ≠ ident a) = [] :=
      List.takeWhile_cons_of_neg (by simp)
    rw [passed, List.takeWhile_append_of_pos hfront, hhead, List.append_nil]

end Distinct

theorem At.map {f : α → α} (hf : ∀ a, ident (f a) = ident a) (h : At ident l it front back) :
    At ident (l.map f) it (front.map f) (back.map f) := by
  refine ⟨by rw [h.split, List.map_append], ?_⟩
  rw [h.head, List.head?_map, Option.map_map]
  congr 1
  funext a
  exact (hf a).symm

/-- A node is put at the end, behind a cursor that stands at a node. -/
theorem At.push_some (h : At ident l (some i) front back) (a : α) :
    At ident (l ++ [a]) (some i) front (back ++ [a]) := by
  refine ⟨by rw [h.split, List.append_assoc], ?_⟩
  obtain ⟨b, rest, rfl, hb⟩ := h.exists_cons
  rw [h.head]
  rfl

theorem At.push_none (h : At ident l none front back) (a : α) :
    At ident (l ++ [a]) none (front ++ [a]) [] := by
  refine ⟨?_, rfl⟩
  rw [h.split, h.eq_nil, List.append_nil, List.append_nil]

/-- A node is taken out that the cursor does not stand at. -/
theorem At.eraseP {p : α → Bool} (h : At ident l it front back)
    (hp : ∀ a ∈ back.head?, p a = false) :
    ∃ front' back', At ident (l.eraseP p) it front' back' ∧ back'.Sublist back := by
  by_cases hfront : ∃ a ∈ front, p a = true
  · obtain ⟨a, ha, hpa⟩ := hfront
    refine ⟨front.eraseP p, back, ⟨?_, h.head⟩, List.Sublist.refl back⟩
    rw [h.split, List.eraseP_append_left hpa back ha]
  · have hnone : ∀ a ∈ front, ¬p a = true := fun a ha hpa => hfront ⟨a, ha, hpa⟩
    refine ⟨front, back.eraseP p, ⟨?_, ?_⟩, List.eraseP_sublist⟩
    · rw [h.split, List.eraseP_append_right back hnone]
    · rw [h.head]
      cases back with
      | nil => rfl
      | cons a rest =>
        rw [List.eraseP_cons_of_neg (by rw [hp a rfl]; exact Bool.false_ne_true)]
        rfl

end Cursor
