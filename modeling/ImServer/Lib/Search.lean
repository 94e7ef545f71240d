import Mathlib.Data.List.Infix

/-!
# Searching a text

The first place where a pattern stands in a text. The patterns that are looked at here begin with a
mark which does not come up again in them, as the brackets of tags do, so two places of one pattern
do not overlap.
-/

namespace Search

universe u

variable {α : Type u}

/-- The pattern stands at a place. -/
def OccursAt (pattern text : List α) (n : ℕ) : Prop := pattern <+: text.drop n

instance [DecidableEq α] (pattern text : List α) (n : ℕ) : Decidable (OccursAt pattern text n) :=
  inferInstanceAs (Decidable (pattern <+: text.drop n))

section OccursAt

variable {pattern text : List α} {n : ℕ}

theorem OccursAt.add_length_le (h : OccursAt pattern text n) (hpattern : pattern ≠ []) :
    n + pattern.length ≤ text.length := by
  have hle : pattern.length ≤ (text.drop n).length := h.length_le
  have hpos : 0 < pattern.length := List.length_pos_of_ne_nil hpattern
  rw [List.length_drop] at hle
  omega

theorem exists_occursAt_iff : (∃ n, OccursAt pattern text n) ↔ pattern <:+: text := by
  constructor
  · rintro ⟨n, hn⟩
    exact hn.isInfix.trans (List.drop_suffix n text).isInfix
  · rintro ⟨front, rest, rfl⟩
    refine ⟨front.length, rest, ?_⟩
    rw [List.append_assoc, List.drop_left]

end OccursAt

/-- The pattern does not begin in `front`, if `text` stands behind it. -/
def Skips (pattern front text : List α) : Prop :=
  ∀ n < front.length, ¬pattern <+: (front ++ text).drop n

section Skips

variable {pattern front front' text : List α} {mark : α} {rest : List α}

theorem Skips.cons {c : α} (h : ¬pattern <+: c :: (front ++ text)) (h' : Skips pattern front text) :
    Skips pattern (c :: front) text := by
  intro n hn
  cases n with
  | zero => exact h
  | succ n => exact h' n (Nat.lt_of_succ_lt_succ hn)

theorem Skips.append (h : Skips pattern front (front' ++ text)) (h' : Skips pattern front' text) :
    Skips pattern (front ++ front') text := by
  intro n hn
  rw [List.append_assoc]
  obtain hlt | hle := Nat.lt_or_ge n front.length
  · exact h n hlt
  · obtain ⟨k, rfl⟩ := Nat.exists_eq_add_of_le hle
    rw [List.drop_append, List.drop_eq_nil_of_le (Nat.le_add_right _ k), Nat.add_sub_cancel_left,
      List.nil_append]
    rw [List.length_append] at hn
    exact h' k (by omega)

theorem skips_of_notMem (h : mark ∉ front) (text : List α) : Skips (mark :: rest) front text := by
  intro n hn hprefix
  rw [List.drop_append_of_le_length hn.le, List.drop_eq_getElem_cons hn, List.cons_append]
    at hprefix
  have hhead : mark = front[n] := (List.cons_prefix_cons.mp hprefix).1
  exact h (hhead ▸ List.getElem_mem hn)

/-- In front of a mark the pattern begins only if it ends there. -/
theorem skips_of_not_infix (hrest : mark ∉ rest) (h : ¬(mark :: rest) <:+: front) (text : List α) :
    Skips (mark :: rest) front (mark :: text) := by
  intro n hn hprefix
  rw [List.drop_append_of_le_length hn.le] at hprefix
  obtain hlt | hle := Nat.lt_or_ge (front.drop n).length (mark :: rest).length
  · -- the next mark would stand in the pattern
    have hover : front.drop n ++ [mark] <+: mark :: rest := by
      refine List.prefix_of_prefix_length_le ?_ hprefix ?_
      · refine (List.prefix_append_right_inj _).mpr ?_
        exact List.cons_prefix_cons.mpr ⟨rfl, List.nil_prefix⟩
      · rw [List.length_append, List.length_singleton]
        exact hlt
    rw [List.drop_eq_getElem_cons hn, List.cons_append, List.cons_prefix_cons] at hover
    exact hrest (hover.2.subset (List.mem_append_right _ (List.mem_singleton_self mark)))
  · have hinside : (mark :: rest) <+: front.drop n :=
      List.prefix_of_prefix_length_le hprefix (List.prefix_append _ _) hle
    exact h (hinside.isInfix.trans (List.drop_suffix n front).isInfix)

end Skips

theorem append_mark_inj {mark : α} {front front' text text' : List α} (h : mark ∉ front)
    (h' : mark ∉ front') (heq : front ++ mark :: text = front' ++ mark :: text') :
    front = front' ∧ text = text' := by
  induction front generalizing front' with
  | nil =>
    cases front' with
    | nil => exact ⟨rfl, (List.cons.inj heq).2⟩
    | cons c front' => exact absurd ((List.cons.inj heq).1 ▸ List.mem_cons_self) h'
  | cons c front ih =>
    cases front' with
    | nil => exact absurd ((List.cons.inj heq).1 ▸ List.mem_cons_self) h
    | cons c' front' =>
      obtain ⟨rfl, hrest⟩ := List.cons.inj heq
      obtain ⟨rfl, htext⟩ :=
        ih (List.not_mem_of_not_mem_cons h) (List.not_mem_of_not_mem_cons h') hrest
      exact ⟨rfl, htext⟩

variable [DecidableEq α]

/-- The first place of the pattern. -/
def find (pattern : List α) : List α → Option ℕ
  | [] => if pattern = [] then some 0 else none
  | c :: text => if pattern <+: c :: text then some 0 else (find pattern text).map (· + 1)

section Find

variable {pattern front text : List α} {n : ℕ}

theorem find_append (h : Skips pattern front text) :
    find pattern (front ++ text) = (find pattern text).map (· + front.length) := by
  induction front with
  | nil =>
    rw [List.nil_append, List.length_nil]
    exact Option.map_id'.symm
  | cons c front ih =>
    have hfirst : ¬pattern <+: c :: (front ++ text) := h 0 (Nat.succ_pos _)
    have hrest : Skips pattern front text := fun n hn => h (n + 1) (Nat.succ_lt_succ hn)
    rw [List.cons_append, find, if_neg hfirst, ih hrest, Option.map_map]
    rfl

theorem find_self (pattern text : List α) : find pattern (pattern ++ text) = some 0 := by
  cases hpattern : pattern ++ text with
  | nil => exact if_pos (List.append_eq_nil_iff.mp hpattern).1
  | cons c rest =>
    rw [find, if_pos]
    rw [← hpattern]
    exact List.prefix_append pattern text

theorem find_add_length_le (h : find pattern text = some n) : n + pattern.length ≤ text.length := by
  induction text generalizing n with
  | nil =>
    rw [find] at h
    split at h
    · next hpattern =>
      cases h
      rw [hpattern, List.length_nil]
    · cases h
  | cons c text ih =>
    rw [find] at h
    split at h
    · next hprefix =>
      cases h
      rw [Nat.zero_add]
      exact hprefix.length_le
    · obtain ⟨k, hk, rfl⟩ := Option.map_eq_some_iff.mp h
      have hle := ih hk
      rw [List.length_cons]
      omega

/-- What is behind the text does not change where the pattern stands. -/
theorem find_append_right (h : find pattern text = some n) (more : List α) :
    find pattern (text ++ more) = some n := by
  induction text generalizing n with
  | nil =>
    rw [find] at h
    split at h
    · next hpattern =>
      cases h
      rw [hpattern]
      exact find_self [] more
    · cases h
  | cons c text ih =>
    rw [find] at h
    split at h
    · next hprefix =>
      cases h
      rw [List.cons_append, find, if_pos]
      exact hprefix.trans (List.prefix_append (c :: text) more)
    · next hnot =>
      obtain ⟨k, hk, rfl⟩ := Option.map_eq_some_iff.mp h
      have hle := find_add_length_le hk
      rw [List.cons_append, find, if_neg, ih hk]
      · rfl
      · intro hprefix
        have hbegin : c :: text <+: c :: text ++ more := List.prefix_append (c :: text) more
        refine hnot (List.prefix_of_prefix_length_le hprefix hbegin ?_)
        rw [List.length_cons]
        omega

theorem not_infix_of_find_eq_none (h : find pattern text = none) : ¬pattern <:+: text := by
  rintro ⟨front, rest, rfl⟩
  induction front with
  | nil =>
    rw [List.nil_append, find_self] at h
    cases h
  | cons c front ih =>
    rw [List.cons_append, List.cons_append, find] at h
    split at h
    · cases h
    · exact ih (Option.map_eq_none_iff.mp h)

theorem find_eq_none {more : List α} (h : find pattern (text ++ more) = some n)
    (hshort : text.length < n + pattern.length) : find pattern text = none := by
  rcases hfind : find pattern text with _ | k
  · rfl
  · have hk : n = k := Option.some.inj (h.symm.trans (find_append_right hfind more))
    have hle := find_add_length_le hfind
    omega

end Find

end Search
