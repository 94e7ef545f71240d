import Mathlib.Data.List.Basic
import Mathlib.Logic.Function.Basic

/-!
# Filling slots up to a limit

Items are put into slots by their keys, one after another, until what the slots hold is too much;
the slot of the last item is then emptied, and no more items are taken. Items with the key of the
first one that stand in front decide whether anything is left in the slots.
-/

namespace Slots

universe u v

variable {κ : Type u} {α : Type v} [DecidableEq κ]

/-- The slots, and whether the limit was reached. -/
def fill (empty : α) (full : (κ → α) → Bool) : List (κ × α) → (κ → α) → (κ → α) × Bool
  | [], slots => (slots, false)
  | item :: items, slots =>
    if full (Function.update slots item.1 item.2) then (Function.update slots item.1 empty, true)
    else fill empty full items (Function.update slots item.1 item.2)

/-- Batches of items, up to the one that reaches the limit. -/
def fillAll (empty : α) (full : (κ → α) → Bool) : List (List (κ × α)) → (κ → α) → κ → α
  | [], slots => slots
  | items :: batches, slots =>
    let (slots, isFull) := fill empty full items slots
    if isFull then slots else fillAll empty full batches slots

variable {empty : α} {full : (κ → α) → Bool} {items : List (κ × α)} {slots : κ → α} {key : κ}

/-- What a slot holds in the end was there, or has been put there, unless it is empty. -/
theorem fill_cases (empty : α) (full : (κ → α) → Bool) (items : List (κ × α)) (slots : κ → α)
    (key : κ) :
    (fill empty full items slots).1 key = slots key ∨ (fill empty full items slots).1 key = empty ∨
      (key, (fill empty full items slots).1 key) ∈ items := by
  induction items generalizing slots with
  | nil => exact .inl rfl
  | cons item items ih =>
    simp only [fill]
    by_cases hkey : key = item.1
    · subst hkey
      split
      · exact .inr (.inl (Function.update_self _ _ _))
      · obtain hsame | hempty | hput := ih (Function.update slots item.1 item.2)
        · rw [Function.update_self] at hsame
          rw [hsame]
          exact .inr (.inr List.mem_cons_self)
        · exact .inr (.inl hempty)
        · exact .inr (.inr (List.mem_cons_of_mem _ hput))
    · split
      · exact .inl (Function.update_of_ne hkey _ _)
      · obtain hsame | hempty | hput := ih (Function.update slots item.1 item.2)
        · rw [Function.update_of_ne hkey] at hsame
          exact .inl hsame
        · exact .inr (.inl hempty)
        · exact .inr (.inr (List.mem_cons_of_mem _ hput))

variable {batches : List (List (κ × α))}

theorem fillAll_cases (empty : α) (full : (κ → α) → Bool) (batches : List (List (κ × α)))
    (slots : κ → α) (key : κ) :
    fillAll empty full batches slots key = slots key ∨ fillAll empty full batches slots key = empty ∨
      ∃ items ∈ batches, (key, fillAll empty full batches slots key) ∈ items := by
  induction batches generalizing slots with
  | nil => exact .inl rfl
  | cons items batches ih =>
    have hfirst := fill_cases empty full items slots key
    simp only [fillAll]
    split
    · exact hfirst.imp_right (Or.imp_right fun hput => ⟨items, List.mem_cons_self, hput⟩)
    · obtain hsame | hempty | ⟨later, hlater, hput⟩ := ih (fill empty full items slots).1
      · rw [hsame]
        exact hfirst.imp_right (Or.imp_right fun hput => ⟨items, List.mem_cons_self, hput⟩)
      · exact .inr (.inl hempty)
      · exact .inr (.inr ⟨later, List.mem_cons_of_mem _ hlater, hput⟩)

end Slots
