import Mathlib.Data.List.Basic
import Mathlib.Algebra.Order.Ring.Nat

/-!
# Pages of a list

A list is cut into pages of one size. Whether a page is the last one is seen from one item more than
the page has.
-/

namespace Pages

variable {α : Type*} (size : ℕ) (items : List α)

/-- Pages count from zero. -/
def page (n : ℕ) : List α := (items.drop (n * size)).take size

/-- A page and the item behind it. -/
def ahead (n : ℕ) : List α := (items.drop (n * size)).take (size + 1)

/-- The number of the last page. An empty list has one page. -/
def last : ℕ := (items.length - 1) / size

variable {size items} {n : ℕ}

theorem length_ahead : (ahead size items n).length = min (size + 1) (items.length - n * size) := by
  rw [ahead, List.length_take, List.length_drop]

theorem length_page : (page size items n).length = min size (items.length - n * size) := by
  rw [page, List.length_take, List.length_drop]

theorem flatten_pages (n : ℕ) :
    ((List.range n).map (page size items)).flatten = items.take (n * size) := by
  induction n with
  | zero => simp
  | succ n ih =>
    rw [List.range_succ, List.map_append, List.flatten_append, ih, Nat.succ_mul, List.take_add]
    simp [page]

variable (hsize : 0 < size)
include hsize

theorem lt_length_ahead_iff : size < (ahead size items n).length ↔ n < last size items := by
  have hlast : n < last size items ↔ (n + 1) * size ≤ items.length - 1 :=
    Nat.le_div_iff_mul_le hsize
  rw [hlast, length_ahead, Nat.succ_mul]
  omega

theorem length_le_last : items.length ≤ (last size items + 1) * size := by
  have hlt : (items.length - 1) / size < last size items + 1 := Nat.lt_succ_self _
  have hmul := (Nat.div_lt_iff_lt_mul hsize).mp hlt
  omega

theorem flatten_all : ((List.range (last size items + 1)).map (page size items)).flatten = items := by
  rw [flatten_pages, List.take_of_length_le (length_le_last hsize)]

theorem page_last_eq_nil_iff : page size items (last size items) = [] ↔ items = [] := by
  have hlast : last size items * size ≤ items.length - 1 := Nat.div_mul_le_self _ _
  rw [← List.length_eq_zero_iff, length_page, ← List.length_eq_zero_iff]
  omega

theorem last_of_nil (h : items = []) : last size items = 0 := by
  subst h
  exact Nat.div_eq_of_lt hsize

theorem last_eq {n : ℕ} (hle : items.length ≤ (n + 1) * size)
    (hlt : n * size < items.length ∨ n = 0) : last size items = n := by
  obtain hlt | rfl := hlt
  · exact Nat.div_eq_of_lt_le (Nat.le_sub_one_of_lt hlt) (by omega)
  · exact Nat.div_eq_of_lt (by omega)

end Pages
