import Mathlib.Algebra.Group.Nat.Defs
import Mathlib.Data.List.Basic

/-!
# Exploding a string

`CStrExplode` (base/util.cpp) splits a string into items. The first loop counts the items by the
separators, and the second one sets them. In the second loop a separator at the beginning of an item
does not end it, and what is behind the last separator is an item if it is not empty. The destructor
frees as many items as have been counted.
-/

namespace ImServer

/-- `m_item_cnt`, and the items that are set, from the first one on. The others are what
`new char* [m_item_cnt]` has left there. -/
structure CStrExplode where
  itemCnt : UInt32
  itemList : List (List UInt8)
  deriving DecidableEq, Repr

namespace CStrExplode

/-- The first loop, which counts the separators. The counter is that of the constructor and has 32
bits. -/
def count (seperator : UInt8) (itemCnt : UInt32) : List UInt8 → UInt32
  | [] => itemCnt
  | c :: rest => count seperator (if c = seperator then itemCnt + 1 else itemCnt) rest

/-- `new char [len + 1]` for what is from `start` to `pos`, which is copied. The length has 32 bits,
and where the sum is 0 what is copied is outside of the item. -/
def newItem (start : List UInt8) : Option (List UInt8) :=
  let len := UInt32.ofNat start.length
  if len + 1 = 0 then none else some (start.take len.toNat)

/-- `m_item_list[idx] = ...`, if there is such an item. -/
def setItem (itemCnt : UInt32) (idx : ℕ) (start : List UInt8) : Option (List UInt8) :=
  if idx < itemCnt.toNat then newItem start else none

/-- The second loop, with what is from `start` to `pos` and what is from `pos` on. It returns the
items that are set, from `idx` on. -/
def fill (seperator : UInt8) (itemCnt : UInt32) (start : List UInt8) (idx : ℕ) :
    List UInt8 → Option (List (List UInt8))
  | [] =>
    if UInt32.ofNat start.length = 0 then some []
    else (setItem itemCnt idx start).map fun item => [item]
  | c :: rest =>
    if start ≠ [] ∧ c = seperator then
      (setItem itemCnt idx start).bind fun item =>
        -- `idx` is an `int`
        if 2 ^ 31 ≤ idx + 1 then none
        else (fill seperator itemCnt [] (idx + 1) rest).map fun items => item :: items
    else fill seperator itemCnt (start ++ [c]) idx rest

/-- The constructor. -/
def strExplode (str : { text : List UInt8 // 0 ∉ text }) (seperator : UInt8) :
    Option CStrExplode :=
  let itemCnt := count seperator 1 str
  (fill seperator itemCnt [] 0 str).map fun itemList => { itemCnt, itemList }

/-- Exactly the items that are counted are set, and they are the fields of the string. -/
def Explodes (str : { text : List UInt8 // 0 ∉ text }) (seperator : UInt8) : Prop :=
  ∃ items, strExplode str seperator = some items ∧
    items.itemList.length = items.itemCnt.toNat ∧ items.itemList = str.val.splitOn seperator

/-- Fields none of which is empty, as many as an `int` can count, and each with a length that fits
in 32 bits with the NUL. -/
structure Splittable (fields : List (List UInt8)) : Prop where
  nonempty : [] ∉ fields
  count : fields.length ≤ 2 ^ 31
  short : ∀ field ∈ fields, field.length + 1 < 2 ^ 32

section Fields

variable {seperator c : UInt8} {start rest : List UInt8}

/-- The fields of a string of which `start` has been passed since the last separator. -/
def fieldsFrom (seperator : UInt8) (start rest : List UInt8) : List (List UInt8) :=
  (rest.splitOn seperator).modifyHead (start ++ ·)

theorem fieldsFrom_nil_right : fieldsFrom seperator start [] = [start] := by
  rw [fieldsFrom, List.splitOn_nil, List.modifyHead_cons, List.append_nil]

theorem fieldsFrom_nil_left : fieldsFrom seperator [] rest = rest.splitOn seperator := by
  cases h : rest.splitOn seperator <;> simp [fieldsFrom, h]

theorem fieldsFrom_seperator :
    fieldsFrom seperator start (seperator :: rest) = start :: rest.splitOn seperator := by
  rw [fieldsFrom, List.splitOn_cons_eq_if_modifyHead, if_pos (beq_self_eq_true seperator),
    List.modifyHead_cons, List.append_nil]

theorem fieldsFrom_cons (h : c ≠ seperator) :
    fieldsFrom seperator start (c :: rest) = fieldsFrom seperator (start ++ [c]) rest := by
  have hsplit : (c :: rest).splitOn seperator = (rest.splitOn seperator).modifyHead (c :: ·) := by
    rw [List.splitOn_cons_eq_if_modifyHead, if_neg (by simpa using h)]
  rw [fieldsFrom, fieldsFrom, hsplit]
  cases rest.splitOn seperator with
  | nil => rfl
  | cons first fields =>
    rw [List.modifyHead_cons, List.modifyHead_cons, List.modifyHead_cons, List.append_assoc]
    rfl

theorem length_fieldsFrom :
    (fieldsFrom seperator start rest).length = (rest.splitOn seperator).length :=
  List.length_modifyHead

end Fields

section Loops

variable {seperator : UInt8} {itemCnt : UInt32} {start rest : List UInt8} {idx : ℕ}
variable {item : List UInt8} {items : List (List UInt8)}

theorem length_splitOn (seperator : UInt8) (text : List UInt8) :
    (text.splitOn seperator).length = text.count seperator + 1 := by
  induction text with
  | nil => rfl
  | cons c rest ih =>
    rw [List.splitOn_cons_eq_if_modifyHead, List.count_cons]
    split
    · rw [List.length_cons, ih]
    · rw [List.length_modifyHead, ih, Nat.add_zero]

theorem count_ofNat (seperator : UInt8) (n : ℕ) (text : List UInt8) :
    count seperator (UInt32.ofNat n) text = UInt32.ofNat (n + text.count seperator) := by
  induction text generalizing n with
  | nil => rfl
  | cons c rest ih =>
    rw [count, List.count_cons]
    by_cases hc : c = seperator
    · have hone : UInt32.ofNat n + 1 = UInt32.ofNat (n + 1) := (UInt32.ofNat_add n 1).symm
      rw [if_pos hc, if_pos (by simpa using hc), hone, ih, Nat.add_right_comm, Nat.add_assoc]
    · rw [if_neg hc, if_neg (by simpa using hc), ih, Nat.add_zero]

theorem toNat_count {text : List UInt8} (h : (text.splitOn seperator).length < 2 ^ 32) :
    (count seperator 1 text).toNat = (text.splitOn seperator).length := by
  have hcount : count seperator 1 text = UInt32.ofNat (1 + text.count seperator) :=
    count_ofNat seperator 1 text
  rw [length_splitOn] at h ⊢
  rw [hcount, UInt32.toNat_ofNat', Nat.mod_eq_of_lt (by omega), Nat.add_comm]

theorem newItem_eq (h : start.length + 1 < 2 ^ 32) : newItem start = some start := by
  have hlen : (UInt32.ofNat start.length).toNat = start.length := by
    rw [UInt32.toNat_ofNat', Nat.mod_eq_of_lt (by omega)]
  have hne : UInt32.ofNat start.length + 1 ≠ 0 := by
    intro h0
    have hzero := congrArg UInt32.toNat h0
    rw [UInt32.toNat_add, hlen] at hzero
    have hsum : (start.length + 1) % 2 ^ 32 = 0 := hzero
    omega
  rw [newItem, if_neg hne, hlen, List.take_length]

theorem length_of_newItem (h : newItem start = some item) : item.length + 1 < 2 ^ 32 := by
  rw [newItem] at h
  split at h
  · cases h
  · next hne =>
    cases h
    have hlt : (UInt32.ofNat start.length).toNat < 2 ^ 32 := UInt32.toNat_lt _
    have hlast : (UInt32.ofNat start.length).toNat ≠ 2 ^ 32 - 1 := by
      intro heq
      refine hne (UInt32.toNat.inj ?_)
      rw [UInt32.toNat_add, heq]
      rfl
    have hle := List.length_take_le (UInt32.ofNat start.length).toNat start
    omega

theorem setItem_eq (hidx : idx < itemCnt.toNat) (h : start.length + 1 < 2 ^ 32) :
    setItem itemCnt idx start = some start := by
  rw [setItem, if_pos hidx, newItem_eq h]

theorem length_of_setItem (h : setItem itemCnt idx start = some item) :
    item.length + 1 < 2 ^ 32 := by
  rw [setItem] at h
  split at h
  · exact length_of_newItem h
  · cases h

/-- Where no field is empty each separator ends the item before it. -/
theorem fill_eq (hne : [] ∉ fieldsFrom seperator start rest)
    (hshort : ∀ field ∈ fieldsFrom seperator start rest, field.length + 1 < 2 ^ 32)
    (hcount : idx + (fieldsFrom seperator start rest).length ≤ itemCnt.toNat)
    (hint : idx + (fieldsFrom seperator start rest).length ≤ 2 ^ 31) :
    fill seperator itemCnt start idx rest = some (fieldsFrom seperator start rest) := by
  induction rest generalizing start idx with
  | nil =>
    rw [fieldsFrom_nil_right] at hne hshort hcount ⊢
    rw [List.length_singleton] at hcount
    have hstart : start.length + 1 < 2 ^ 32 := hshort start (List.mem_singleton_self start)
    have hpos : 0 < start.length := by
      refine List.length_pos_of_ne_nil ?_
      rintro rfl
      exact hne (List.mem_singleton_self [])
    have hlen : ¬UInt32.ofNat start.length = 0 := by
      intro h0
      have hzero : start.length % 2 ^ 32 = 0 := by simpa using congrArg UInt32.toNat h0
      omega
    rw [fill, if_neg hlen, setItem_eq (by omega) hstart]
    rfl
  | cons c rest ih =>
    by_cases hc : c = seperator
    · subst hc
      rw [fieldsFrom_seperator] at hne hshort hcount hint ⊢
      rw [← fieldsFrom_nil_left] at hne hshort hcount hint ⊢
      have hstart : start ≠ [] := by
        rintro rfl
        exact hne List.mem_cons_self
      rw [List.length_cons] at hcount hint
      have hrest : 0 < (fieldsFrom c [] rest).length := by
        rw [length_fieldsFrom, length_splitOn]
        exact Nat.succ_pos _
      have hset : setItem itemCnt idx start = some start :=
        setItem_eq (by omega) (hshort start List.mem_cons_self)
      have hnext : fill c itemCnt [] (idx + 1) rest = some (fieldsFrom c [] rest) :=
        ih (fun hmem => hne (List.mem_cons_of_mem _ hmem))
          (fun field hfield => hshort field (List.mem_cons_of_mem _ hfield)) (by omega) (by omega)
      rw [fill, if_pos ⟨hstart, rfl⟩, hset, Option.bind_some, if_neg (by omega), hnext]
      rfl
    · rw [fieldsFrom_cons hc] at hne hshort hcount hint ⊢
      rw [fill, if_neg fun h => hc h.2]
      exact ih hne hshort hcount hint

/-- Each item takes one field at least, and if each takes one no field is empty. -/
theorem fields_of_fill (h : fill seperator itemCnt start idx rest = some items)
    (hidx : idx < 2 ^ 31) :
    items.length ≤ (fieldsFrom seperator start rest).length ∧
      (items.length = (fieldsFrom seperator start rest).length →
        [] ∉ fieldsFrom seperator start rest ∧ idx + items.length ≤ 2 ^ 31) := by
  induction rest generalizing start idx items with
  | nil =>
    rw [fieldsFrom_nil_right, List.length_singleton]
    rw [fill] at h
    split at h
    · cases h
      exact ⟨Nat.zero_le 1, fun h0 => absurd h0 Nat.zero_ne_one⟩
    · next hlen =>
      obtain ⟨item, -, rfl⟩ := Option.map_eq_some_iff.mp h
      refine ⟨Nat.le_refl 1, fun _ => ⟨?_, hidx⟩⟩
      intro hmem
      rw [← List.mem_singleton.mp hmem] at hlen
      exact hlen rfl
  | cons c rest ih =>
    rw [fill] at h
    split at h
    · next hend =>
      obtain ⟨hstart, rfl⟩ := hend
      obtain ⟨item, -, h⟩ := Option.bind_eq_some_iff.mp h
      split at h
      · cases h
      · next hnext =>
        obtain ⟨items, hitems, rfl⟩ := Option.map_eq_some_iff.mp h
        obtain ⟨hle, heq⟩ := ih hitems (Nat.lt_of_not_le hnext)
        rw [fieldsFrom_seperator, List.length_cons, List.length_cons, ← fieldsFrom_nil_left]
        refine ⟨Nat.succ_le_succ hle, fun hlen => ?_⟩
        obtain ⟨hne, hint⟩ := heq (Nat.succ.inj hlen)
        refine ⟨?_, by omega⟩
        intro hmem
        obtain hfirst | hrest := List.mem_cons.mp hmem
        · exact hstart hfirst.symm
        · exact hne hrest
    · next hgo =>
      obtain ⟨hle, heq⟩ := ih h hidx
      by_cases hc : c = seperator
      · -- the separator is at the beginning of an item and gets into it
        subst hc
        rw [length_fieldsFrom] at hle
        rw [fieldsFrom_seperator, List.length_cons]
        exact ⟨Nat.le_succ_of_le hle, fun hlen => by omega⟩
      · rw [fieldsFrom_cons hc]
        exact ⟨hle, heq⟩

theorem length_of_fill (h : fill seperator itemCnt start idx rest = some items) :
    ∀ item ∈ items, item.length + 1 < 2 ^ 32 := by
  induction rest generalizing start idx items with
  | nil =>
    rw [fill] at h
    split at h
    · cases h
      exact fun item hitem => absurd hitem List.not_mem_nil
    · obtain ⟨item, hset, rfl⟩ := Option.map_eq_some_iff.mp h
      exact List.forall_mem_singleton.mpr (length_of_setItem hset)
  | cons c rest ih =>
    rw [fill] at h
    split at h
    · obtain ⟨item, hset, h⟩ := Option.bind_eq_some_iff.mp h
      split at h
      · cases h
      · obtain ⟨items, hitems, rfl⟩ := Option.map_eq_some_iff.mp h
        exact List.forall_mem_cons.mpr ⟨length_of_setItem hset, ih hitems⟩
    · exact ih h

end Loops

variable {str : { text : List UInt8 // 0 ∉ text }} {seperator : UInt8}

theorem explodes_of_splittable (h : Splittable (str.val.splitOn seperator)) :
    Explodes str seperator := by
  obtain ⟨hne, hcount, hshort⟩ := h
  have hcnt : (count seperator 1 str).toNat = (str.val.splitOn seperator).length :=
    toNat_count (by omega)
  have hfill : fill seperator (count seperator 1 str) [] 0 str =
      some (str.val.splitOn seperator) := by
    rw [← fieldsFrom_nil_left] at hne hcount hshort hcnt ⊢
    exact fill_eq hne hshort (by omega) (by omega)
  refine ⟨⟨_, _⟩, ?_, hcnt.symm, rfl⟩
  rw [strExplode, hfill]
  rfl

theorem splittable_of_explodes (h : Explodes str seperator) :
    Splittable (str.val.splitOn seperator) := by
  obtain ⟨items, hitems, -, hfields⟩ := h
  obtain ⟨list, hfill, rfl⟩ := Option.map_eq_some_iff.mp hitems
  have hlist : list = str.val.splitOn seperator := hfields
  have hlen : list.length = (fieldsFrom seperator [] str).length := by
    rw [hlist, length_fieldsFrom]
  obtain ⟨hne, hint⟩ := (fields_of_fill hfill (by omega)).2 hlen
  rw [fieldsFrom_nil_left] at hne
  refine ⟨hne, ?_, ?_⟩
  · rw [← hlist]
    omega
  · rw [← hlist]
    exact length_of_fill hfill

theorem explodes_iff_splittable : Explodes str seperator ↔ Splittable (str.val.splitOn seperator) :=
  ⟨splittable_of_explodes, explodes_of_splittable⟩

end CStrExplode

end ImServer
