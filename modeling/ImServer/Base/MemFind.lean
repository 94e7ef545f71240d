import Mathlib.Algebra.Group.Int.Defs
import Mathlib.Algebra.Group.Nat.Defs
import Mathlib.Data.Int.Basic
import ImServer.Lib.CText
import ImServer.Lib.Search
import ImServer.Base.StrExplode

/-!
# Finding bytes

`memfind` (base/util.cpp) looks for a pattern in a source, from the front or from the back. Both
lengths are numbers of 64 bits, and the places are numbers of 32 bits: an `unsigned int` that goes
up to the difference of the lengths, which is not reached, or an `int` that goes down from there.

A length of 0 stands for a pattern with a NUL behind it, which is measured after the lengths have
been compared. The pointers are not null here.
-/

namespace ImServer

namespace MemFind

/-- What a pointer to the bytes and a length stand for. -/
def patternText (sub : List UInt8) (subLen : ℕ) : List UInt8 :=
  if subLen = 0 then CText.cStr sub else sub.take subLen

/-- A pattern that is not empty, as it is passed: what is in memory from `sub_str` on and
`sub_len`. -/
structure Pattern where
  sub : List UInt8
  subLen : ℕ
  short : sub.length < 2 ^ 64
  inside : subLen ≤ sub.length
  terminated : subLen = 0 → 0 ∈ sub
  nonempty : patternText sub subLen ≠ []

def Pattern.text (pattern : Pattern) : List UInt8 := patternText pattern.sub pattern.subLen

/-- A source, as many bytes as `src_len` says, which is a `size_t`. -/
abbrev Source := { src : List UInt8 // src.length < 2 ^ 64 }

/-- The difference of two numbers of the type `size_t`. -/
def sizeSub (n m : ℕ) : ℕ := (n + 2 ^ 64 - m) % 2 ^ 64

/-- A number of the type `size_t` as an `int`. -/
def toInt (n : ℕ) : ℤ := (n : ℤ).bmod (2 ^ 32)

/-- Where the loop over an `int` begins. -/
def lastPlace (src text : List UInt8) : ℤ := toInt (sizeSub src.length text.length)

/-- `0 == memcmp(src_str + i, sub_str, sub_len)`; `none` if it reads behind the source. -/
def memcmp (src text : List UInt8) (i : ℕ) : Option Bool :=
  if i + text.length ≤ src.length then some (decide (Search.OccursAt text src i)) else none

/-- The loop over an `unsigned int`. -/
def findUp (src text : List UInt8) (limit : ℕ) : ℕ → UInt32 → Option (Option ℕ)
  | 0, _ => none
  | fuel + 1, i =>
    if i.toNat < limit then
      (memcmp src text i.toNat).bind fun same =>
        if same then some (some i.toNat) else findUp src text limit fuel (i + 1)
    else some none

/-- The loop over an `int`, from a place that is not negative. -/
def findDown (src text : List UInt8) : ℕ → Option (Option ℕ)
  | 0 => (memcmp src text 0).map fun same => if same then some 0 else none
  | i + 1 =>
    (memcmp src text (i + 1)).bind fun same =>
      if same then some (some (i + 1)) else findDown src text i

/-- `memfind`, with the place in the source or the null pointer; `none` if it has read behind the
source or is not at its end after as many rounds. -/
def memfind (src : Source) (pattern : Pattern) (flag : Bool) (fuel : ℕ) : Option (Option ℕ) :=
  if src.val.length = 0 then some none
  else if src.val.length < pattern.subLen then some none
  else
    let text := pattern.text
    if src.val.length = text.length then some (if src.val = text then some 0 else none)
    else
      if flag then findUp src text (sizeSub src.val.length text.length) fuel 0
      else if 0 ≤ lastPlace src text then findDown src text (lastPlace src text).toNat
      else some none

/-- The first place where `flag` is set and the last one where it is not, and the null pointer for a
pattern that does not occur. -/
def Right (flag : Bool) (src text : List UInt8) : Option ℕ → Prop
  | none => ¬text <:+: src
  | some n => Search.OccursAt text src n ∧
      ∀ k, Search.OccursAt text src k → if flag then n ≤ k else k ≤ n

/-- It returns, and what it returns is right: the place that the direction asks for, or null if
there is none. -/
def Finds (src : Source) (pattern : Pattern) (flag : Bool) : Prop :=
  ∃ fuel place, memfind src pattern flag fuel = some place ∧ Right flag src pattern.text place

/-- No loop is entered: there is no source, a length that has been passed is more than the source
has, or there is one place only. -/
def Settled (src : Source) (pattern : Pattern) : Prop :=
  src.val = [] ∨ src.val.length < pattern.subLen ∨ src.val.length = pattern.text.length

/-- The places that the loop passes. From the front, one of the pattern is before the last place and
fits an `unsigned int`, or there is none and the number of the last place fits. From the back, the
places of the pattern are up to the number of the last place as an `int`, which is negative where a
pattern that has been measured is longer than the source. -/
def Scanned (src : Source) (text : List UInt8) : Bool → Prop
  | true =>
    (∃ k, Search.OccursAt text src k ∧ k + text.length < src.val.length ∧ k < 2 ^ 32) ∨
      (¬text <:+: src ∧ text.length < src.val.length ∧
        src.val.length < text.length + 2 ^ 32)
  | false =>
    (∀ k, Search.OccursAt text src k → (k : ℤ) ≤ lastPlace src text) ∧
      (src.val.length < text.length → lastPlace src text < 0)

section Loops

variable {src text : List UInt8} {limit fuel i : ℕ} {place : Option ℕ}

theorem memcmp_eq (h : i + text.length ≤ src.length) :
    memcmp src text i = some (decide (Search.OccursAt text src i)) :=
  if_pos h

theorem memcmp_eq_none (h : src.length < text.length) : memcmp src text i = none :=
  if_neg (by omega)

/-- What the loop returns: the first place below the limit. -/
def FirstBelow (src text : List UInt8) (limit : ℕ) : Option ℕ → Prop
  | none => limit < 2 ^ 32 ∧ ∀ k < limit, ¬Search.OccursAt text src k
  | some n => n < limit ∧ n < 2 ^ 32 ∧ Search.OccursAt text src n ∧
      ∀ k < n, ¬Search.OccursAt text src k

theorem findUp_eq_none {i : UInt32} (hlong : src.length < text.length) (hlimit : i.toNat < limit) :
    findUp src text limit fuel i = none := by
  cases fuel with
  | zero => rfl
  | succ fuel => rw [findUp, if_pos hlimit, memcmp_eq_none hlong, Option.bind_none]

/-- What has been passed is free of the pattern. When the number is 0 again nothing has been
passed. -/
theorem findUp_sound {i : UInt32} (h : findUp src text limit fuel i = some place)
    (hfree : ∀ k < i.toNat, ¬Search.OccursAt text src k) :
    FirstBelow src text limit place := by
  induction fuel generalizing i with
  | zero => cases h
  | succ fuel ih =>
    rw [findUp] at h
    split at h
    · next hlt =>
      obtain ⟨same, hsame, h⟩ := Option.bind_eq_some_iff.mp h
      rw [memcmp] at hsame
      split at hsame
      · cases hsame
        by_cases hoccurs : Search.OccursAt text src i.toNat
        · rw [if_pos (decide_eq_true hoccurs)] at h
          cases h
          exact ⟨hlt, i.toNat_lt, hoccurs, hfree⟩
        · rw [if_neg (by simpa using hoccurs)] at h
          refine ih h ?_
          intro k hk
          have hle : (i + 1).toNat ≤ i.toNat + 1 := by
            rw [UInt32.toNat_add]
            exact Nat.mod_le _ _
          obtain heq | hne := Decidable.em (k = i.toNat)
          · rw [heq]
            exact hoccurs
          · exact hfree k (by omega)
      · cases hsame
    · next hnot =>
      cases h
      have hi : i.toNat < 2 ^ 32 := i.toNat_lt
      exact ⟨by omega, fun k hk => hfree k (by omega)⟩

/-- The loop stops at the pattern or at its limit, if that place fits. -/
theorem exists_findUp {stop : ℕ} {i : UInt32} (hfit : stop < 2 ^ 32)
    (hinside : limit + text.length ≤ src.length)
    (hstop : limit ≤ stop ∨ Search.OccursAt text src stop) (hi : i.toNat ≤ stop) :
    ∃ fuel place, findUp src text limit fuel i = some place := by
  obtain ⟨n, hn⟩ : ∃ n, n = stop - i.toNat := ⟨_, rfl⟩
  induction n generalizing i with
  | zero =>
    have heq : i.toNat = stop := by omega
    by_cases hlt : i.toNat < limit
    · have hoccurs : Search.OccursAt text src i.toNat := by
        rw [heq]
        exact hstop.resolve_left (by omega)
      refine ⟨1, some i.toNat, ?_⟩
      rw [findUp, if_pos hlt, memcmp_eq (by omega), Option.bind_some,
        if_pos (decide_eq_true hoccurs)]
    · exact ⟨1, none, if_neg hlt⟩
  | succ n ih =>
    by_cases hlt : i.toNat < limit
    · have hnext : (i + 1).toNat = i.toNat + 1 := by
        rw [UInt32.toNat_add]
        exact Nat.mod_eq_of_lt (by have := UInt32.toNat_one; omega)
      by_cases hoccurs : Search.OccursAt text src i.toNat
      · refine ⟨1, some i.toNat, ?_⟩
        rw [findUp, if_pos hlt, memcmp_eq (by omega), Option.bind_some,
          if_pos (decide_eq_true hoccurs)]
      · obtain ⟨fuel, place, hplace⟩ := ih (i := i + 1) (by omega) (by omega)
        refine ⟨fuel + 1, place, ?_⟩
        rw [findUp, if_pos hlt, memcmp_eq (by omega), Option.bind_some,
          if_neg (by simpa using hoccurs), hplace]
    · exact ⟨1, none, if_neg hlt⟩

/-- What the loop returns: the last place up to `i`. -/
def LastUpTo (src text : List UInt8) (i : ℕ) : Option ℕ → Prop
  | none => ∀ k ≤ i, ¬Search.OccursAt text src k
  | some n => n ≤ i ∧ Search.OccursAt text src n ∧
      ∀ k ≤ i, Search.OccursAt text src k → k ≤ n

theorem findDown_eq_none (hlong : src.length < text.length) : findDown src text i = none := by
  cases i with
  | zero => rw [findDown, memcmp_eq_none hlong, Option.map_none]
  | succ i => rw [findDown, memcmp_eq_none hlong, Option.bind_none]

theorem findDown_sound (hinside : i + text.length ≤ src.length) :
    ∃ place, findDown src text i = some place ∧ LastUpTo src text i place := by
  induction i with
  | zero =>
    by_cases hoccurs : Search.OccursAt text src 0
    · refine ⟨some 0, ?_, Nat.le_refl 0, hoccurs, fun k hk _ => hk⟩
      rw [findDown, memcmp_eq hinside, Option.map_some, if_pos (decide_eq_true hoccurs)]
    · refine ⟨none, ?_, ?_⟩
      · rw [findDown, memcmp_eq hinside, Option.map_some, if_neg (by simpa using hoccurs)]
      · intro k hk
        rw [Nat.le_zero.mp hk]
        exact hoccurs
  | succ i ih =>
    by_cases hoccurs : Search.OccursAt text src (i + 1)
    · refine ⟨some (i + 1), ?_, Nat.le_refl _, hoccurs, fun k hk _ => hk⟩
      rw [findDown, memcmp_eq hinside, Option.bind_some, if_pos (decide_eq_true hoccurs)]
    · obtain ⟨place, hplace, hlast⟩ := ih (by omega)
      refine ⟨place, ?_, ?_⟩
      · rw [findDown, memcmp_eq hinside, Option.bind_some, if_neg (by simpa using hoccurs), hplace]
      · cases place with
        | none =>
          intro k hk
          obtain hle | rfl := Nat.le_succ_iff.mp hk
          · exact hlast k hle
          · exact hoccurs
        | some n =>
          obtain ⟨hn, hat, hlast⟩ := hlast
          refine ⟨Nat.le_succ_of_le hn, hat, ?_⟩
          intro k hk hoccurs'
          obtain hle | rfl := Nat.le_succ_iff.mp hk
          · exact hlast k hle hoccurs'
          · exact absurd hoccurs' hoccurs

end Loops

theorem sizeSub_of_le {n m : ℕ} (hn : n < 2 ^ 64) (h : m ≤ n) : sizeSub n m = n - m := by
  rw [sizeSub]
  omega

theorem sizeSub_pos {n m : ℕ} (hm : m < 2 ^ 64) (h : n < m) : 0 < sizeSub n m := by
  rw [sizeSub]
  omega

theorem natCast_bmod_le (n m : ℕ) : (n : ℤ).bmod m ≤ n := by
  have hmod : (n : ℤ) % (m : ℤ) ≤ n := by
    rw [← Int.natCast_mod]
    exact Int.ofNat_le.mpr (Nat.mod_le n m)
  rw [Int.bmod_def]
  split
  · exact hmod
  · exact Int.le_trans (Int.sub_le_self _ (Int.natCast_nonneg m)) hmod

theorem toInt_le (n : ℕ) : toInt n ≤ n := natCast_bmod_le n (2 ^ 32)

section Pattern

variable (pattern : Pattern)

theorem Pattern.length_text_lt : pattern.text.length < 2 ^ 64 := by
  refine Nat.lt_of_le_of_lt ?_ pattern.short
  rw [Pattern.text, patternText]
  split
  · exact (List.takeWhile_prefix _).length_le
  · exact (List.take_prefix _ _).length_le

theorem Pattern.subLen_le : pattern.subLen ≤ pattern.text.length := by
  rw [Pattern.text, patternText]
  split
  · next hzero =>
    rw [hzero]
    exact Nat.zero_le _
  · exact (List.length_take_of_le pattern.inside).ge

end Pattern

section Call

variable {src : Source} {pattern : Pattern} {flag : Bool} {fuel : ℕ}

theorem not_infix_of_length_lt (h : src.val.length < pattern.text.length) :
    ¬pattern.text <:+: src := fun hwithin =>
  absurd hwithin.length_le (Nat.not_le.mpr h)

theorem right_of_length_eq (h : src.val.length = pattern.text.length) :
    Right flag src pattern.text (if src.val = pattern.text then some 0 else none) := by
  split
  · next heq =>
    have hat : Search.OccursAt pattern.text src.val 0 := by
      rw [heq]
      exact List.prefix_refl _
    refine ⟨hat, fun k hk => ?_⟩
    have hle := hk.add_length_le pattern.nonempty
    split <;> omega
  · next hne =>
    intro hwithin
    exact hne (hwithin.eq_of_length h.symm).symm

theorem finds_of_settled (h : Settled src pattern) : Finds src pattern flag := by
  have hpos : 0 < pattern.text.length := List.length_pos_of_ne_nil pattern.nonempty
  have hsub : pattern.subLen ≤ pattern.text.length := pattern.subLen_le
  obtain hnil | hless | heq := h
  · have hlen : src.val.length = 0 := List.length_eq_zero_iff.mpr hnil
    exact ⟨0, none, if_pos hlen, not_infix_of_length_lt (by omega)⟩
  · refine ⟨0, none, ?_, not_infix_of_length_lt (by omega)⟩
    rw [memfind, if_pos hless, ite_self]
  · refine ⟨0, _, ?_, right_of_length_eq heq⟩
    rw [memfind, if_neg (by omega), if_neg (by omega)]
    exact if_pos heq

theorem memfind_of_not_settled (h : ¬Settled src pattern) :
    memfind src pattern flag fuel =
      if flag then findUp src pattern.text (sizeSub src.val.length pattern.text.length) fuel 0
      else if 0 ≤ lastPlace src pattern.text then
        findDown src pattern.text (lastPlace src pattern.text).toNat
      else some none := by
  simp only [Settled, not_or] at h
  obtain ⟨hnil, hless, hne⟩ := h
  rw [memfind, if_neg (by simpa using hnil), if_neg hless]
  exact if_neg hne

theorem memfind_up (h : ¬Settled src pattern) (fuel : ℕ) : memfind src pattern true fuel =
    findUp src pattern.text (sizeSub src.val.length pattern.text.length) fuel 0 := by
  rw [memfind_of_not_settled h, if_pos rfl]

theorem memfind_down (h : ¬Settled src pattern) (fuel : ℕ) : memfind src pattern false fuel =
    if 0 ≤ lastPlace src pattern.text then
      findDown src pattern.text (lastPlace src pattern.text).toNat
    else some none := by
  rw [memfind_of_not_settled h, if_neg Bool.false_ne_true]

/-- From the front, the place before the last one is the last that is looked at. -/
theorem finds_up_iff (h : ¬Settled src pattern) :
    Finds src pattern true ↔ Scanned src pattern.text true := by
  have hne : src.val.length ≠ pattern.text.length := fun heq => h (.inr (.inr heq))
  have hcall := memfind_up h
  obtain hlong | hshort := Nat.lt_or_gt_of_ne hne
  · have hnone (fuel : ℕ) : memfind src pattern true fuel = none := by
      rw [hcall]
      exact findUp_eq_none hlong (sizeSub_pos pattern.length_text_lt hlong)
    constructor
    · rintro ⟨fuel, place, hplace, -⟩
      rw [hnone] at hplace
      cases hplace
    · rintro (⟨k, -, hk, -⟩ | ⟨-, hlt, -⟩) <;> omega
  · rw [sizeSub_of_le src.property (Nat.le_of_lt hshort)] at hcall
    constructor
    · rintro ⟨fuel, place, hplace, hright⟩
      rw [hcall] at hplace
      have hfirst := findUp_sound hplace fun k hk => absurd hk (Nat.not_lt_zero k)
      cases place with
      | none => exact .inr ⟨hright, hshort, by have := hfirst.1; omega⟩
      | some n =>
        obtain ⟨hn, hfit, hat, -⟩ := hfirst
        exact .inl ⟨n, hat, by omega, hfit⟩
    · intro hscanned
      -- where the loop stops at the latest
      obtain ⟨stop, hfit, hstop⟩ : ∃ stop < 2 ^ 32,
          src.val.length - pattern.text.length ≤ stop ∨
            Search.OccursAt pattern.text src stop := by
        obtain ⟨k, hat, -, hfit⟩ | ⟨-, -, hlt⟩ := hscanned
        · exact ⟨k, hfit, .inr hat⟩
        · exact ⟨_, by omega, .inl (Nat.le_refl _)⟩
      obtain ⟨fuel, place, hplace⟩ :=
        exists_findUp hfit (by omega) hstop (i := 0) (Nat.zero_le stop)
      have hfirst := findUp_sound hplace fun k hk => absurd hk (Nat.not_lt_zero k)
      refine ⟨fuel, place, (hcall fuel).trans hplace, ?_⟩
      cases place with
      | none =>
        obtain ⟨k, hat, hlt, -⟩ | ⟨hnot, -⟩ := hscanned
        · exact absurd hat (hfirst.2 k (by omega))
        · exact hnot
      | some n =>
        obtain ⟨-, -, hat, hfree⟩ := hfirst
        refine ⟨hat, fun k hk => ?_⟩
        rw [if_pos rfl]
        exact Nat.le_of_not_lt fun hlt => hfree k hlt hk

/-- The last place up to a number is the last place if there is none behind the number. -/
theorem right_false_iff {src text : List UInt8} {i : ℕ} {place : Option ℕ}
    (h : LastUpTo src text i place) :
    Right false src text place ↔ ∀ k, Search.OccursAt text src k → k ≤ i := by
  cases place with
  | none =>
    rw [Right, ← Search.exists_occursAt_iff, not_exists]
    constructor
    · exact fun hnone k hk => absurd hk (hnone k)
    · exact fun hle k hk => h k (hle k hk) hk
  | some n =>
    obtain ⟨hn, hat, hlast⟩ := h
    constructor
    · rintro ⟨-, hall⟩ k hk
      exact Nat.le_trans (by simpa using hall k hk) hn
    · intro hle
      refine ⟨hat, fun k hk => ?_⟩
      rw [if_neg Bool.false_ne_true]
      exact hlast k (hle k hk) hk

theorem lastPlace_toNat_add_length_le (hle : pattern.text.length ≤ src.val.length) :
    (lastPlace src pattern.text).toNat + pattern.text.length ≤ src.val.length := by
  have hlast : lastPlace src pattern.text ≤ sizeSub src.val.length pattern.text.length :=
    toInt_le _
  rw [sizeSub_of_le src.property hle] at hlast
  omega

/-- A loop that is entered from the back begins at a place of the source. -/
theorem finds_down_of_nonneg (h : ¬Settled src pattern) (hpos : 0 ≤ lastPlace src pattern.text)
    (hle : pattern.text.length ≤ src.val.length) :
    Finds src pattern false ↔
      ∀ k, Search.OccursAt pattern.text src k → (k : ℤ) ≤ lastPlace src pattern.text := by
  have hcall (fuel : ℕ) := (memfind_down h fuel).trans (if_pos hpos)
  obtain ⟨place, hplace, hlast⟩ := findDown_sound (lastPlace_toNat_add_length_le hle)
  have hright : Finds src pattern false ↔ Right false src pattern.text place := by
    constructor
    · rintro ⟨fuel, place', hplace', hright⟩
      rw [hcall, hplace] at hplace'
      cases hplace'
      exact hright
    · exact fun hright => ⟨0, place, (hcall 0).trans hplace, hright⟩
  rw [hright, right_false_iff hlast]
  exact forall₂_congr fun k _ => Int.le_toNat hpos

/-- From the back, the number of the last place is where the loop begins. -/
theorem finds_down_iff (h : ¬Settled src pattern) :
    Finds src pattern false ↔ Scanned src pattern.text false := by
  obtain hpos | hneg := Decidable.em (0 ≤ lastPlace src pattern.text)
  · obtain hlong | hle := Nat.lt_or_ge src.val.length pattern.text.length
    · have hnone (fuel : ℕ) : memfind src pattern false fuel = none := by
        rw [memfind_down h, if_pos hpos, findDown_eq_none hlong]
      constructor
      · rintro ⟨fuel, place, hplace, -⟩
        rw [hnone] at hplace
        cases hplace
      · rintro ⟨-, hlt⟩
        exact absurd (hlt hlong) (Int.not_lt.mpr hpos)
    · rw [finds_down_of_nonneg h hpos hle]
      exact ⟨fun hall => ⟨hall, fun hlt => absurd hle (Nat.not_le.mpr hlt)⟩, And.left⟩
  · have hnull (fuel : ℕ) := (memfind_down h fuel).trans (if_neg hneg)
    constructor
    · rintro ⟨fuel, place, hplace, hright⟩
      rw [hnull] at hplace
      cases hplace
      refine ⟨fun k hk => ?_, fun _ => Int.not_le.mp hneg⟩
      exact absurd (Search.exists_occursAt_iff.mp ⟨k, hk⟩) hright
    · rintro ⟨hall, -⟩
      refine ⟨0, none, hnull 0, ?_⟩
      intro hwithin
      obtain ⟨k, hk⟩ := Search.exists_occursAt_iff.mpr hwithin
      have hle := hall k hk
      omega

theorem finds_iff :
    Finds src pattern flag ↔ Settled src pattern ∨ Scanned src pattern.text flag := by
  by_cases h : Settled src pattern
  · exact iff_of_true (finds_of_settled h) (.inl h)
  · rw [or_iff_right h]
    cases flag with
    | true => exact finds_up_iff h
    | false => exact finds_down_iff h

end Call

/-- A string is split as it is counted if no field is empty and the counts and lengths fit, and a
pattern is found if the loop passes its places. -/
theorem explodes_and_finds_iff (str : { text : List UInt8 // 0 ∉ text }) (seperator : UInt8)
    (src : Source) (pattern : Pattern) (flag : Bool) :
    (CStrExplode.Explodes str seperator ↔
        CStrExplode.Splittable (str.val.splitOn seperator)) ∧
      (Finds src pattern flag ↔ Settled src pattern ∨ Scanned src pattern.text flag) :=
  ⟨CStrExplode.explodes_iff_splittable, finds_iff⟩

/-- `",a"` has two items of which one is set, and `"ab"` is not found at the end of `"xab"`. -/
theorem not_explodes_and_not_finds :
    ¬CStrExplode.Explodes ⟨[44, 97], by decide⟩ 44 ∧
      ¬Finds ⟨[120, 97, 98], by decide⟩
        ⟨[97, 98, 0], 2, by decide, by decide, by decide, by decide⟩ true := by
  constructor
  · rw [CStrExplode.explodes_iff_splittable]
    intro h
    exact h.nonempty (by decide)
  · rw [finds_iff]
    rintro (h | ⟨k, hk, hlt, -⟩ | ⟨hnot, -⟩)
    · revert h
      simp only [Settled]
      decide
    · have hzero : k = 0 := Nat.lt_one_iff.mp (Nat.lt_of_add_lt_add_right hlt)
      rw [hzero] at hk
      exact absurd hk (by decide)
    · exact hnot ⟨[120], [], rfl⟩

end MemFind

end ImServer
