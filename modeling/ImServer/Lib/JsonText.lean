import ImServer.Lib.CText
import Mathlib.Data.List.Basic

/-!
# JSON texts

The grammar of JSON over bytes, as a relation between a value, a text that begins with it, and what
follows. A number without a fraction and an exponent is an integer, and any other number is given by
its literal. Bytes from 128 on stand for themselves. Escapes stand for what is not a surrogate, or
are a pair of surrogates.
-/

namespace JsonText

/-- A value as a text gives it. A real is kept as its literal, and names of members may come up
again. -/
inductive Value where
  | null
  | bool (b : Bool)
  | int (n : ℤ)
  | real (literal : List UInt8)
  | string (s : List UInt8)
  | array (items : List Value)
  | object (members : List (List UInt8 × Value))

/-- What one character behind a backslash stands for. -/
def shortEscapes : List (UInt8 × UInt8) :=
  [(34, 34), (47, 47), (92, 92), (98, 8), (102, 12), (110, 10), (114, 13), (116, 9)]

def hexValue (c : UInt8) : Option ℕ :=
  if 48 ≤ c ∧ c ≤ 57 then some (c.toNat - 48)
  else if 97 ≤ c ∧ c ≤ 102 then some (c.toNat - 87)
  else if 65 ≤ c ∧ c ≤ 70 then some (c.toNat - 55)
  else none

/-- Four digits of a code. -/
def hexCode (a b c d : UInt8) : Option ℕ := do
  let a ← hexValue a
  let b ← hexValue b
  let c ← hexValue c
  let d ← hexValue d
  some (((a * 16 + b) * 16 + c) * 16 + d)

/-- The bytes of a code point. -/
def utf8 (code : ℕ) : List UInt8 := String.utf8EncodeChar (Char.ofNat code)

/-- What is behind an opening quote: the string up to the closing one, and what follows. -/
inductive Chars : List UInt8 → List UInt8 → List UInt8 → Prop where
  | close {rest : List UInt8} : Chars (34 :: rest) [] rest
  | char {c : UInt8} {text s rest : List UInt8} (hcontrol : 32 ≤ c) (hquote : c ≠ 34)
      (hbackslash : c ≠ 92) (h : Chars text s rest) : Chars (c :: text) (c :: s) rest
  | escape {d c : UInt8} {text s rest : List UInt8} (hd : (d, c) ∈ shortEscapes)
      (h : Chars text s rest) : Chars (92 :: d :: text) (c :: s) rest
  | code {a b c d : UInt8} {n : ℕ} {text s rest : List UInt8} (hcode : hexCode a b c d = some n)
      (hscalar : n < 0xD800 ∨ 0xE000 ≤ n) (h : Chars text s rest) :
      Chars (92 :: 117 :: a :: b :: c :: d :: text) (utf8 n ++ s) rest
  | pair {a b c d a' b' c' d' : UInt8} {n m : ℕ} {text s rest : List UInt8}
      (hcode : hexCode a b c d = some n) (hhigh : 0xD800 ≤ n ∧ n < 0xDC00)
      (hcode' : hexCode a' b' c' d' = some m) (hlow : 0xDC00 ≤ m ∧ m < 0xE000)
      (h : Chars text s rest) :
      Chars (92 :: 117 :: a :: b :: c :: d :: 92 :: 117 :: a' :: b' :: c' :: d' :: text)
        (utf8 (0x10000 + (n - 0xD800) * 0x400 + (m - 0xDC00)) ++ s) rest

def Digits (text : List UInt8) : Prop := text ≠ [] ∧ ∀ c ∈ text, 48 ≤ c ∧ c ≤ 57

/-- The digits of an integer; zero may have a sign. -/
def IntLiteral (literal : List UInt8) (n : ℤ) : Prop :=
  literal = CText.bytes (toString n) ∨ literal = [45, 48] ∧ n = 0

def Fraction (text : List UInt8) : Prop := text = [] ∨ ∃ digits, Digits digits ∧ text = 46 :: digits

def Exponent (text : List UInt8) : Prop :=
  text = [] ∨ ∃ mark sign digits, mark ∈ ([101, 69] : List UInt8) ∧
    sign ∈ ([[], [43], [45]] : List (List UInt8)) ∧ Digits digits ∧ text = mark :: (sign ++ digits)

/-- A number with a fraction or an exponent. -/
def RealLiteral (literal : List UInt8) : Prop :=
  ∃ n front fraction exponent, IntLiteral front n ∧ Fraction fraction ∧ Exponent exponent ∧
    fraction ++ exponent ≠ [] ∧ literal = front ++ (fraction ++ exponent)

/-- Some blanks, and what follows. -/
inductive Blanks : List UInt8 → List UInt8 → Prop where
  | none {text : List UInt8} : Blanks text text
  | cons {c : UInt8} {text rest : List UInt8} (hc : c ∈ ([32, 9, 10, 13] : List UInt8))
      (h : Blanks text rest) : Blanks (c :: text) rest

/-- What is read at a time: a value, an item or a member with the blanks around it, or the items of
an array or the members of an object with the closing bracket. -/
inductive Part where
  | value (value : Value)
  | item (value : Value)
  | items (items : List Value)
  | member (member : List UInt8 × Value)
  | members (members : List (List UInt8 × Value))

/-- A text begins with a part, and what follows. -/
inductive Reads : Part → List UInt8 → List UInt8 → Prop where
  | null {rest : List UInt8} : Reads (.value .null) (110 :: 117 :: 108 :: 108 :: rest) rest
  | true {rest : List UInt8} :
      Reads (.value (.bool Bool.true)) (116 :: 114 :: 117 :: 101 :: rest) rest
  | false {rest : List UInt8} :
      Reads (.value (.bool Bool.false)) (102 :: 97 :: 108 :: 115 :: 101 :: rest) rest
  | int {n : ℤ} {literal rest : List UInt8} (h : IntLiteral literal n) :
      Reads (.value (.int n)) (literal ++ rest) rest
  | real {literal rest : List UInt8} (h : RealLiteral literal) :
      Reads (.value (.real literal)) (literal ++ rest) rest
  | string {s text rest : List UInt8} (h : Chars text s rest) :
      Reads (.value (.string s)) (34 :: text) rest
  | array {items : List Value} {text rest : List UInt8} (h : Reads (.items items) text rest) :
      Reads (.value (.array items)) (91 :: text) rest
  | object {members : List (List UInt8 × Value)} {text rest : List UInt8}
      (h : Reads (.members members) text rest) : Reads (.value (.object members)) (123 :: text) rest
  | item {value : Value} {text inner after rest : List UInt8} (hbefore : Blanks text inner)
      (h : Reads (.value value) inner after) (hafter : Blanks after rest) :
      Reads (.item value) text rest
  | noItem {text rest : List UInt8} (h : Blanks text (93 :: rest)) : Reads (.items []) text rest
  | lastItem {value : Value} {text rest : List UInt8} (h : Reads (.item value) text (93 :: rest)) :
      Reads (.items [value]) text rest
  | nextItem {value next : Value} {items : List Value} {text more rest : List UInt8}
      (h : Reads (.item value) text (44 :: more))
      (hmore : Reads (.items (next :: items)) more rest) :
      Reads (.items (value :: next :: items)) text rest
  | member {name : List UInt8} {value : Value}
      {text quoted behind colon inner after rest : List UInt8}
      (hbefore : Blanks text (34 :: quoted)) (hname : Chars quoted name behind)
      (hbehind : Blanks behind (58 :: colon)) (hcolon : Blanks colon inner)
      (h : Reads (.value value) inner after) (hafter : Blanks after rest) :
      Reads (.member (name, value)) text rest
  | noMember {text rest : List UInt8} (h : Blanks text (125 :: rest)) :
      Reads (.members []) text rest
  | lastMember {member : List UInt8 × Value} {text rest : List UInt8}
      (h : Reads (.member member) text (125 :: rest)) : Reads (.members [member]) text rest
  | nextMember {member next : List UInt8 × Value} {members : List (List UInt8 × Value)}
      {text more rest : List UInt8} (h : Reads (.member member) text (44 :: more))
      (hmore : Reads (.members (next :: members)) more rest) :
      Reads (.members (member :: next :: members)) text rest

/-- A property of the values that a part consists of, not of those inside them. -/
def Part.All (p : Value → Prop) : Part → Prop
  | .value v | .item v => p v
  | .items list => ∀ v ∈ list, p v
  | .member first => p first.2
  | .members list => ∀ named ∈ list, p named.2

/-- Induction over the values that are read. A text gives only those reals that JSON can write. -/
theorem Reads.all {p : Value → Prop} (hnull : p .null) (hbool : ∀ b, p (.bool b))
    (hint : ∀ n, p (.int n)) (hreal : ∀ {literal}, RealLiteral literal → p (.real literal))
    (hstring : ∀ s, p (.string s)) (harray : ∀ {items}, (∀ value ∈ items, p value) → p (.array items))
    (hobject : ∀ {members}, (∀ member ∈ members, p member.2) → p (.object members)) {part : Part}
    {text rest : List UInt8} (h : Reads part text rest) : part.All p := by
  induction h with
  | null => exact hnull
  | true | false => exact hbool _
  | int _ => exact hint _
  | real h => exact hreal h
  | string _ => exact hstring _
  | array _ ih => exact harray ih
  | object _ ih => exact hobject ih
  | item _ _ _ ih | member _ _ _ _ _ _ ih => exact ih
  | noItem _ | noMember _ => exact fun _ hmem => absurd hmem List.not_mem_nil
  | lastItem _ ih | lastMember _ ih => exact List.forall_mem_singleton.mpr ih
  | nextItem _ _ ih ihmore | nextMember _ _ ih ihmore =>
    exact List.forall_mem_cons.mpr ⟨ih, ihmore⟩

/-- A whole text of a value, with blanks around it and nothing else. -/
def Document (text : List UInt8) (value : Value) : Prop := Reads (.item value) text []

/-- The member that counts is the last one of its name. -/
def lastOf (name : List UInt8) : List (List UInt8 × Value) → Option Value
  | [] => none
  | member :: members => (lastOf name members).or (if member.1 = name then some member.2 else none)

section Digits

variable {c : UInt8} {literal : List UInt8} {n m : ℤ}

theorem bytes_ne_nil (n : ℤ) : CText.bytes (toString n) ≠ [] := by
  cases n with
  | ofNat n => exact CText.bytes_toString_ne_nil n
  | negSucc n =>
    rw [CText.bytes_toString_negSucc]
    exact List.cons_ne_nil _ _

theorem mem_bytes (hc : c ∈ CText.bytes (toString n)) : (48 ≤ c ∧ c ≤ 57) ∨ c = 45 := by
  cases n with
  | ofNat n => exact .inl (CText.mem_bytes_toString hc)
  | negSucc n =>
    rw [CText.bytes_toString_negSucc] at hc
    obtain rfl | hc := List.mem_cons.mp hc
    · exact .inr rfl
    · exact .inl (CText.mem_bytes_toString hc)

theorem bytes_ne_minus (n : ℕ) (text : List UInt8) : CText.bytes (toString n) ≠ 45 :: text := by
  intro heq
  have hmem : 45 ∈ CText.bytes (toString n) := heq ▸ List.mem_cons_self
  exact absurd (CText.mem_bytes_toString hmem).1 (by decide)

theorem bytes_natCast_inj {n m : ℕ} (h : CText.bytes (toString n) = CText.bytes (toString m)) :
    n = m := by
  rw [← CText.foldl_bytes_toString n, h, CText.foldl_bytes_toString]

theorem bytes_inj (h : CText.bytes (toString n) = CText.bytes (toString m)) : n = m := by
  cases n with
  | ofNat n =>
    cases m with
    | ofNat m => exact congrArg Int.ofNat (bytes_natCast_inj h)
    | negSucc m =>
      rw [CText.bytes_toString_negSucc] at h
      exact absurd h (bytes_ne_minus n _)
  | negSucc n =>
    rw [CText.bytes_toString_negSucc] at h
    cases m with
    | ofNat m => exact absurd h.symm (bytes_ne_minus m _)
    | negSucc m =>
      rw [CText.bytes_toString_negSucc] at h
      have hsucc := bytes_natCast_inj (List.cons.inj h).2
      rw [Nat.succ.inj hsucc]

theorem IntLiteral.ne_nil (h : IntLiteral literal n) : literal ≠ [] := by
  obtain rfl | ⟨rfl, -⟩ := h
  · exact bytes_ne_nil n
  · exact List.cons_ne_nil _ _

theorem IntLiteral.mem (h : IntLiteral literal n) (hc : c ∈ literal) :
    (48 ≤ c ∧ c ≤ 57) ∨ c = 45 := by
  obtain rfl | ⟨rfl, -⟩ := h
  · exact mem_bytes hc
  · obtain rfl | rfl := List.mem_pair.mp hc <;> decide

/-- A character of a number. -/
def Numeric (c : UInt8) : Prop := (48 ≤ c ∧ c ≤ 57) ∨ c ∈ ([43, 45, 46, 69, 101] : List UInt8)

instance (c : UInt8) : Decidable (Numeric c) := inferInstanceAs (Decidable (_ ∨ _))

theorem IntLiteral.numeric (h : IntLiteral literal n) (hc : c ∈ literal) : Numeric c := by
  obtain hdigit | rfl := h.mem hc
  · exact .inl hdigit
  · decide

theorem Fraction.numeric {text : List UInt8} (h : Fraction text) (hc : c ∈ text) : Numeric c := by
  obtain rfl | ⟨digits, hdigits, rfl⟩ := h
  · exact absurd hc List.not_mem_nil
  · obtain rfl | hc := List.mem_cons.mp hc
    · decide
    · exact .inl (hdigits.2 c hc)

theorem Exponent.numeric {text : List UInt8} (h : Exponent text) (hc : c ∈ text) : Numeric c := by
  obtain rfl | ⟨mark, sign, digits, hmark, hsign, hdigits, rfl⟩ := h
  · exact absurd hc List.not_mem_nil
  · obtain rfl | hc := List.mem_cons.mp hc
    · obtain rfl | rfl := List.mem_pair.mp hmark <;> decide
    · obtain hc | hc := List.mem_append.mp hc
      · simp only [List.mem_cons, List.not_mem_nil, or_false] at hsign
        obtain rfl | rfl | rfl := hsign
        · exact absurd hc List.not_mem_nil
        · obtain rfl := List.mem_singleton.mp hc
          decide
        · obtain rfl := List.mem_singleton.mp hc
          decide
      · exact .inl (hdigits.2 c hc)

theorem RealLiteral.numeric (h : RealLiteral literal) (hc : c ∈ literal) : Numeric c := by
  obtain ⟨n, front, fraction, exponent, hfront, hfraction, hexponent, -, rfl⟩ := h
  obtain hc | hc := List.mem_append.mp hc
  · exact hfront.numeric hc
  · obtain hc | hc := List.mem_append.mp hc
    · exact hfraction.numeric hc
    · exact hexponent.numeric hc

theorem RealLiteral.exists_mark (h : RealLiteral literal) :
    ∃ c ∈ literal, c ∈ ([46, 69, 101] : List UInt8) := by
  obtain ⟨n, front, fraction, exponent, -, hfraction, hexponent, hne, rfl⟩ := h
  obtain rfl | ⟨digits, -, rfl⟩ := hfraction
  · obtain rfl | ⟨mark, sign, digits, hmark, -, -, rfl⟩ := hexponent
    · exact absurd rfl hne
    · refine ⟨mark, List.mem_append_right _ List.mem_cons_self, ?_⟩
      obtain rfl | rfl := List.mem_pair.mp hmark <;> decide
  · exact ⟨46, List.mem_append_right _ List.mem_cons_self, by decide⟩

theorem IntLiteral.exists_cons (h : IntLiteral literal n) :
    ∃ c literal', literal = c :: literal' ∧ ((48 ≤ c ∧ c ≤ 57) ∨ c = 45) := by
  obtain ⟨c, literal', rfl⟩ := List.exists_cons_of_ne_nil h.ne_nil
  exact ⟨c, literal', rfl, h.mem List.mem_cons_self⟩

theorem RealLiteral.exists_cons (h : RealLiteral literal) :
    ∃ c literal', literal = c :: literal' ∧ ((48 ≤ c ∧ c ≤ 57) ∨ c = 45) := by
  obtain ⟨n, front, fraction, exponent, hfront, -, -, -, rfl⟩ := h
  obtain ⟨c, front', rfl, hc⟩ := hfront.exists_cons
  exact ⟨c, _, rfl, hc⟩

end Digits

section Consumed

variable {part : Part} {text rest : List UInt8}

theorem Blanks.length_le (h : Blanks text rest) : rest.length ≤ text.length := by
  induction h with
  | none => exact Nat.le_refl _
  | cons _ _ ih => exact Nat.le_succ_of_le ih

theorem length_utf8_le (code : ℕ) : (utf8 code).length ≤ 4 := by
  rw [utf8, String.length_utf8EncodeChar]
  exact Char.utf8Size_le_four _

/-- A string has its bytes at least, and a quote behind it. -/
theorem Chars.length_lt {s : List UInt8} (h : Chars text s rest) :
    s.length + rest.length < text.length := by
  induction h with
  | close => simp
  | char _ _ _ _ ih =>
    simp only [List.length_cons]
    omega
  | escape _ _ ih =>
    simp only [List.length_cons]
    omega
  | @code _ _ _ _ n _ _ _ _ _ _ ih =>
    have hle := length_utf8_le n
    simp only [List.length_cons, List.length_append]
    omega
  | @pair _ _ _ _ _ _ _ _ n m _ _ _ _ _ _ _ _ ih =>
    have hle := length_utf8_le (0x10000 + (n - 0xD800) * 0x400 + (m - 0xDC00))
    simp only [List.length_cons, List.length_append]
    omega

theorem Reads.length_le (h : Reads part text rest) : rest.length ≤ text.length := by
  induction h with
  | null | true | false =>
    simp only [List.length_cons]
    omega
  | int _ | real _ => simp
  | string h =>
    have hlt := h.length_lt
    rw [List.length_cons]
    omega
  | array _ ih | object _ ih =>
    rw [List.length_cons]
    omega
  | item hbefore _ hafter ih => exact hafter.length_le.trans (ih.trans hbefore.length_le)
  | noItem h | noMember h => exact Nat.le_of_succ_le h.length_le
  | lastItem _ ih | lastMember _ ih => exact Nat.le_of_succ_le ih
  | nextItem _ _ ih ihmore | nextMember _ _ ih ihmore => exact ihmore.trans (Nat.le_of_succ_le ih)
  | member hbefore hname hbehind hcolon _ hafter ih =>
    have hquoted := hbefore.length_le
    have hlt := hname.length_lt
    have hinner := hbehind.length_le
    have hcolon := hcolon.length_le
    have hafter := hafter.length_le
    rw [List.length_cons] at hquoted hinner
    omega

end Consumed

/-- Characters that stand for themselves between quotes, so that they need no escape. -/
def Plain (s : List UInt8) : Prop := ∀ c ∈ s, 32 ≤ c ∧ c ≠ 34 ∧ c ≠ 92

section Plain

variable {s text rest front tail : List UInt8}

theorem Plain.chars (h : Plain s) (rest : List UInt8) : Chars (s ++ 34 :: rest) s rest := by
  induction s with
  | nil => exact .close
  | cons c s ih =>
    obtain ⟨⟨hcontrol, hquote, hbackslash⟩, hs⟩ := List.forall_mem_cons.mp h
    exact .char hcontrol hquote hbackslash (ih hs)

end Plain

end JsonText
