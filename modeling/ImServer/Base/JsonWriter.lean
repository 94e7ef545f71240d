import ImServer.Lib.CText
import Mathlib.Data.Bool.AllAny

/-!
# Styled JSON

The writer of the JSON library (base/jsoncpp/json_writer.cpp), as far as it is used on values that
are made of objects, texts, integers and nulls. It appends to a document and looks at the end of
the document to see whether a new line is needed.

A text is written up to its first NUL, so the document has none.
-/

namespace ImServer

namespace Json

/-- `Json::Value` over bytes. The members of an object are in the order of their keys. -/
inductive Tree where
  | null
  | int (n : ℤ)
  | string (s : List UInt8)
  | object (members : List (List UInt8 × Tree))

namespace Tree

/-- `value[key]`, which is null if there is no such member. -/
def get : Tree → List UInt8 → Tree
  | .object members, key => (members.lookup key).getD .null
  | _, _ => .null

/-- The order of the keys is that of their bytes. -/
def insertMember (key : List UInt8) (value : Tree) :
    List (List UInt8 × Tree) → List (List UInt8 × Tree)
  | [] => [(key, value)]
  | (key', value') :: rest =>
    if key = key' then (key, value) :: rest
    else if key < key' then (key, value) :: (key', value') :: rest
    else (key', value') :: insertMember key value rest

/-- `value[key] = …`; a null becomes an object. -/
def set (tree : Tree) (key : String) (value : Tree) : Tree :=
  match tree with
  | .object members => .object (insertMember (CText.bytes key) value members)
  | _ => .object [(CText.bytes key, value)]

theorem lookup_insertMember_self (key : List UInt8) (value : Tree)
    (members : List (List UInt8 × Tree)) :
    (insertMember key value members).lookup key = some value := by
  induction members with
  | nil => exact List.lookup_cons_self
  | cons member rest ih =>
    rw [insertMember]
    split
    · exact List.lookup_cons_self
    · next hkey =>
      split
      · exact List.lookup_cons_self
      · rw [List.lookup_cons, beq_eq_false_iff_ne.mpr hkey]
        exact ih

theorem lookup_insertMember_of_ne {key key' : List UInt8} (hne : key' ≠ key) (value : Tree)
    (members : List (List UInt8 × Tree)) :
    (insertMember key value members).lookup key' = members.lookup key' := by
  have hskip : (key' == key) = false := beq_eq_false_iff_ne.mpr hne
  induction members with
  | nil => rw [insertMember, List.lookup_cons, hskip]
  | cons member rest ih =>
    rw [insertMember]
    split
    · next hkey => rw [List.lookup_cons, List.lookup_cons, ← hkey, hskip]
    · split
      · rw [List.lookup_cons, hskip]
      · rw [List.lookup_cons, List.lookup_cons, ih]

@[simp] theorem get_set_self (tree : Tree) (key : String) (value : Tree) :
    (tree.set key value).get (CText.bytes key) = value := by
  unfold set
  split
  · rw [get, lookup_insertMember_self, Option.getD_some]
  · rw [get, List.lookup_cons_self, Option.getD_some]

theorem get_set_of_ne {key : String} {key' : List UInt8} (hne : key' ≠ CText.bytes key)
    (tree : Tree) (value : Tree) : (tree.set key value).get key' = tree.get key' := by
  cases tree with
  | object members => rw [set, get, get, lookup_insertMember_of_ne hne]
  | null | int _ | string _ => simp [set, get, List.lookup_cons, beq_eq_false_iff_ne.mpr hne]

end Tree

def isControlCharacter (c : UInt8) : Bool := 0 < c && c ≤ 0x1F

def hexDigit (d : UInt8) : UInt8 := if d < 10 then 48 + d else 55 + d

/-- A character of a text between quotes. -/
def escape (c : UInt8) : List UInt8 :=
  if c = 34 then [92, 34]
  else if c = 92 then [92, 92]
  else if c = 8 then [92, 98]
  else if c = 12 then [92, 102]
  else if c = 10 then [92, 110]
  else if c = 13 then [92, 114]
  else if c = 9 then [92, 116]
  else if isControlCharacter c then [92, 117, 48, 48, hexDigit (c / 16), hexDigit (c % 16)]
  else [c]

/-- `valueToQuotedString`. -/
def quoted (text : List UInt8) : List UInt8 :=
  34 :: (text.takeWhile (· ≠ 0)).flatMap escape ++ [34]

/-- `writeIndent`. There is a new line unless the document is empty or ends with a blank or a new
line. -/
def writeIndent (indent : Nat) (document : List UInt8) : List UInt8 :=
  match document.getLast? with
  | none => List.replicate indent 32
  | some 32 => document
  | some 10 => document ++ List.replicate indent 32
  | some _ => document ++ 10 :: List.replicate indent 32

/-- There is a new line after a character that is neither a blank nor a new line. -/
theorem writeIndent_concat {c : UInt8} (hblank : c ≠ 32) (hline : c ≠ 10) (indent : Nat)
    (document : List UInt8) :
    writeIndent indent (document ++ [c]) = document ++ c :: 10 :: List.replicate indent 32 := by
  have hlast : (document ++ [c]).getLast? = some c := List.getLast?_concat
  unfold writeIndent
  split
  · next heq =>
    rw [hlast] at heq
    cases heq
  · next heq =>
    rw [hlast] at heq
    exact absurd (Option.some.inj heq) hblank
  · next heq =>
    rw [hlast] at heq
    exact absurd (Option.some.inj heq) hline
  · rw [List.append_assoc, List.singleton_append]

mutual

def writeValue (indent : Nat) (document : List UInt8) : Tree → List UInt8
  | .null => document ++ CText.bytes "null"
  | .int n => document ++ CText.bytes (toString n)
  | .string s => document ++ quoted s
  | .object [] => document ++ CText.bytes "\x7b\x7d"
  | .object (member :: members) =>
    let document := writeIndent indent document ++ CText.bytes "\x7b"
    let document := writeMembers (indent + 3) document (member :: members)
    writeIndent indent document ++ CText.bytes "\x7d"

def writeMembers (indent : Nat) (document : List UInt8) : List (List UInt8 × Tree) → List UInt8
  | [] => document
  | (name, value) :: members =>
    let document := writeIndent indent document ++ quoted name ++ CText.bytes " : "
    let document := writeValue indent document value
    match members with
    | [] => document
    | member :: members => writeMembers indent (document ++ CText.bytes ",") (member :: members)

end

/-- `toStyledString`. A new writer has an empty document, and the text ends with a new line. -/
def toStyledString (tree : Tree) : List UInt8 := writeValue 0 [] tree ++ [10]

/-- The bytes with an escape of one character, and that character. -/
def shortEscapes : List (UInt8 × UInt8) :=
  [(34, 34), (92, 92), (8, 98), (12, 102), (10, 110), (13, 114), (9, 116)]

/-- A byte has a short escape, or is escaped by its code, or stands for itself. -/
theorem escape_eq (c : UInt8) :
    (∃ d, (c, d) ∈ shortEscapes ∧ escape c = [92, d]) ∨
      (isControlCharacter c = true ∧
        escape c = [92, 117, 48, 48, hexDigit (c / 16), hexDigit (c % 16)]) ∨
      (escape c = [c] ∧ c ≠ 34 ∧ c ≠ 92 ∧ isControlCharacter c = false) := by
  by_cases hshort : c ∈ shortEscapes.map Prod.fst
  · obtain ⟨⟨c, d⟩, hd, rfl⟩ := List.mem_map.mp hshort
    have hall : ∀ p ∈ shortEscapes, escape p.1 = [92, p.2] :=
      List.all_iff_forall_prop.mp (by decide)
    exact .inl ⟨d, hd, hall _ hd⟩
  · simp only [shortEscapes, List.map_cons, List.map_nil, List.mem_cons, List.not_mem_nil, or_false,
      not_or] at hshort
    obtain ⟨hquote, hbackslash, hb, hf, hn, hr, ht⟩ := hshort
    rw [escape, if_neg hquote, if_neg hbackslash, if_neg hb, if_neg hf, if_neg hn, if_neg hr,
      if_neg ht]
    split
    · next hcontrol => exact .inr (.inl ⟨hcontrol, rfl⟩)
    · next hcontrol =>
      exact .inr (.inr ⟨rfl, hquote, hbackslash, Bool.eq_false_iff.mpr hcontrol⟩)

theorem hexDigit_ne_zero {d : UInt8} (h : d.toNat < 16) : hexDigit d ≠ 0 := by
  have hall : ∀ n < 16, hexDigit (UInt8.ofNat n) ≠ 0 := by decide
  have hd := hall d.toNat h
  rwa [UInt8.ofNat_toNat] at hd

theorem zero_not_mem_escape {c : UInt8} (h : c ≠ 0) : 0 ∉ escape c := by
  obtain ⟨d, hd, hescape⟩ | ⟨-, hescape⟩ | ⟨hescape, -⟩ := escape_eq c
  · have hall : ∀ p ∈ shortEscapes, 0 ∉ [92, p.2] := List.all_iff_forall_prop.mp (by decide)
    rw [hescape]
    exact hall _ hd
  · have hhigh : hexDigit (c / 16) ≠ 0 := hexDigit_ne_zero (by
      rw [UInt8.toNat_div]
      exact Nat.div_lt_of_lt_mul c.toNat_lt)
    have hlow : hexDigit (c % 16) ≠ 0 := hexDigit_ne_zero (by
      rw [UInt8.toNat_mod]
      exact Nat.mod_lt _ (by decide))
    rw [hescape]
    simp [Ne.symm hhigh, Ne.symm hlow]
  · rw [hescape, List.mem_singleton]
    exact Ne.symm h

theorem zero_not_mem_quoted (text : List UInt8) : 0 ∉ quoted text := by
  have hchars : 0 ∉ (text.takeWhile (· ≠ 0)).flatMap escape := by
    rintro hmem
    obtain ⟨c, hc, hzero⟩ := List.mem_flatMap.mp hmem
    exact zero_not_mem_escape (by simpa using List.mem_takeWhile_imp hc) hzero
  simpa [quoted] using hchars

theorem zero_not_mem_toString (n : ℤ) : 0 ∉ CText.bytes (toString n) := by
  have hdigits : ∀ n : Nat, 0 ∉ CText.bytes (toString n) := fun n hmem =>
    absurd (CText.mem_bytes_toString hmem).1 (by decide)
  cases n with
  | ofNat n => exact hdigits n
  | negSucc n =>
    have htext : toString (Int.negSucc n) = "-" ++ toString (n + 1) := rfl
    rw [htext, CText.bytes_append, List.mem_append, not_or]
    exact ⟨by decide, hdigits (n + 1)⟩

theorem zero_not_mem_writeIndent {indent : Nat} {document : List UInt8} (h : 0 ∉ document) :
    0 ∉ writeIndent indent document := by
  unfold writeIndent
  split <;> simp [h, List.mem_replicate]

theorem zero_not_mem_name {indent : Nat} {document : List UInt8} (h : 0 ∉ document)
    (name : List UInt8) :
    0 ∉ writeIndent indent document ++ quoted name ++ CText.bytes " : " := by
  rw [List.mem_append, List.mem_append, not_or, not_or]
  exact ⟨⟨zero_not_mem_writeIndent h, zero_not_mem_quoted name⟩, by decide⟩

mutual

theorem zero_not_mem_writeValue {indent : Nat} {document : List UInt8} (h : 0 ∉ document) :
    (tree : Tree) → 0 ∉ writeValue indent document tree
  | .null => by
    rw [writeValue, List.mem_append, not_or]
    exact ⟨h, by decide⟩
  | .int n => by
    rw [writeValue, List.mem_append, not_or]
    exact ⟨h, zero_not_mem_toString n⟩
  | .string s => by
    rw [writeValue, List.mem_append, not_or]
    exact ⟨h, zero_not_mem_quoted s⟩
  | .object [] => by
    rw [writeValue, List.mem_append, not_or]
    exact ⟨h, by decide⟩
  | .object (member :: members) => by
    rw [writeValue, List.mem_append, not_or]
    refine ⟨zero_not_mem_writeIndent (zero_not_mem_writeMembers ?_ (member :: members)), by decide⟩
    rw [List.mem_append, not_or]
    exact ⟨zero_not_mem_writeIndent h, by decide⟩

theorem zero_not_mem_writeMembers {indent : Nat} {document : List UInt8} (h : 0 ∉ document) :
    (members : List (List UInt8 × Tree)) → 0 ∉ writeMembers indent document members
  | [] => by
    rw [writeMembers]
    exact h
  | [(name, value)] => by
    rw [writeMembers]
    exact zero_not_mem_writeValue (zero_not_mem_name h name) value
  | (name, value) :: member :: members => by
    rw [writeMembers]
    refine zero_not_mem_writeMembers ?_ (member :: members)
    rw [List.mem_append, not_or]
    exact ⟨zero_not_mem_writeValue (zero_not_mem_name h name) value, by decide⟩

end

theorem zero_not_mem_toStyledString (tree : Tree) : 0 ∉ toStyledString tree := by
  rw [toStyledString, List.mem_append, not_or]
  exact ⟨zero_not_mem_writeValue List.not_mem_nil tree, by decide⟩

theorem toStyledString_ne_nil (tree : Tree) : toStyledString tree ≠ [] :=
  List.append_ne_nil_of_right_ne_nil _ (List.cons_ne_nil _ _)

mutual

/-- No text in the value has a NUL. -/
def Tree.NulFree : Tree → Prop
  | .string s => 0 ∉ s
  | .object members => NulFreeMembers members
  | _ => True

def NulFreeMembers : List (List UInt8 × Tree) → Prop
  | [] => True
  | (name, value) :: members => 0 ∉ name ∧ value.NulFree ∧ NulFreeMembers members

end

/-- The text says the whole of the value. A text with a NUL is not written to its end. -/
structure Says (text : List UInt8) (tree : Tree) : Prop where
  text_eq : text = toStyledString tree
  nulFree : tree.NulFree

theorem Tree.NulFree.set {tree value : Tree} (h : tree.NulFree) (hvalue : value.NulFree)
    {key : String} (hkey : 0 ∉ CText.bytes key) : (tree.set key value).NulFree := by
  have hinsert : ∀ members, NulFreeMembers members →
      NulFreeMembers (insertMember (CText.bytes key) value members) := by
    intro members hmembers
    induction members with
    | nil => exact ⟨hkey, hvalue, trivial⟩
    | cons member rest ih =>
      obtain ⟨hname, hmember, hrest⟩ := hmembers
      rw [insertMember]
      split
      · exact ⟨hkey, hvalue, hrest⟩
      · split
        · exact ⟨hkey, hvalue, hname, hmember, hrest⟩
        · exact ⟨hname, hmember, ih hrest⟩
  cases tree with
  | object members => exact hinsert members h
  | null | int _ | string _ => exact ⟨hkey, hvalue, trivial⟩

theorem Tree.NulFree.get {tree : Tree} (h : tree.NulFree) (key : List UInt8) :
    (tree.get key).NulFree := by
  have hlookup : ∀ members, NulFreeMembers members →
      ((members.lookup key).getD Tree.null).NulFree := by
    intro members hmembers
    induction members with
    | nil => exact trivial
    | cons member rest ih =>
      obtain ⟨-, hmember, hrest⟩ := hmembers
      rw [List.lookup_cons]
      split
      · exact hmember
      · exact ih hrest
  cases tree with
  | object members => exact hlookup members h
  | null | int _ | string _ => exact trivial

mutual

/-- The value with its texts up to their first NUL, which is what is written of it. -/
def Tree.cut : Tree → Tree
  | .null => .null
  | .int n => .int n
  | .string s => .string (CText.cStr s)
  | .object members => .object (cutMembers members)

def cutMembers : List (List UInt8 × Tree) → List (List UInt8 × Tree)
  | [] => []
  | (name, value) :: members => (name, value.cut) :: cutMembers members

end

theorem quoted_cStr (s : List UInt8) : quoted (CText.cStr s) = quoted s := by
  rw [quoted, ← CText.cStr, CText.cStr_cStr]
  rfl

mutual

theorem writeValue_cut (indent : Nat) (document : List UInt8) :
    (tree : Tree) → writeValue indent document tree.cut = writeValue indent document tree
  | .null => rfl
  | .int _ => rfl
  | .string s => congrArg (document ++ ·) (quoted_cStr s)
  | .object [] => rfl
  | .object ((name, value) :: members) => by
    rw [Tree.cut, cutMembers, writeValue, writeValue, ← cutMembers, writeMembers_cut]

theorem writeMembers_cut (indent : Nat) (document : List UInt8) :
    (members : List (List UInt8 × Tree)) →
      writeMembers indent document (cutMembers members) = writeMembers indent document members
  | [] => rfl
  | [(name, value)] => by
    rw [cutMembers, cutMembers, writeMembers, writeMembers, writeValue_cut indent _ value]
  | (name, value) :: (name', value') :: members => by
    rw [cutMembers, cutMembers, writeMembers, writeMembers, writeValue_cut indent _ value,
      ← cutMembers, writeMembers_cut indent _ ((name', value') :: members)]

end

theorem toStyledString_cut (tree : Tree) : toStyledString tree.cut = toStyledString tree := by
  rw [toStyledString, toStyledString, writeValue_cut]

theorem Tree.get_cut (tree : Tree) (key : List UInt8) : tree.cut.get key = (tree.get key).cut := by
  have hlookup : ∀ members, ((cutMembers members).lookup key).getD Tree.null =
      ((members.lookup key).getD Tree.null).cut := by
    intro members
    induction members with
    | nil => rfl
    | cons member rest ih =>
      obtain ⟨name, value⟩ := member
      rw [cutMembers, List.lookup_cons, List.lookup_cons]
      split
      · rfl
      · exact ih
  cases tree with
  | object members => exact hlookup members
  | null | int _ | string _ => rfl

theorem Tree.cut_set (tree : Tree) (key : String) (value : Tree) :
    (tree.set key value).cut = tree.cut.set key value.cut := by
  have hinsert : ∀ members, cutMembers (insertMember (CText.bytes key) value members) =
      insertMember (CText.bytes key) value.cut (cutMembers members) := by
    intro members
    induction members with
    | nil => rfl
    | cons member rest ih =>
      obtain ⟨name, old⟩ := member
      rw [insertMember, cutMembers, insertMember]
      split
      · rfl
      · split
        · rfl
        · rw [cutMembers, ih]
  cases tree with
  | object members => exact congrArg Tree.object (hinsert members)
  | null | int _ | string _ => rfl

@[simp] theorem Tree.cut_string (s : List UInt8) : (Tree.string s).cut = .string (CText.cStr s) := rfl

theorem Tree.NulFree.cutNull : Tree.null.cut.NulFree := trivial

theorem Tree.NulFree.cutInt (n : ℤ) : (Tree.int n).cut.NulFree := trivial

theorem Tree.NulFree.cutString (s : List UInt8) : (Tree.string s).cut.NulFree := CText.zero_not_mem_cStr s

/-- A member keeps the value free of NULs once it is cut, if its name has none. -/
theorem Tree.NulFree.cutSet {tree value : Tree} (h : tree.cut.NulFree) (hvalue : value.cut.NulFree)
    {key : String} (hkey : 0 ∉ CText.bytes key) : (tree.set key value).cut.NulFree := by
  rw [Tree.cut_set]
  exact h.set hvalue hkey

end Json

end ImServer
