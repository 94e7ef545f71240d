import Mathlib.Data.List.TakeWhile

/-!
# Form texts

The rules of application/x-www-form-urlencoded for the reader of a form text, over bytes. The text
is cut at each `&`, empty pieces are passed over, a piece is cut at its first `=`, and in both parts
a `+` stands for a blank and a percent sign before two hexadecimal digits for a byte.

A form can be written without regard to these rules, with names and values just put after each
other. The main result says that it is read as it was meant if and only if each of its values is. A
value that was put in as it stands must be plain for that, and it must be whole, since reading never
makes a text longer.
-/

namespace FormUrlencoded

/-- A name and a value. -/
abbrev Field := List UInt8 × List UInt8

def isHex (c : UInt8) : Bool := (48 ≤ c && c ≤ 57) || (65 ≤ c && c ≤ 70) || (97 ≤ c && c ≤ 102)

def hexValue (c : UInt8) : UInt8 := if c ≤ 57 then c - 48 else if c ≤ 70 then c - 55 else c - 87

/-- Whether the text begins with two hexadecimal digits. -/
def startsHex : List UInt8 → Bool
  | a :: b :: _ => isHex a && isHex b
  | _ => false

/-- Whether some percent sign stands for a byte. -/
def escaped : List UInt8 → Bool
  | [] => false
  | c :: rest => (c = 37 && startsHex rest) || escaped rest

def percentDecode : List UInt8 → List UInt8
  | c :: a :: b :: rest =>
    if c = 37 ∧ isHex a ∧ isHex b then (16 * hexValue a + hexValue b) :: percentDecode rest
    else c :: percentDecode (a :: b :: rest)
  | text => text

def plusToBlank (c : UInt8) : UInt8 := if c = 43 then 32 else c

def decode (text : List UInt8) : List UInt8 := percentDecode (text.map plusToBlank)

/-- A piece of the text. -/
def field (piece : List UInt8) : Field :=
  (decode (piece.takeWhile (· ≠ 61)), decode ((piece.dropWhile (· ≠ 61)).drop 1))

/-- The fields of a form text. Empty pieces between separators are no fields. -/
def parse (text : List UInt8) : List Field := ((text.splitOn 38).filter (· ≠ [])).map field

theorem percentDecode_cons_of_ne {c : UInt8} (hc : c ≠ 37) (text : List UInt8) :
    percentDecode (c :: text) = c :: percentDecode text := by
  match text with
  | [] => rfl
  | [_] => rfl
  | a :: b :: rest =>
    rw [percentDecode, if_neg]
    exact fun h => hc h.1

theorem percentDecode_escape {a b : UInt8} (ha : isHex a = true) (hb : isHex b = true)
    (rest : List UInt8) :
    percentDecode (37 :: a :: b :: rest) = (16 * hexValue a + hexValue b) :: percentDecode rest := by
  rw [percentDecode, if_pos ⟨rfl, ha, hb⟩]

theorem length_percentDecode_le (text : List UInt8) :
    (percentDecode text).length ≤ text.length := by
  induction text using percentDecode.induct with
  | case1 c a b rest h ih =>
    rw [percentDecode, if_pos h]
    simp only [List.length_cons]
    omega
  | case2 c a b rest h ih =>
    rw [percentDecode, if_neg h]
    simp only [List.length_cons] at ih ⊢
    omega
  | case3 text h =>
    rw [percentDecode]
    exact h

/-- A text without escapes stays, and with one it gets shorter. -/
theorem percentDecode_spec (text : List UInt8) :
    if escaped text then (percentDecode text).length < text.length
    else percentDecode text = text := by
  induction text using percentDecode.induct with
  | case1 c a b rest h ih =>
    have hescaped : escaped (c :: a :: b :: rest) = true := by
      simp [escaped, startsHex, h]
    have hle := length_percentDecode_le rest
    rw [if_pos hescaped, percentDecode, if_pos h]
    simp only [List.length_cons]
    omega
  | case2 c a b rest h ih =>
    have hescaped : escaped (c :: a :: b :: rest) = escaped (a :: b :: rest) := by
      rw [escaped]
      simp only [startsHex, ← Bool.and_assoc]
      simp only [not_and_or] at h
      grind
    rw [hescaped, percentDecode, if_neg h]
    split
    · next hrest =>
      rw [if_pos hrest] at ih
      exact Nat.succ_lt_succ ih
    · next hrest =>
      rw [if_neg hrest] at ih
      rw [ih]
  | case3 text h =>
    have hescaped : escaped text = false := by
      match text with
      | [] => rfl
      | [_] => simp [escaped, startsHex]
      | [_, _] => simp [escaped, startsHex]
      | c :: a :: b :: rest => exact (h c a b rest rfl).elim
    rw [hescaped, if_neg Bool.false_ne_true, percentDecode]
    exact h

theorem length_decode_le (text : List UInt8) : (decode text).length ≤ text.length := by
  have hle := length_percentDecode_le (text.map plusToBlank)
  rwa [List.length_map] at hle

theorem map_plusToBlank_eq_self_iff {text : List UInt8} :
    text.map plusToBlank = text ↔ 43 ∉ text := by
  induction text with
  | nil => simp
  | cons c text ih =>
    rw [List.map_cons, List.cons.injEq, ih, List.mem_cons, not_or]
    refine and_congr_left fun _ => ?_
    rw [plusToBlank]
    split
    · next hc =>
      subst hc
      decide
    · next hc => exact iff_of_true rfl (Ne.symm hc)

theorem decode_eq_self_iff {text : List UInt8} :
    decode text = text ↔ 43 ∉ text ∧ escaped text = false := by
  have hspec := percentDecode_spec (text.map plusToBlank)
  constructor
  · intro h
    have hlength : (percentDecode (text.map plusToBlank)).length = (text.map plusToBlank).length := by
      rw [List.length_map]
      exact congrArg List.length h
    split at hspec
    · exact absurd hlength (Nat.ne_of_lt hspec)
    · next hescaped =>
      have hmap : text.map plusToBlank = text := hspec.symm.trans h
      rw [hmap] at hescaped
      exact ⟨map_plusToBlank_eq_self_iff.mp hmap, Bool.eq_false_iff.mpr hescaped⟩
  · rintro ⟨hplus, hescaped⟩
    rw [decode]
    rw [map_plusToBlank_eq_self_iff.mpr hplus, hescaped, if_neg Bool.false_ne_true] at hspec
    rwa [map_plusToBlank_eq_self_iff.mpr hplus]

/-- A text that is read as it stands: it has no separator, no plus sign and nothing that looks like
an escape. -/
structure Plain (text : List UInt8) : Prop where
  separator : 38 ∉ text
  plus : 43 ∉ text
  escape : escaped text = false

instance decidablePlain (text : List UInt8) : Decidable (Plain text) :=
  decidable_of_iff (38 ∉ text ∧ 43 ∉ text ∧ escaped text = false)
    ⟨fun h => ⟨h.1, h.2.1, h.2.2⟩, fun h => ⟨h.1, h.2, h.3⟩⟩

theorem Plain.decode_eq {text : List UInt8} (h : Plain text) : decode text = text :=
  decode_eq_self_iff.mpr ⟨h.plus, h.escape⟩

/-- An escape in a text that is put after another has its percent sign in one of them. -/
theorem escaped_append {text : List UInt8} (h : 37 ∉ text) (more : List UInt8) :
    escaped (text ++ more) = escaped more := by
  induction text with
  | nil => rfl
  | cons c text ih =>
    obtain ⟨hc, htext⟩ := not_or.mp (List.mem_cons.not.mp h)
    rw [List.cons_append, escaped, ih htext, decide_eq_false (Ne.symm hc), Bool.false_and,
      Bool.false_or]

theorem escaped_eq_false {text : List UInt8} (h : 37 ∉ text) : escaped text = false := by
  rw [← List.append_nil text, escaped_append h]
  rfl

/-- No byte of the text has a meaning of its own. -/
def Ordinary (text : List UInt8) : Prop := ∀ c ∈ text, c ∉ ([37, 38, 43] : List UInt8)

instance decidableOrdinary (text : List UInt8) : Decidable (Ordinary text) :=
  List.decidableBAll _ text

theorem Ordinary.append {text more : List UInt8} (h : Ordinary text) (hmore : Ordinary more) :
    Ordinary (text ++ more) := by
  intro c hc
  exact (List.mem_append.mp hc).elim (h c) (hmore c)

theorem Ordinary.not_mem {text : List UInt8} (h : Ordinary text) {c : UInt8}
    (hc : c ∈ ([37, 38, 43] : List UInt8)) : c ∉ text :=
  fun hmem => h c hmem hc

theorem Ordinary.plain {text : List UInt8} (h : Ordinary text) : Plain text :=
  ⟨h.not_mem (by decide), h.not_mem (by decide), escaped_eq_false (h.not_mem (by decide))⟩

theorem Ordinary.plain_append_iff {front text : List UInt8} (h : Ordinary front) :
    Plain (front ++ text) ↔ Plain text := by
  have hseparator : 38 ∉ front := h.not_mem (by decide)
  have hplus : 43 ∉ front := h.not_mem (by decide)
  have hescape := escaped_append (h.not_mem (by decide : 37 ∈ ([37, 38, 43] : List UInt8))) text
  constructor
  · rintro ⟨hamp, hadd, hesc⟩
    exact ⟨fun hmem => hamp (List.mem_append_right _ hmem),
      fun hmem => hadd (List.mem_append_right _ hmem), hescape ▸ hesc⟩
  · rintro ⟨hamp, hadd, hesc⟩
    refine ⟨?_, ?_, hescape.trans hesc⟩
    · rw [List.mem_append, not_or]
      exact ⟨hseparator, hamp⟩
    · rw [List.mem_append, not_or]
      exact ⟨hplus, hadd⟩

theorem parse_append_separator (text more : List UInt8) :
    parse (text ++ 38 :: more) = parse text ++ parse more := by
  rw [parse, List.splitOn_append_cons_self, List.filter_append, List.map_append]
  rfl

theorem field_eq {name : List UInt8} (hname : 61 ∉ name) (value : List UInt8) :
    field (name ++ 61 :: value) = (decode name, decode value) := by
  have hall : ∀ c ∈ name, decide (c ≠ 61) = true := by
    intro c hc
    exact decide_eq_true (fun h => hname (h ▸ hc))
  rw [field, List.takeWhile_append_of_pos hall, List.dropWhile_append_of_pos hall,
    List.takeWhile_cons_of_neg (by decide), List.dropWhile_cons_of_neg (by decide),
    List.append_nil, List.drop_one, List.tail_cons]

theorem parse_piece {name value : List UInt8} (hname : Plain name) (heq : 61 ∉ name)
    (hvalue : 38 ∉ value) : parse (name ++ 61 :: value) = [(name, decode value)] := by
  have hpiece : 38 ∉ name ++ 61 :: value := by
    rw [List.mem_append, List.mem_cons, not_or, not_or]
    exact ⟨hname.separator, by decide, hvalue⟩
  rw [parse, List.splitOn_eq_singleton hpiece, List.filter_cons_of_pos, List.filter_nil,
    List.map_singleton, field_eq heq, hname.decode_eq]
  simp

/-- The first field of a name and a value has no more than the value, and all of it only if there is
no separator. -/
theorem parse_piece_eq_cons {name : List UInt8} (hname : Plain name) (heq : 61 ∉ name)
    (value : List UInt8) :
    ∃ first more, parse (name ++ 61 :: value) = (name, decode first) :: more ∧
      first.length ≤ value.length ∧ (first.length = value.length → first = value ∧ 38 ∉ value) := by
  by_cases hvalue : 38 ∈ value
  · obtain ⟨first, rest, rfl, hfirst⟩ := List.eq_append_cons_of_mem hvalue
    refine ⟨first, parse rest, ?_, ?_, ?_⟩
    · have hsplit : name ++ 61 :: (first ++ 38 :: rest) = (name ++ 61 :: first) ++ 38 :: rest := by
        rw [List.append_assoc, List.cons_append]
      rw [hsplit, parse_append_separator, parse_piece hname heq hfirst, List.singleton_append]
    · rw [List.length_append]
      exact Nat.le_add_right _ _
    · intro hlength
      rw [List.length_append, List.length_cons] at hlength
      omega
  · exact ⟨value, [], parse_piece hname heq hvalue, le_rfl, fun _ => ⟨rfl, hvalue⟩⟩

/-- What is written for a field, and what it is meant to be. -/
structure Entry where
  name : List UInt8
  written : List UInt8
  meant : List UInt8

namespace Entry

def piece (entry : Entry) : List UInt8 := entry.name ++ 61 :: entry.written

def field (entry : Entry) : Field := (entry.name, entry.meant)

/-- The value is read as it was meant. -/
structure Reads (entry : Entry) : Prop where
  separator : 38 ∉ entry.written
  decode : decode entry.written = entry.meant

/-- The name can be read, and the value is read as it was meant, unless it was written as it is or
something of it is missing. -/
structure Formed (entry : Entry) : Prop where
  name : Plain entry.name
  equals : 61 ∉ entry.name
  value : entry.Reads ∨ entry.written = entry.meant ∨ entry.written.length < entry.meant.length

theorem Reads.parse_eq {entry : Entry} (h : entry.Reads) (hformed : entry.Formed) :
    parse entry.piece = [entry.field] := by
  rw [piece, parse_piece hformed.name hformed.equals h.separator, h.decode, field]

/-- A value that was written as it is, or cut, is read as it was meant only if it is whole and
plain. -/
theorem reads_iff {entry : Entry}
    (h : entry.written = entry.meant ∨ entry.written.length < entry.meant.length) :
    entry.Reads ↔ entry.written = entry.meant ∧ Plain entry.meant := by
  constructor
  · intro hreads
    have hdecode := length_decode_le entry.written
    rw [hreads.decode] at hdecode
    have hwritten : entry.written = entry.meant :=
      h.resolve_right (Nat.not_lt.mpr hdecode)
    obtain ⟨hplus, hescape⟩ := decode_eq_self_iff.mp (hwritten ▸ hreads.decode)
    exact ⟨hwritten, hwritten ▸ hreads.separator, hplus, hescape⟩
  · rintro ⟨hwritten, hplain⟩
    exact ⟨hwritten ▸ hplain.separator, hwritten ▸ hplain.decode_eq⟩

theorem Formed.reads {entry : Entry} (hformed : entry.Formed) {more more' : List Field}
    (h : parse entry.piece ++ more = entry.field :: more') : entry.Reads := by
  obtain hreads | hshort := hformed.value
  · exact hreads
  · obtain ⟨first, others, hparse, hle, hall⟩ :=
      parse_piece_eq_cons hformed.name hformed.equals entry.written
    rw [piece, hparse, List.cons_append, field, List.cons.injEq, Prod.mk.injEq] at h
    have hmeant : FormUrlencoded.decode first = entry.meant := h.1.2
    have hdecode := length_decode_le first
    rw [hmeant] at hdecode
    have hlength : first.length = entry.written.length := by
      obtain hwritten | hshort := hshort
      · rw [hwritten] at hle ⊢
        exact Nat.le_antisymm hle hdecode
      · omega
    obtain ⟨rfl, hseparator⟩ := hall hlength
    exact ⟨hseparator, hmeant⟩

end Entry

/-- A form with the values as they were written, whether these can be read back or not. -/
def write (entries : List Entry) : List UInt8 := [38].intercalate (entries.map Entry.piece)

theorem parse_write_cons (entry : Entry) (entries : List Entry) :
    parse (write (entry :: entries)) = parse entry.piece ++ parse (write entries) := by
  cases entries with
  | nil =>
    rw [write, List.map_singleton, List.intercalate_singleton]
    exact (List.append_nil _).symm
  | cons entry' entries =>
    rw [write, List.map_cons, List.map_cons, List.intercalate_cons_cons, List.append_assoc,
      List.singleton_append, parse_append_separator]
    rfl

/-- A form is read as it was meant if and only if each of its values is. -/
theorem parse_write_iff {entries : List Entry} (hformed : ∀ entry ∈ entries, entry.Formed) :
    parse (write entries) = entries.map Entry.field ↔ ∀ entry ∈ entries, entry.Reads := by
  induction entries with
  | nil => exact iff_of_true rfl (List.forall_mem_nil _)
  | cons entry entries ih =>
    obtain ⟨hentry, hentries⟩ := List.forall_mem_cons.mp hformed
    rw [parse_write_cons, List.map_cons, List.forall_mem_cons, ← ih hentries]
    constructor
    · intro h
      have hreads : entry.Reads := hentry.reads h
      rw [hreads.parse_eq hentry, List.singleton_append, List.cons.injEq] at h
      exact ⟨hreads, h.2⟩
    · rintro ⟨hreads, h⟩
      rw [hreads.parse_eq hentry, h, List.singleton_append]

end FormUrlencoded
