import ImServer.Base.JsonComplete
import ImServer.Base.JsonWriter

/-!
# Styled JSON with arrays

The writer of the JSON library on all values but real numbers (base/jsoncpp/json_writer.cpp). An
array is written on one line if it is short and has no filled arrays and objects. To find out, the
writer writes the items aside, and these texts are used for both layouts.
-/

namespace ImServer

namespace Json

open JsonText (Value Chars Blanks Reads)

inductive Styled where
  | null
  | bool (b : Bool)
  | int (n : ℤ)
  | string (s : List UInt8)
  | array (items : List Styled)
  | object (members : List (List UInt8 × Styled))

namespace Styled

/-- `isArray() || isObject()`, with a `size()` that is not 0. -/
def isFilled : Styled → Bool
  | array (_ :: _) | object (_ :: _) => true
  | _ => false

end Styled

/-- `indentString_` has blanks only. The comments that a `Json::Value` may have are left out, since the
program gives none to its values. -/
structure StyledWriter where
  document : List UInt8 := []
  indentString : ℕ := 0
  childValues : List (List UInt8) := []
  addChildValues : Bool := false

namespace StyledWriter

def rightMargin : ℕ := 74

def indentSize : ℕ := 3

/-- The length of an array on one line. -/
def lineLength (size : ℕ) (childValues : List (List UInt8)) : ℕ :=
  childValues.foldl (fun length value => length + value.length) (4 + (size - 1) * 2)

section Parts

variable (w : StyledWriter)

def add (text : List UInt8) : StyledWriter := { w with document := w.document ++ text }

def pushValue (value : List UInt8) : StyledWriter :=
  if w.addChildValues then { w with childValues := w.childValues ++ [value] } else w.add value

def writeIndent : StyledWriter :=
  { w with document := Json.writeIndent w.indentString w.document }

def writeWithIndent (value : List UInt8) : StyledWriter := w.writeIndent.add value

def indent : StyledWriter := { w with indentString := w.indentString + indentSize }

def unindent : StyledWriter := { w with indentString := w.indentString - indentSize }

/-- The loop over `childValues_` that writes an array on one line. -/
def writeLine : StyledWriter :=
  ((w.add (CText.bytes "[ ")).add ((CText.bytes ", ").intercalate w.childValues)).add
    (CText.bytes " ]")

/-- Whether an array takes more than one line; `pushItems` writes its items. -/
def isMultineArray (items : List Styled) (pushItems : StyledWriter → StyledWriter) :
    StyledWriter × Bool :=
  let w := { w with childValues := [] }
  if rightMargin ≤ items.length * 3 ∨ items.any Styled.isFilled then (w, true)
  else
    let w := pushItems { w with addChildValues := true }
    ({ w with addChildValues := false }, rightMargin ≤ lineLength items.length w.childValues)

end Parts

mutual

def writeValue (w : StyledWriter) : Styled → StyledWriter
  | .null => w.pushValue (CText.bytes "null")
  | .bool true => w.pushValue (CText.bytes "true")
  | .bool false => w.pushValue (CText.bytes "false")
  | .int n => w.pushValue (CText.bytes (toString n))
  | .string s => w.pushValue (quoted s)
  | .array [] => w.pushValue (CText.bytes "[]")
  | .array (item :: items) =>
    match w.isMultineArray (item :: items) fun w => pushItems w (item :: items) with
    | (w, true) =>
      let hasChildValue := !w.childValues.isEmpty
      let w := (w.writeWithIndent (CText.bytes "[")).indent
      let w := writeItems w hasChildValue 0 (item :: items)
      w.unindent.writeWithIndent (CText.bytes "]")
    | (w, false) => w.writeLine
  | .object [] => w.pushValue (CText.bytes "\x7b\x7d")
  | .object (member :: members) =>
    let w := (w.writeWithIndent (CText.bytes "\x7b")).indent
    let w := writeMembers w (member :: members)
    w.unindent.writeWithIndent (CText.bytes "\x7d")

/-- The items of an array, each on a line of its own. -/
def writeItems (w : StyledWriter) (hasChildValue : Bool) (index : ℕ) : List Styled → StyledWriter
  | [] => w
  | item :: items =>
    let w :=
      if hasChildValue then w.writeWithIndent (w.childValues.getD index [])
      else writeValue w.writeIndent item
    match items with
    | [] => w
    | item :: items =>
      writeItems (w.add (CText.bytes ",")) hasChildValue (index + 1) (item :: items)

def writeMembers (w : StyledWriter) : List (List UInt8 × Styled) → StyledWriter
  | [] => w
  | (name, value) :: members =>
    let w := writeValue ((w.writeWithIndent (quoted name)).add (CText.bytes " : ")) value
    match members with
    | [] => w
    | member :: members => writeMembers (w.add (CText.bytes ",")) (member :: members)

/-- The texts of items go to `childValues_`. -/
def pushItems (w : StyledWriter) : List Styled → StyledWriter
  | [] => w
  | item :: items => pushItems (writeValue w item) items

end

/-- `write`. A new writer has an empty document, and the text ends with a new line. -/
def write (root : Styled) : List UInt8 := (writeValue {} root).document ++ [10]

end StyledWriter

def newLine (indent : ℕ) : List UInt8 := 10 :: List.replicate indent 32

/-- The text ends where a new line is due. -/
def Solid (text : List UInt8) : Prop := ∃ body c, text = body ++ [c] ∧ c ≠ 32 ∧ c ≠ 10

theorem Solid.append_left {text : List UInt8} (h : Solid text) (front : List UInt8) :
    Solid (front ++ text) := by
  obtain ⟨body, c, rfl, hblank, hline⟩ := h
  exact ⟨front ++ body, c, (List.append_assoc _ _ _).symm, hblank, hline⟩

theorem Solid.writeIndent_eq {document : List UInt8} (h : Solid document) (indent : ℕ) :
    writeIndent indent document = document ++ newLine indent := by
  obtain ⟨body, c, rfl, hblank, hline⟩ := h
  rw [writeIndent_concat hblank hline, newLine, List.append_assoc, List.singleton_append]

theorem solid_toString (n : ℤ) : Solid (CText.bytes (toString n)) := by
  have hdigits : ∀ n : ℕ, Solid (CText.bytes (toString n)) := by
    intro n
    have hne := CText.bytes_toString_ne_nil n
    have hlast := CText.mem_bytes_toString (List.getLast_mem hne)
    refine ⟨_, _, (List.dropLast_append_getLast hne).symm, ?_, ?_⟩
    all_goals
      intro heq
      rw [heq] at hlast
      exact absurd hlast.1 (by decide)
  cases n with
  | ofNat n => exact hdigits n
  | negSucc n =>
    rw [CText.bytes_toString_negSucc]
    exact (hdigits (n + 1)).append_left [45]

theorem solid_brace (document : List UInt8) : Solid (document ++ CText.bytes "\x7b") :=
  ⟨document, 123, rfl, by decide, by decide⟩

theorem solid_comma (document : List UInt8) : Solid (document ++ CText.bytes ",") :=
  ⟨document, 44, rfl, by decide, by decide⟩

theorem writeIndent_name (indent : ℕ) (document : List UInt8) :
    writeIndent indent (document ++ CText.bytes " : ") = document ++ CText.bytes " : " := by
  have hlast : (document ++ CText.bytes " : ").getLast? = some 32 :=
    List.getLast?_append_of_ne_nil document (by decide)
  rw [writeIndent, hlast]
  rfl

/-- The text of a value that is written aside. -/
def leafText : Styled → List UInt8
  | .null => CText.bytes "null"
  | .bool true => CText.bytes "true"
  | .bool false => CText.bytes "false"
  | .int n => CText.bytes (toString n)
  | .string s => quoted s
  | .array _ => CText.bytes "[]"
  | .object _ => CText.bytes "\x7b\x7d"

/-- An array that takes more than one line. -/
def IsMultiLine (items : List Styled) : Prop :=
  (StyledWriter.rightMargin ≤ items.length * 3 ∨ items.any Styled.isFilled) ∨
    StyledWriter.rightMargin ≤ StyledWriter.lineLength items.length (items.map leafText)

instance (items : List Styled) : Decidable (IsMultiLine items) :=
  inferInstanceAs (Decidable (_ ∨ _))

mutual

/-- What is written where no new line is due. -/
def styledText (indent : ℕ) : Styled → List UInt8
  | .array (item :: items) =>
    if IsMultiLine (item :: items) then
      91 :: (itemsText (indent + 3) (item :: items) ++ newLine indent ++ [93])
    else
      CText.bytes "[ " ++ (CText.bytes ", ").intercalate ((item :: items).map leafText) ++
        CText.bytes " ]"
  | .object (member :: members) =>
    123 :: (styledMembers (indent + 3) (member :: members) ++ newLine indent ++ [125])
  | .null => CText.bytes "null"
  | .bool true => CText.bytes "true"
  | .bool false => CText.bytes "false"
  | .int n => CText.bytes (toString n)
  | .string s => quoted s
  | .array [] => CText.bytes "[]"
  | .object [] => CText.bytes "\x7b\x7d"

def itemsText (indent : ℕ) : List Styled → List UInt8
  | [] => []
  | item :: items =>
    newLine indent ++ styledText indent item ++
      match items with
      | [] => []
      | item :: items => 44 :: itemsText indent (item :: items)

def styledMembers (indent : ℕ) : List (List UInt8 × Styled) → List UInt8
  | [] => []
  | (name, value) :: members =>
    newLine indent ++ quoted name ++ CText.bytes " : " ++ styledText indent value ++
      match members with
      | [] => []
      | member :: members => 44 :: styledMembers indent (member :: members)

end

theorem styledText_of_not_isFilled {value : Styled} (h : value.isFilled = false) (indent : ℕ) :
    styledText indent value = leafText value := by
  cases value with
  | null => rw [styledText, leafText]
  | bool b => cases b <;> rw [styledText, leafText]
  | int n => rw [styledText, leafText]
  | string s => rw [styledText, leafText]
  | array items =>
    cases items with
    | nil => rw [styledText, leafText]
    | cons item items => cases h
  | object members =>
    cases members with
    | nil => rw [styledText, leafText]
    | cons member members => cases h

theorem solid_leafText (value : Styled) : Solid (leafText value) := by
  cases value with
  | null => exact ⟨CText.bytes "nul", 108, rfl, by decide, by decide⟩
  | bool b =>
    cases b with
    | true => exact ⟨CText.bytes "tru", 101, rfl, by decide, by decide⟩
    | false => exact ⟨CText.bytes "fals", 101, rfl, by decide, by decide⟩
  | int n => exact solid_toString n
  | string s => exact ⟨34 :: (s.takeWhile (· ≠ 0)).flatMap escape, 34, rfl, by decide, by decide⟩
  | array items => exact ⟨[91], 93, rfl, by decide, by decide⟩
  | object members => exact ⟨[123], 125, rfl, by decide, by decide⟩

theorem solid_styledText (indent : ℕ) (value : Styled) : Solid (styledText indent value) := by
  cases hfilled : value.isFilled with
  | false =>
    rw [styledText_of_not_isFilled hfilled]
    exact solid_leafText value
  | true =>
    cases value with
    | array items =>
      cases items with
      | nil => cases hfilled
      | cons item items =>
        rw [styledText]
        split
        · exact ⟨91 :: (itemsText (indent + 3) (item :: items) ++ newLine indent), 93, rfl,
            by decide, by decide⟩
        · exact Solid.append_left ⟨[32], 93, rfl, by decide, by decide⟩ _
    | object members =>
      cases members with
      | nil => cases hfilled
      | cons member members =>
        rw [styledText]
        exact ⟨123 :: (styledMembers (indent + 3) (member :: members) ++ newLine indent), 125, rfl,
          by decide, by decide⟩
    | null | bool _ | int _ | string _ => cases hfilled

/-- The text of one more part behind what is written ends where a new line is due. -/
theorem solid_itemsText {document : List UInt8} (h : Solid document) (indent : ℕ)
    (items : List Styled) : Solid (document ++ itemsText indent items) := by
  induction items generalizing document with
  | nil => rwa [itemsText, List.append_nil]
  | cons item items ih =>
    cases items with
    | nil =>
      rw [itemsText, List.append_nil, ← List.append_assoc]
      exact (solid_styledText indent item).append_left _
    | cons next items =>
      have hnext := ih (solid_comma (document ++ (newLine indent ++ styledText indent item)))
      rw [itemsText, ← List.append_assoc]
      rwa [List.append_assoc] at hnext

theorem solid_styledMembers {document : List UInt8} (h : Solid document) (indent : ℕ)
    (members : List (List UInt8 × Styled)) : Solid (document ++ styledMembers indent members) := by
  induction members generalizing document with
  | nil => rwa [styledMembers, List.append_nil]
  | cons first members ih =>
    obtain ⟨name, value⟩ := first
    cases members with
    | nil =>
      rw [styledMembers, List.append_nil, ← List.append_assoc]
      exact (solid_styledText indent value).append_left _
    | cons member members =>
      have hnext := ih (solid_comma (document ++ (newLine indent ++ quoted name ++
        CText.bytes " : " ++ styledText indent value)))
      rw [styledMembers, ← List.append_assoc]
      rwa [List.append_assoc] at hnext

theorem writeIndent_newLine (indent : ℕ) (document : List UInt8) :
    writeIndent indent (document ++ newLine indent) = document ++ newLine indent := by
  cases indent with
  | zero =>
    have hlast : (document ++ newLine 0).getLast? = some 10 := List.getLast?_concat
    rw [writeIndent, hlast]
    exact List.append_nil _
  | succ n =>
    have hlast : (document ++ newLine (n + 1)).getLast? = some 32 := by
      rw [newLine, List.replicate_succ', ← List.cons_append, ← List.append_assoc]
      exact List.getLast?_concat
    rw [writeIndent, hlast]
    rfl

namespace StyledWriter

theorem writeValue_aside {value : Styled} (h : value.isFilled = false) {w : StyledWriter}
    (hadd : w.addChildValues = true) :
    writeValue w value = { w with childValues := w.childValues ++ [leafText value] } := by
  have hpush (text : List UInt8) :
      w.pushValue text = { w with childValues := w.childValues ++ [text] } := if_pos hadd
  cases value with
  | null => rw [writeValue, hpush, leafText]
  | bool b => cases b <;> rw [writeValue, hpush, leafText]
  | int n => rw [writeValue, hpush, leafText]
  | string s => rw [writeValue, hpush, leafText]
  | array items =>
    cases items with
    | nil => rw [writeValue, hpush, leafText]
    | cons item items => cases h
  | object members =>
    cases members with
    | nil => rw [writeValue, hpush, leafText]
    | cons member members => cases h

theorem pushItems_eq {items : List Styled} (h : items.any Styled.isFilled = false)
    {w : StyledWriter} (hadd : w.addChildValues = true) :
    pushItems w items = { w with childValues := w.childValues ++ items.map leafText } := by
  induction items generalizing w with
  | nil => rw [pushItems, List.map_nil, List.append_nil]
  | cons item items ih =>
    obtain ⟨hitem, hitems⟩ := Bool.or_eq_false_iff.mp h
    have hrest := ih hitems (w := { w with childValues := w.childValues ++ [leafText item] }) hadd
    rw [pushItems, writeValue_aside hitem hadd, hrest]
    simp only [List.append_assoc, List.map_cons, List.singleton_append]

/-- The texts written aside are those of the items, or there are none. -/
theorem isMultineArray_eq (items : List Styled) {w : StyledWriter}
    (hadd : w.addChildValues = false) :
    ∃ childValues,
      w.isMultineArray items (pushItems · items) =
        ({ w with childValues := childValues }, decide (IsMultiLine items)) ∧
      ((childValues = [] ∧ IsMultiLine items) ∨
        (childValues = items.map leafText ∧ items.any Styled.isFilled = false)) := by
  unfold isMultineArray
  dsimp only
  split
  · next hmulti =>
    exact ⟨[], by rw [decide_eq_true (.inl hmulti)], .inl ⟨rfl, .inl hmulti⟩⟩
  · next hline =>
    have hfilled : items.any Styled.isFilled = false :=
      Bool.eq_false_iff.mpr fun h => hline (.inr h)
    refine ⟨items.map leafText, ?_, .inr ⟨rfl, hfilled⟩⟩
    rw [pushItems_eq hfilled rfl]
    simp only [List.nil_append, IsMultiLine, hline, false_or]
    rw [hadd]

/-- The writer after something was written to the document. -/
structure Wrote (w : StyledWriter) (text : List UInt8) (w' : StyledWriter) : Prop where
  document : w'.document = w.document ++ text
  indentString : w'.indentString = w.indentString
  addChildValues : w'.addChildValues = w.addChildValues

section Wrote

variable {w w' w'' : StyledWriter} {text text' : List UInt8}

theorem wrote_add (w : StyledWriter) (text : List UInt8) : Wrote w text (w.add text) :=
  ⟨rfl, rfl, rfl⟩

theorem Wrote.trans (h : Wrote w text w') (h' : Wrote w' text' w'') :
    Wrote w (text ++ text') w'' where
  document := by rw [h'.document, h.document, List.append_assoc]
  indentString := h'.indentString.trans h.indentString
  addChildValues := h'.addChildValues.trans h.addChildValues

theorem wrote_pushValue (hadd : w.addChildValues = false) (value : List UInt8) :
    Wrote w value (w.pushValue value) := by
  rw [pushValue, hadd, if_neg Bool.false_ne_true]
  exact wrote_add w value

theorem wrote_writeIndent (h : Solid w.document) : Wrote w (newLine w.indentString) w.writeIndent :=
  ⟨h.writeIndent_eq _, rfl, rfl⟩

theorem wrote_writeWithIndent (h : Solid w.document) (value : List UInt8) :
    Wrote w (newLine w.indentString ++ value) (w.writeWithIndent value) :=
  (wrote_writeIndent h).trans (wrote_add _ value)

theorem wrote_first (h : Json.writeIndent w.indentString w.document = w.document)
    (value : List UInt8) : Wrote w value (w.writeWithIndent value) :=
  ⟨congrArg (· ++ value) h, rfl, rfl⟩

theorem Wrote.brackets {first parts last : List UInt8} (hfirst : Wrote w first w')
    (hparts : Wrote w'.indent parts w'') (hsolid : Solid (w'.document ++ parts)) :
    Wrote w (first ++ (parts ++ newLine w.indentString ++ last))
      (w''.unindent.writeWithIndent last) := by
  have hdocument : w''.unindent.document = w'.document ++ parts := hparts.document
  have hindent : w''.unindent.indentString = w.indentString := by
    rw [unindent, hparts.indentString, indent, hfirst.indentString]
    exact Nat.add_sub_cancel _ _
  have hlast := wrote_writeWithIndent (hdocument ▸ hsolid) last
  constructor
  · rw [hlast.document, hdocument, hindent, hfirst.document]
    simp only [List.append_assoc]
  · rw [hlast.indentString, hindent]
  · rw [hlast.addChildValues]
    exact hparts.addChildValues.trans hfirst.addChildValues

theorem wrote_writeLine (w : StyledWriter) :
    Wrote w (CText.bytes "[ " ++ (CText.bytes ", ").intercalate w.childValues ++ CText.bytes " ]")
      w.writeLine :=
  ((wrote_add _ _).trans (wrote_add _ _)).trans (wrote_add _ _)

theorem solid_bracket (document : List UInt8) : Solid (document ++ CText.bytes "[") :=
  ⟨document, 91, rfl, by decide, by decide⟩

theorem wrote_name (h : Solid w.document) (name : List UInt8) :
    Wrote w (newLine w.indentString ++ quoted name ++ CText.bytes " : ")
      ((w.writeWithIndent (quoted name)).add (CText.bytes " : ")) :=
  (wrote_writeWithIndent h _).trans (wrote_add _ _)

theorem writeItems_aside {items : List Styled} (hfilled : items.any Styled.isFilled = false)
    {index : ℕ} (hsolid : Solid w.document)
    (hvalues : w.childValues.drop index = items.map leafText) :
    Wrote w (itemsText w.indentString items) (writeItems w true index items) := by
  induction items generalizing w index with
  | nil =>
    rw [writeItems, itemsText]
    exact ⟨(List.append_nil _).symm, rfl, rfl⟩
  | cons item items ih =>
    obtain ⟨hitem, hitems⟩ := Bool.or_eq_false_iff.mp hfilled
    have hget : w.childValues.getD index [] = styledText w.indentString item := by
      rw [styledText_of_not_isFilled hitem, List.getD_eq_getElem?_getD, ← List.head?_drop, hvalues]
      rfl
    have hline := wrote_writeWithIndent hsolid (styledText w.indentString item)
    cases items with
    | nil =>
      rw [writeItems, if_pos rfl, hget, itemsText, List.append_nil]
      exact hline
    | cons next items =>
      have hcomma := hline.trans (wrote_add _ (CText.bytes ","))
      have hrest : w.childValues.drop (index + 1) = (next :: items).map leafText := by
        rw [← List.drop_drop, hvalues]
        rfl
      have hmore := hcomma.trans (ih hitems (solid_comma _) hrest)
      rw [writeItems, if_pos rfl, hget, itemsText]
      simp only [List.append_assoc] at hmore ⊢
      exact hmore

end Wrote

mutual

theorem writeValue_wrote {w : StyledWriter} (hadd : w.addChildValues = false)
    (hindent : Json.writeIndent w.indentString w.document = w.document) :
    (value : Styled) → Wrote w (styledText w.indentString value) (writeValue w value)
  | .null => wrote_pushValue hadd _
  | .bool true => wrote_pushValue hadd _
  | .bool false => wrote_pushValue hadd _
  | .int n => wrote_pushValue hadd _
  | .string s => wrote_pushValue hadd _
  | .array [] => wrote_pushValue hadd _
  | .array (item :: items) => by
    obtain ⟨childValues, hmultine, hvalues⟩ := isMultineArray_eq (item :: items) hadd
    rw [writeValue, hmultine, styledText]
    by_cases hmulti : IsMultiLine (item :: items)
    · rw [decide_eq_true hmulti, if_pos hmulti]
      set start : StyledWriter := { w with childValues := childValues } with hstart
      have hfirst : Wrote w (CText.bytes "[") (start.writeWithIndent (CText.bytes "[")) :=
        ⟨congrArg (· ++ CText.bytes "[") hindent, rfl, rfl⟩
      have hsolid := hfirst.document ▸ solid_bracket w.document
      have hitems : Wrote (start.writeWithIndent (CText.bytes "[")).indent
          (itemsText (w.indentString + 3) (item :: items))
          (writeItems (start.writeWithIndent (CText.bytes "[")).indent (!childValues.isEmpty) 0
            (item :: items)) := by
        obtain ⟨rfl, -⟩ | ⟨rfl, hfilled⟩ := hvalues
        · exact writeItems_wrote (w := (start.writeWithIndent (CText.bytes "[")).indent) hadd hsolid
            0 (item :: items)
        · exact writeItems_aside (w := (start.writeWithIndent (CText.bytes "[")).indent) hfilled
            hsolid rfl
      exact hfirst.brackets hitems (solid_itemsText hsolid _ _)
    · rw [decide_eq_false hmulti, if_neg hmulti]
      obtain ⟨-, hmulti'⟩ | ⟨rfl, -⟩ := hvalues
      · exact absurd hmulti' hmulti
      · have hline := wrote_writeLine { w with childValues := (item :: items).map leafText }
        exact ⟨hline.document, hline.indentString, hline.addChildValues⟩
  | .object [] => wrote_pushValue hadd _
  | .object (member :: members) => by
    have hfirst := wrote_first hindent (CText.bytes "\x7b")
    have hsolid := hfirst.document ▸ solid_brace w.document
    have hmembers := writeMembers_wrote (w := (w.writeWithIndent (CText.bytes "\x7b")).indent)
      hadd hsolid (member :: members)
    rw [writeValue, styledText]
    exact hfirst.brackets hmembers (solid_styledMembers hsolid _ _)

theorem writeItems_wrote {w : StyledWriter} (hadd : w.addChildValues = false)
    (hsolid : Solid w.document) (index : ℕ) :
    (items : List Styled) →
      Wrote w (itemsText w.indentString items) (writeItems w false index items)
  | [] => ⟨(List.append_nil _).symm, rfl, rfl⟩
  | [item] => by
    have hline := wrote_writeIndent hsolid
    have hindent := hline.document ▸ writeIndent_newLine w.indentString w.document
    have hitem := hline.trans (writeValue_wrote (w := w.writeIndent) hadd hindent item)
    rw [writeItems, if_neg Bool.false_ne_true, itemsText, List.append_nil]
    exact hitem
  | item :: next :: items => by
    have hline := wrote_writeIndent hsolid
    have hindent := hline.document ▸ writeIndent_newLine w.indentString w.document
    have hitem := hline.trans (writeValue_wrote (w := w.writeIndent) hadd hindent item)
    have hcomma := hitem.trans (wrote_add _ (CText.bytes ","))
    have hrest := writeItems_wrote (hcomma.addChildValues.trans hadd) (solid_comma _) (index + 1)
      (next :: items)
    rw [hcomma.indentString] at hrest
    have hmore := hcomma.trans hrest
    rw [writeItems, if_neg Bool.false_ne_true, itemsText]
    simp only [List.append_assoc] at hmore ⊢
    exact hmore

theorem writeMembers_wrote {w : StyledWriter} (hadd : w.addChildValues = false)
    (hsolid : Solid w.document) :
    (members : List (List UInt8 × Styled)) →
      Wrote w (styledMembers w.indentString members) (writeMembers w members)
  | [] => ⟨(List.append_nil _).symm, rfl, rfl⟩
  | [(name, value)] => by
    have hname := wrote_name hsolid name
    have hvalue := writeValue_wrote (hname.addChildValues.trans hadd) (writeIndent_name _ _) value
    rw [hname.indentString] at hvalue
    rw [writeMembers, styledMembers, List.append_nil]
    exact hname.trans hvalue
  | (name, value) :: member :: members => by
    have hname := wrote_name hsolid name
    have hvalue := writeValue_wrote (hname.addChildValues.trans hadd) (writeIndent_name _ _) value
    rw [hname.indentString] at hvalue
    have hcomma := (hname.trans hvalue).trans (wrote_add _ (CText.bytes ","))
    have hrest := writeMembers_wrote (hcomma.addChildValues.trans hadd) (solid_comma _)
      (member :: members)
    rw [hcomma.indentString] at hrest
    have hmore := hcomma.trans hrest
    rw [writeMembers, styledMembers]
    simp only [List.append_assoc] at hmore ⊢
    exact hmore

end

theorem write_eq (root : Styled) : write root = styledText 0 root ++ [10] := by
  have hroot := writeValue_wrote (w := {}) rfl rfl root
  rw [write, hroot.document]
  rfl

end StyledWriter

mutual

/-- The value that is written: its texts and names end at their first NUL, in arrays as well as in
objects. -/
def Styled.toValue : Styled → Value
  | .null => .null
  | .bool b => .bool b
  | .int n => .int n
  | .string s => .string (CText.cStr s)
  | .array items => .array (styledValues items)
  | .object members => .object (styledNamed members)

def styledValues : List Styled → List Value
  | [] => []
  | item :: items => item.toValue :: styledValues items

def styledNamed : List (List UInt8 × Styled) → List (List UInt8 × Value)
  | [] => []
  | (name, value) :: members => (CText.cStr name, value.toValue) :: styledNamed members

end

section Reads

variable {c : UInt8} {s text after rest : List UInt8}

theorem chars_escape (hzero : c ≠ 0) (htext : Chars text s rest) :
    Chars (escape c ++ text) (c :: s) rest := by
  obtain ⟨d, hd, hescape⟩ | ⟨hcontrol, hescape⟩ | ⟨hescape, hquote, hbackslash, hplain⟩ := escape_eq c
  · have hall : ∀ p ∈ shortEscapes, (p.2, p.1) ∈ JsonText.shortEscapes :=
      List.all_iff_forall_prop.mp (by decide)
    rw [hescape]
    exact .escape (hall _ hd) htext
  · have hall : ∀ n < 32, JsonText.hexCode 48 48 (hexDigit (UInt8.ofNat n / 16))
        (hexDigit (UInt8.ofNat n % 16)) = some n ∧ JsonText.utf8 n = [UInt8.ofNat n] := by decide
    simp only [isControlCharacter, Bool.and_eq_true, decide_eq_true_eq] at hcontrol
    have hlt : c.toNat < 32 := Nat.lt_succ_of_le hcontrol.2
    obtain ⟨hcode, hutf8⟩ := hall c.toNat hlt
    rw [UInt8.ofNat_toNat] at hcode hutf8
    have hchars := Chars.code hcode (.inl (by omega)) htext
    rw [hescape]
    rwa [hutf8] at hchars
  · have hle : 32 ≤ c := by
      have hpos : 0 < c.toNat := UInt8.pos_iff_ne_zero.mpr hzero
      simp only [isControlCharacter, Bool.and_eq_false_iff, decide_eq_false_iff_not] at hplain
      obtain hplain | hplain := hplain
      · exact absurd hpos hplain
      · exact Nat.lt_of_not_le hplain
    rw [hescape, List.singleton_append]
    exact .char hle hquote hbackslash htext

theorem chars_quoted (s rest : List UInt8) :
    ∃ text, quoted s ++ rest = 34 :: text ∧ Chars text (CText.cStr s) rest := by
  refine ⟨(CText.cStr s).flatMap escape ++ 34 :: rest, ?_, ?_⟩
  · rw [quoted, CText.cStr, List.append_assoc]
    rfl
  · have hnul : ∀ c ∈ CText.cStr s, c ≠ 0 := fun c hc => by
      simpa using List.mem_takeWhile_imp hc
    generalize CText.cStr s = s at hnul ⊢
    induction s with
    | nil => exact .close
    | cons c s ih =>
      obtain ⟨hc, hs⟩ := List.forall_mem_cons.mp hnul
      rw [List.flatMap_cons, List.append_assoc]
      exact chars_escape hc (ih hs)

theorem blanks_replicate (n : ℕ) : Blanks (List.replicate n 32 ++ rest) rest := by
  induction n with
  | zero => exact .none
  | succ n ih => exact .cons (by decide) ih

theorem blanks_newLine (indent : ℕ) : Blanks (newLine indent ++ rest) rest :=
  .cons (by decide) (blanks_replicate indent)

theorem reads_member (indent : ℕ) (name : List UInt8) {value : Value} {inner : List UInt8}
    (h : Reads (.value value) inner after) (hafter : Blanks after rest) :
    Reads (.member (CText.cStr name, value))
      (newLine indent ++ (quoted name ++ (CText.bytes " : " ++ inner))) rest := by
  obtain ⟨text, htext, hname⟩ := chars_quoted name (CText.bytes " : " ++ inner)
  rw [htext]
  exact .member (blanks_newLine indent) hname (.cons (by decide) .none) (.cons (by decide) .none) h
    hafter

theorem reads_leafText {value : Styled} (h : value.isFilled = false) (rest : List UInt8) :
    Reads (.value value.toValue) (leafText value ++ rest) rest := by
  cases value with
  | null => exact .null
  | bool b =>
    cases b with
    | true => exact .true
    | false => exact .false
  | int n => exact .int (.inl rfl)
  | string s =>
    obtain ⟨text, htext, hchars⟩ := chars_quoted s rest
    rw [leafText, htext]
    exact .string hchars
  | array items =>
    cases items with
    | nil => exact .array (.noItem .none)
    | cons item items => cases h
  | object members =>
    cases members with
    | nil => exact .object (.noMember .none)
    | cons member members => cases h

theorem reads_line (item : Styled) (items : List Styled)
    (h : (item :: items).any Styled.isFilled = false) (rest : List UInt8) :
    Reads (.items (styledValues (item :: items)))
      (32 :: ((CText.bytes ", ").intercalate ((item :: items).map leafText) ++ 32 :: 93 :: rest))
      rest := by
  induction items generalizing item with
  | nil =>
    obtain ⟨hitem, -⟩ := Bool.or_eq_false_iff.mp h
    rw [List.map_singleton, List.intercalate_singleton]
    exact .lastItem (.item (.cons (by decide) .none) (reads_leafText hitem _)
      (.cons (by decide) .none))
  | cons next items ih =>
    obtain ⟨hitem, hitems⟩ := Bool.or_eq_false_iff.mp h
    have hmore := ih next hitems
    rw [List.map_cons, List.map_cons, List.intercalate_cons_cons, List.append_assoc,
      List.append_assoc]
    exact .nextItem (.item (.cons (by decide) .none) (reads_leafText hitem _) .none) hmore

mutual

theorem reads_styledText (indent : ℕ) (rest : List UInt8) : (value : Styled) →
    Reads (.value value.toValue) (styledText indent value ++ rest) rest
  | .null => reads_leafText rfl rest
  | .bool true => reads_leafText rfl rest
  | .bool false => reads_leafText rfl rest
  | .int _ => reads_leafText rfl rest
  | .string _ => reads_leafText rfl rest
  | .array [] => reads_leafText rfl rest
  | .object [] => reads_leafText rfl rest
  | .array (item :: items) => by
    rw [styledText]
    split
    · rw [List.cons_append, List.append_assoc, List.append_assoc]
      exact .array (reads_itemsText (indent + 3) indent rest (item :: items)
        (List.cons_ne_nil _ _))
    · next hline =>
      have hfilled : (item :: items).any Styled.isFilled = false :=
        Bool.eq_false_iff.mpr fun h => hline (.inl (.inr h))
      rw [List.append_assoc, List.append_assoc]
      exact .array (reads_line item items hfilled rest)
  | .object (member :: members) => by
    rw [styledText, List.cons_append, List.append_assoc, List.append_assoc]
    exact .object (reads_styledMembers (indent + 3) indent rest (member :: members)
      (List.cons_ne_nil _ _))

theorem reads_itemsText (indent outer : ℕ) (rest : List UInt8) :
    (items : List Styled) → items ≠ [] →
    Reads (.items (styledValues items))
      (itemsText indent items ++ (newLine outer ++ ([93] ++ rest))) rest
  | [], h => absurd rfl h
  | [item], _ => by
    have hitem := reads_styledText indent (newLine outer ++ 93 :: rest) item
    rw [itemsText]
    simp only [List.append_assoc, List.append_nil]
    exact .lastItem (.item (blanks_newLine indent) hitem (blanks_newLine outer))
  | item :: next :: items, _ => by
    have hmore := reads_itemsText indent outer rest (next :: items) (List.cons_ne_nil _ _)
    have hitem := reads_styledText indent (44 :: (itemsText indent (next :: items) ++
      (newLine outer ++ ([93] ++ rest)))) item
    rw [itemsText]
    simp only [List.append_assoc]
    exact .nextItem (.item (blanks_newLine indent) hitem .none) hmore

theorem reads_styledMembers (indent outer : ℕ) (rest : List UInt8) :
    (members : List (List UInt8 × Styled)) → members ≠ [] →
    Reads (.members (styledNamed members))
      (styledMembers indent members ++ (newLine outer ++ ([125] ++ rest))) rest
  | [], h => absurd rfl h
  | [(name, value)], _ => by
    have hvalue := reads_styledText indent (newLine outer ++ 125 :: rest) value
    have hmember := reads_member indent name hvalue (blanks_newLine outer)
    rw [styledMembers]
    simp only [List.append_assoc, List.append_nil]
    exact .lastMember hmember
  | (name, value) :: member :: members, _ => by
    have hmore := reads_styledMembers indent outer rest (member :: members) (List.cons_ne_nil _ _)
    have hvalue := reads_styledText indent (44 :: (styledMembers indent (member :: members) ++
      (newLine outer ++ ([125] ++ rest)))) value
    have hmember := reads_member indent name hvalue .none
    rw [styledMembers]
    simp only [List.append_assoc]
    exact .nextMember hmember hmore

end

end Reads

namespace StyledWriter

theorem document_write (root : Styled) : JsonText.Document (write root) root.toValue := by
  rw [write_eq]
  exact .item .none (reads_styledText 0 [10] root) (.cons (by decide) .none)

/-- Either layout of arrays is JSON, and the reader gets the value back from it. -/
theorem write_denotes (root : Styled) :
    JsonText.Document (write root) root.toValue ∧
    ∀ (features : Features) (sscanf : Sscanf),
      (features.strictRoot = true → Container root.toValue) →
      ∃ node, parse features sscanf.scan (write root) = some node ∧
        Denotes sscanf.scan root.toValue node := by
  have hdocument := document_write root
  exact ⟨hdocument, fun features sscanf hroot =>
    ⟨_, parse_document (decodes_of_document sscanf hdocument) hdocument hroot,
      denotes_of_document sscanf hdocument⟩⟩

end StyledWriter

example : StyledWriter.write (.object [(CText.bytes "a", .array [.int 1, .bool true, .array []])]) =
    CText.bytes "\x7b\n   \"a\" : [ 1, true, [] ]\n\x7d\n" := by
  decide +kernel

end Json

end ImServer
