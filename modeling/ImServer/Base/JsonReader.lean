import ImServer.Base.JsonTokens

/-!
# Reading JSON

`Json::Reader` (base/jsoncpp/json_reader.cpp) turns the tokens into a value. Anything may stand
behind the value, and even a strict reader skips comments between the members of an object and the
items of an array. Behind a comment any token stands for the comma between two members.

The functions that call each other have fuel, and twice as much as there are characters is enough.
-/

namespace ImServer

namespace Json

structure Features where
  allowComments : Bool := true
  strictRoot : Bool := false

def Features.all : Features := {}

def Features.strictMode : Features := { allowComments := false, strictRoot := true }

/-- The first token of a value. -/
def Features.valueToken (features : Features) (text : List UInt8) : Token × List UInt8 :=
  if features.allowComments then nextToken text else readToken text

def readColon (text : List UInt8) : Option (List UInt8) :=
  if (readToken text).1 = .memberSeparator then some (readToken text).2 else none

/-- Whether an object ends behind a member, and what follows. Only the first token has to be one
that is expected. -/
def readComma (text : List UInt8) : Option (Bool × List UInt8) :=
  if (readToken text).1 ∈ [Token.objectEnd, .arraySeparator, .comment] then
    some (decide ((nextToken text).1 = .objectEnd), (nextToken text).2)
  else none

/-- Whether an array ends behind an item, and what follows. -/
def readSeparator (text : List UInt8) : Option (Bool × List UInt8) :=
  if (nextToken text).1 = .arrayEnd then some (true, (nextToken text).2)
  else if (nextToken text).1 = .arraySeparator then some (false, (nextToken text).2)
  else none

/-- A member of an object, which replaces one with the same key; the keys are in order. -/
def setMember {α : Type} (key : List UInt8) (value : α) :
    List (List UInt8 × α) → List (List UInt8 × α)
  | [] => [(key, value)]
  | (key', value') :: rest =>
    if key = key' then (key, value) :: rest
    else if key < key' then (key, value) :: (key', value') :: rest
    else (key', value') :: setMember key value rest

mutual

def readValue (features : Features) (scan : Scan) : ℕ → List UInt8 → Option (Node × List UInt8)
  | 0, _ => none
  | fuel + 1, text =>
    let rest := (features.valueToken text).2
    match (features.valueToken text).1 with
    | .objectBegin =>
      (readObject features scan fuel [] [] rest).map fun (members, rest) => (.object members, rest)
    | .arrayBegin =>
      if (skipSpaces rest).head? = some 93 then some (.array [], (skipSpaces rest).tail)
      else (readArray features scan fuel rest).map fun (items, rest) => (.array items, rest)
    | .number text => (decodeNumber scan text).map fun node => (node, rest)
    | .string raw => (decodeString raw).map fun s => (.string s, rest)
    | .true => some (.bool true, rest)
    | .false => some (.bool false, rest)
    | .null => some (.null, rest)
    | _ => none

/-- The loop over the members, with the name of the last one. A key is cut at its first NUL. -/
def readObject (features : Features) (scan : Scan) : ℕ → List UInt8 → List (List UInt8 × Node) →
    List UInt8 → Option (List (List UInt8 × Node) × List UInt8)
  | 0, _, _, _ => none
  | fuel + 1, name, members, text =>
    match (nextToken text).1 with
    | .objectEnd => if name = [] then some (members, (nextToken text).2) else none
    | .string raw =>
      (decodeString raw).bind fun name =>
        (readColon (nextToken text).2).bind fun rest =>
          (readValue features scan fuel rest).bind fun value =>
            (readComma value.2).bind fun comma =>
              let members := setMember (CText.cStr name) value.1 members
              if comma.1 then some (members, comma.2)
              else readObject features scan fuel name members comma.2
    | _ => none

/-- The loop over the items. -/
def readArray (features : Features) (scan : Scan) :
    ℕ → List UInt8 → Option (List Node × List UInt8)
  | 0, _ => none
  | fuel + 1, text =>
    (readValue features scan fuel text).bind fun value =>
      (readSeparator value.2).bind fun separator =>
        if separator.1 then some ([value.1], separator.2)
        else (readArray features scan fuel separator.2).map fun (items, rest) =>
          (value.1 :: items, rest)

end

/-- `parse`. What stands behind the value is not looked at, and the fuel is enough for any document
of that length. -/
def parse (features : Features) (scan : Scan) (document : List UInt8) : Option Node :=
  (readValue features scan (2 * document.length + 1) document).bind fun (root, _) =>
    if features.strictRoot && !root.isArray && !root.isObject then none else some root

variable {features : Features} {scan : Scan}

theorem length_valueToken_lt {text : List UInt8}
    (h : (features.valueToken text).1 ≠ .endOfStream) :
    (features.valueToken text).2.length < text.length := by
  rw [Features.valueToken] at h ⊢
  split
  · next hcomments =>
    rw [if_pos hcomments] at h
    exact length_nextToken_lt h
  · next hcomments =>
    rw [if_neg hcomments] at h
    exact length_readToken_lt h

theorem length_of_readColon {text rest : List UInt8} (h : readColon text = some rest) :
    rest.length < text.length := by
  rw [readColon, Option.ite_none_right_eq_some] at h
  obtain ⟨hcolon, heq⟩ := h
  rw [← Option.some.inj heq]
  exact length_readToken_lt (by rw [hcolon]; decide)

/-- An object that does not end behind a member may be at the end of the text. -/
theorem length_of_readComma {text : List UInt8} {comma : Bool × List UInt8}
    (h : readComma text = some comma) : comma.2.length ≤ text.length := by
  rw [readComma, Option.ite_none_right_eq_some] at h
  rw [← Option.some.inj h.2]
  exact length_nextToken_le text

theorem length_of_readSeparator {text : List UInt8} {separator : Bool × List UInt8}
    (h : readSeparator text = some separator) : separator.2.length < text.length := by
  rw [readSeparator] at h
  split at h
  · next hend =>
    rw [← Option.some.inj h]
    exact length_nextToken_lt (by rw [hend]; decide)
  · split at h
    · next hseparator =>
      rw [← Option.some.inj h]
      exact length_nextToken_lt (by rw [hseparator]; decide)
    · cases h

/-- What is read is gone. -/
structure Consumes (features : Features) (scan : Scan) (fuel : ℕ) : Prop where
  value : ∀ {text value}, readValue features scan fuel text = some value →
    value.2.length < text.length
  object : ∀ {name members text out}, readObject features scan fuel name members text = some out →
    out.2.length < text.length
  array : ∀ {text items}, readArray features scan fuel text = some items →
    items.2.length < text.length

theorem consumes (fuel : ℕ) : Consumes features scan fuel := by
  induction fuel with
  | zero =>
    refine ⟨fun {_ _} h => ?_, fun {_ _ _ _} h => ?_, fun {_ _} h => ?_⟩
    all_goals cases h
  | succ fuel ih =>
    refine ⟨fun {text value} h => ?_, fun {name members text out} h => ?_,
      fun {text items} h => ?_⟩
    · rw [readValue] at h
      have htoken : (features.valueToken text).1 ≠ .endOfStream := fun heq => by
        rw [heq] at h
        cases h
      refine Nat.lt_of_le_of_lt ?_ (length_valueToken_lt htoken)
      split at h
      · obtain ⟨out, hread, rfl⟩ := Option.map_eq_some_iff.mp h
        exact (ih.object hread).le
      · split at h
        · cases h
          rw [List.length_tail]
          exact (Nat.sub_le _ _).trans (length_skipSpaces_le _)
        · obtain ⟨out, hread, rfl⟩ := Option.map_eq_some_iff.mp h
          exact (ih.array hread).le
      · obtain ⟨node, -, rfl⟩ := Option.map_eq_some_iff.mp h
        exact le_rfl
      · obtain ⟨s, -, rfl⟩ := Option.map_eq_some_iff.mp h
        exact le_rfl
      · cases h
        exact le_rfl
      · cases h
        exact le_rfl
      · cases h
        exact le_rfl
      · cases h
    · rw [readObject] at h
      have htoken : (nextToken text).1 ≠ .endOfStream := fun heq => by
        rw [heq] at h
        cases h
      refine Nat.lt_of_le_of_lt ?_ (length_nextToken_lt htoken)
      split at h
      · obtain ⟨-, heq⟩ := Option.ite_none_right_eq_some.mp h
        cases heq
        exact le_rfl
      · simp only [Option.bind_eq_some_iff] at h
        obtain ⟨name', -, rest, hcolon, value, hvalue, comma, hcomma, h⟩ := h
        have hrest := length_of_readColon hcolon
        have hvalue' := ih.value hvalue
        have hcomma' := length_of_readComma hcomma
        have hread : comma.2.length ≤ (nextToken text).2.length := by omega
        split at h
        · cases h
          exact hread
        · exact (ih.object h).le.trans hread
      · cases h
    · simp only [readArray, Option.bind_eq_some_iff] at h
      obtain ⟨value, hvalue, separator, hseparator, h⟩ := h
      have hvalue' := ih.value hvalue
      have hseparator' := length_of_readSeparator hseparator
      split at h
      · cases h
        exact hseparator'.trans hvalue'
      · obtain ⟨items', hread, rfl⟩ := Option.map_eq_some_iff.mp h
        exact (ih.array hread).trans (hseparator'.trans hvalue')

/-- More fuel changes nothing for a text that is short enough. -/
structure Enough (features : Features) (scan : Scan) (fuel : ℕ) : Prop where
  value : ∀ {text}, 2 * text.length + 1 ≤ fuel →
    readValue features scan (fuel + 1) text = readValue features scan fuel text
  object : ∀ {name members text}, 2 * text.length + 1 ≤ fuel →
    readObject features scan (fuel + 1) name members text =
      readObject features scan fuel name members text
  array : ∀ {text}, 2 * text.length + 2 ≤ fuel →
    readArray features scan (fuel + 1) text = readArray features scan fuel text

theorem enough (fuel : ℕ) : Enough features scan fuel := by
  induction fuel with
  | zero => exact ⟨fun h => absurd h (by omega), fun h => absurd h (by omega),
      fun h => absurd h (by omega)⟩
  | succ fuel ih =>
    refine ⟨fun {text} h => ?_, fun {name members text} h => ?_, fun {text} h => ?_⟩
    · have hlt := @length_valueToken_lt features text
      rw [readValue, readValue]
      cases htoken : (features.valueToken text).1 with
      | objectBegin =>
        have hrest := hlt (by rw [htoken]; decide)
        exact congrArg (Option.map _) (ih.object (by omega))
      | arrayBegin =>
        have hrest := hlt (by rw [htoken]; decide)
        exact ite_congr rfl (fun _ => rfl) fun _ =>
          congrArg (Option.map _) (ih.array (by omega))
      | _ => rfl
    · have hlt := @length_nextToken_lt text
      rw [readObject, readObject]
      cases htoken : (nextToken text).1 with
      | string raw =>
        have hrest := hlt (by rw [htoken]; exact Token.noConfusion)
        refine Option.bind_congr fun name' _ => Option.bind_congr fun rest hcolon => ?_
        have hcolon' := length_of_readColon hcolon
        rw [ih.value (by omega)]
        refine Option.bind_congr fun value hvalue => Option.bind_congr fun comma hcomma => ?_
        have hvalue' := (consumes fuel).value hvalue
        have hcomma' := length_of_readComma hcomma
        exact ite_congr rfl (fun _ => rfl) fun _ => ih.object (by omega)
      | _ => rfl
    · rw [readArray, readArray, ih.value (by omega)]
      refine Option.bind_congr fun value hvalue => Option.bind_congr fun separator hseparator => ?_
      have hvalue' := (consumes fuel).value hvalue
      have hseparator' := length_of_readSeparator hseparator
      exact ite_congr rfl (fun _ => rfl) fun _ => congrArg (Option.map _) (ih.array (by omega))

theorem readValue_eq {fuel : ℕ} {text : List UInt8} (h : 2 * text.length + 1 ≤ fuel) :
    readValue features scan fuel text = readValue features scan (2 * text.length + 1) text := by
  induction fuel, h using Nat.le_induction with
  | base => rfl
  | succ fuel hle ih => rw [(enough fuel).value hle, ih]

end Json

end ImServer
