import ImServer.Base.JsonLiterals

/-!
# Every JSON text is read

`Json::Reader` accepts each text that is JSON, and what it makes of the text depends on the value
only. Of members with one name the last one counts. A name is cut at its first NUL, so that a member
counts for another one whose name is the beginning of its own.
-/

namespace ImServer

namespace Json

open JsonText (Value Part Chars Blanks Reads IntLiteral RealLiteral Numeric)

section Values

variable (scan : Scan)

mutual

/-- What the reader makes of a value. -/
def nodeOf : Value → Node
  | .null => .null
  | .bool b => .bool b
  | .int n => (decodeNumber scan (CText.bytes (toString n))).getD .null
  | .real literal => (decodeNumber scan literal).getD .null
  | .string s => .string s
  | .array items => .array (nodesOf items)
  | .object members => .object (membersOf [] members)

def nodesOf : List Value → List Node
  | [] => []
  | item :: items => nodeOf item :: nodesOf items

/-- The members that were read before, and those of a list. -/
def membersOf (before : List (List UInt8 × Node)) : List (List UInt8 × Value) →
    List (List UInt8 × Node)
  | [] => before
  | (name, value) :: members =>
    membersOf (setMember (CText.cStr name) (nodeOf value) before) members

end

/-- Every number of a value is read, so that the value itself can be. -/
inductive Decodes : Value → Prop where
  | null : Decodes .null
  | bool (b : Bool) : Decodes (.bool b)
  | int {n : ℤ} (h : (decodeNumber scan (CText.bytes (toString n))).isSome) : Decodes (.int n)
  | real {literal : List UInt8} (h : (decodeNumber scan literal).isSome) : Decodes (.real literal)
  | string (s : List UInt8) : Decodes (.string s)
  | array {items : List Value} (h : ∀ value ∈ items, Decodes value) : Decodes (.array items)
  | object {members : List (List UInt8 × Value)} (h : ∀ member ∈ members, Decodes member.2) :
    Decodes (.object members)

end Values

section Reading

variable {features : Features} {scan : Scan} {node : Node}
variable {text inner literal rest : List UInt8}

theorem some_getD {α : Type} {o : Option α} {a : α} (h : o.isSome) : some (o.getD a) = o := by
  obtain ⟨b, rfl⟩ := Option.isSome_iff_exists.mp h
  rfl

theorem decodeNumber_int {n : ℤ} (h : IntLiteral literal n) (hdecodes : Decodes scan (.int n)) :
    decodeNumber scan literal = some (nodeOf scan (.int n)) := by
  obtain rfl | ⟨rfl, rfl⟩ := h
  · cases hdecodes with
    | int hdecode => rw [nodeOf, some_getD hdecode]
  · rfl

theorem decodeNumber_real (hdecodes : Decodes scan (.real literal)) :
    decodeNumber scan literal = some (nodeOf scan (.real literal)) := by
  cases hdecodes with
  | real hdecode => rw [nodeOf, some_getD hdecode]

/-- A number ends here. -/
def Ends (rest : List UInt8) : Prop := ∀ c ∈ rest.head?, isNumberChar c = false

theorem skipSpaces_cons {c : UInt8} (h : isSpace c = false) (rest : List UInt8) :
    skipSpaces (c :: rest) = c :: rest :=
  List.dropWhile_cons_of_neg (ne_true_of_eq_false h)

theorem nextToken_of_readToken {text rest : List UInt8} {token : Token} (hne : token ≠ .comment)
    (h : readToken text = (token, rest)) : nextToken text = (token, rest) := by
  rw [nextToken_eq, h, if_neg hne]

theorem valueToken_of_readToken {text rest : List UInt8} {token : Token} (hne : token ≠ .comment)
    (h : readToken text = (token, rest)) : features.valueToken text = (token, rest) := by
  rw [Features.valueToken, nextToken_of_readToken hne h, h, ite_self]

theorem tokenOf_number {c : UInt8} (h : (isDigit c || c = 45) = true) (rest : List UInt8) :
    tokenOf c rest = (.number (c :: rest.takeWhile isNumberChar), rest.dropWhile isNumberChar) := by
  have hne : ∀ d : UInt8, (isDigit d || d = 45) = false → c ≠ d := by
    rintro d hd rfl
    exact Bool.false_ne_true (hd.symm.trans h)
  rw [tokenOf, if_neg (hne 123 (by decide)), if_neg (hne 125 (by decide)),
    if_neg (hne 91 (by decide)), if_neg (hne 93 (by decide)), if_neg (hne 34 (by decide)),
    if_neg (hne 47 (by decide)), if_pos h]

theorem skipSpaces_of_blanks (h : Blanks text rest) : skipSpaces text = skipSpaces rest := by
  induction h with
  | none => rfl
  | @cons c text rest hc _ ih =>
    have hspace : isSpace c = true := by
      simp only [List.mem_cons, List.not_mem_nil, or_false] at hc
      obtain rfl | rfl | rfl | rfl := hc <;> decide
    rw [skipSpaces, List.dropWhile_cons_of_pos hspace]
    exact ih

theorem readToken_of_blanks (h : Blanks text rest) : readToken text = readToken rest := by
  rw [readToken, readToken, skipSpaces_of_blanks h]

theorem ends_of_blanks (h : Blanks text rest) (hrest : Ends rest) : Ends text := by
  cases h with
  | none => exact hrest
  | cons hc _ =>
    intro b hb
    rw [← Option.some.inj hb]
    simp only [List.mem_cons, List.not_mem_nil, or_false] at hc
    obtain rfl | rfl | rfl | rfl := hc <;> decide

theorem ends_cons {c : UInt8} (hc : isNumberChar c = false) (rest : List UInt8) :
    Ends (c :: rest) := fun b hb => by
  rwa [← Option.some.inj hb]

/-- With that much fuel the value is read from the text, and the rest is left. -/
def ReadFrom (features : Features) (scan : Scan) (text : List UInt8) (node : Node)
    (rest : List UInt8) : Prop :=
  ∃ enough, ∀ fuel, enough ≤ fuel → readValue features scan fuel text = some (node, rest)

theorem ReadFrom.of_token {token : Token} {text rest : List UInt8} {node : Node}
    (hread : readToken text = (token, rest))
    (h : ∀ fuel, (features.valueToken text) = (token, rest) →
      readValue features scan (fuel + 1) text = some (node, rest)) (hne : token ≠ .comment) :
    ReadFrom features scan text node rest := by
  refine ⟨1, fun fuel hfuel => ?_⟩
  obtain ⟨fuel, rfl⟩ := Nat.exists_eq_add_of_le' hfuel
  exact h fuel (valueToken_of_readToken hne hread)

theorem ReadFrom.null (rest : List UInt8) :
    ReadFrom features scan (CText.bytes "null" ++ rest) .null rest := by
  have hword : readWord .null [117, 108, 108] ([117, 108, 108] ++ rest) = (.null, rest) :=
    if_pos (List.prefix_append _ _)
  have hread : readToken (CText.bytes "null" ++ rest) = (.null, rest) := hword
  refine .of_token hread (fun fuel htoken => ?_) (by decide)
  rw [readValue, htoken]

theorem ReadFrom.object {text rest : List UInt8} {members : List (List UInt8 × Node)}
    (h : ∃ enough, ∀ fuel, enough ≤ fuel →
      readObject features scan fuel [] [] text = some (members, rest)) :
    ReadFrom features scan (123 :: text) (.object members) rest := by
  have htoken : features.valueToken (123 :: text) = (.objectBegin, text) :=
    valueToken_of_readToken (by decide) rfl
  obtain ⟨enough, hread⟩ := h
  refine ⟨enough + 1, fun fuel hfuel => ?_⟩
  obtain ⟨fuel, rfl⟩ := Nat.exists_eq_add_of_le' (Nat.le_of_add_left_le hfuel)
  rw [readValue, htoken]
  simp only [hread fuel (Nat.le_of_succ_le_succ hfuel), Option.map_some]

theorem ReadFrom.congr (h : ReadFrom features scan inner node rest)
    (htoken : readToken text = readToken inner) : ReadFrom features scan text node rest := by
  have hvalue : ∀ fuel,
      readValue features scan fuel text = readValue features scan fuel inner := by
    intro fuel
    cases fuel with
    | zero => rfl
    | succ fuel =>
      rw [readValue, readValue, Features.valueToken, Features.valueToken, nextToken_eq,
        nextToken_eq inner, htoken]
  exact h.imp fun _ hread fuel hfuel => (hvalue fuel).trans (hread fuel hfuel)

theorem ReadFrom.head_ne (h : ReadFrom features scan text node rest) :
    (skipSpaces text).head? ≠ some 93 := by
  intro hhead
  obtain ⟨rest', hskip⟩ := List.head?_eq_some_iff.mp hhead
  have htoken : readToken text = (.arrayEnd, rest') := by
    rw [readToken, hskip]
    rfl
  obtain ⟨enough, hread⟩ := h
  have hvalue := hread (enough + 1) (Nat.le_succ _)
  rw [readValue, valueToken_of_readToken (by decide) htoken] at hvalue
  cases hvalue

theorem ReadFrom.number (hcons : ∃ c literal', literal = c :: literal' ∧
      ((48 ≤ c ∧ c ≤ 57) ∨ c = 45)) (hnumeric : ∀ c ∈ literal, Numeric c)
    (hdecode : decodeNumber scan literal = some node) (hrest : Ends rest) :
    ReadFrom features scan (literal ++ rest) node rest := by
  obtain ⟨c, literal', rfl, hc⟩ := hcons
  have hfirst : (isDigit c || c = 45) = true := by
    obtain ⟨hlow, hhigh⟩ | rfl := hc
    · simp [isDigit, hlow, hhigh]
    · decide
  have hspace : isSpace c = false := by
    by_contra hspace
    simp only [isSpace, Bool.not_eq_false, Bool.or_eq_true, decide_eq_true_eq] at hspace
    rcases hspace with ((rfl | rfl) | rfl) | rfl <;> exact absurd hfirst (by decide)
  have hchars : ∀ d ∈ literal', isNumberChar d = true := fun d hd =>
    isNumberChar_of_numeric (hnumeric d (List.mem_cons_of_mem _ hd))
  have hend : rest.takeWhile isNumberChar = [] ∧ rest.dropWhile isNumberChar = rest := by
    cases rest with
    | nil => exact ⟨rfl, rfl⟩
    | cons d rest =>
      have hd : isNumberChar d = false := hrest d rfl
      exact ⟨List.takeWhile_cons_of_neg (ne_true_of_eq_false hd),
        List.dropWhile_cons_of_neg (ne_true_of_eq_false hd)⟩
  have htoken : readToken (c :: literal' ++ rest) = (.number (c :: literal'), rest) := by
    rw [List.cons_append, readToken, skipSpaces_cons hspace]
    simp only [tokenOf_number hfirst, List.takeWhile_append_of_pos hchars,
      List.dropWhile_append_of_pos hchars, hend, List.append_nil]
  refine .of_token htoken (fun fuel htoken => ?_) Token.noConfusion
  rw [readValue, htoken]
  simp only [hdecode, Option.map_some]

theorem ReadFrom.true : ReadFrom features scan (116 :: 114 :: 117 :: 101 :: rest) (.bool true)
    rest := by
  have hword : readWord .true [114, 117, 101] ([114, 117, 101] ++ rest) = (.true, rest) :=
    if_pos (List.prefix_append _ _)
  have hread : readToken (116 :: 114 :: 117 :: 101 :: rest) = (.true, rest) := hword
  refine .of_token hread (fun fuel htoken => ?_) (by decide)
  rw [readValue, htoken]

theorem ReadFrom.false : ReadFrom features scan (102 :: 97 :: 108 :: 115 :: 101 :: rest)
    (.bool false) rest := by
  have hword : readWord .false [97, 108, 115, 101] ([97, 108, 115, 101] ++ rest) =
      (.false, rest) := if_pos (List.prefix_append _ _)
  have hread : readToken (102 :: 97 :: 108 :: 115 :: 101 :: rest) = (.false, rest) := hword
  refine .of_token hread (fun fuel htoken => ?_) (by decide)
  rw [readValue, htoken]

theorem readToken_quote {raw : List UInt8} (h : readString text = some (raw, rest)) :
    readToken (34 :: text) = (.string raw, rest) := by
  have htoken : tokenOf 34 text = stringToken text := rfl
  rw [readToken, skipSpaces_cons (by decide)]
  simp only [htoken, stringToken, h]

theorem ReadFrom.array {items : List Node} (hhead : (skipSpaces text).head? ≠ some 93)
    (h : ∃ enough, ∀ fuel, enough ≤ fuel →
      readArray features scan fuel text = some (items, rest)) :
    ReadFrom features scan (91 :: text) (.array items) rest := by
  have htoken : features.valueToken (91 :: text) = (.arrayBegin, text) :=
    valueToken_of_readToken (by decide) rfl
  obtain ⟨enough, hread⟩ := h
  refine ⟨enough + 1, fun fuel hfuel => ?_⟩
  obtain ⟨fuel, rfl⟩ := Nat.exists_eq_add_of_le' (Nat.le_of_add_left_le hfuel)
  rw [readValue, htoken]
  simp only [if_neg hhead, hread fuel (Nat.le_of_succ_le_succ hfuel), Option.map_some]

theorem ReadFrom.noItem (h : skipSpaces text = 93 :: rest) :
    ReadFrom features scan (91 :: text) (.array []) rest := by
  have htoken : features.valueToken (91 :: text) = (.arrayBegin, text) :=
    valueToken_of_readToken (by decide) rfl
  refine ⟨1, fun fuel hfuel => ?_⟩
  obtain ⟨fuel, rfl⟩ := Nat.exists_eq_add_of_le' hfuel
  rw [readValue, htoken]
  simp only [h, List.head?_cons, if_true, List.tail_cons]

/-- What the reader does where a text begins with a part. -/
def Read (features : Features) (scan : Scan) : Part → List UInt8 → List UInt8 → Prop
  | .value value, text, rest => Ends rest → ReadFrom features scan text (nodeOf scan value) rest
  | .item value, text, rest => Ends rest →
    ∃ after, Blanks after rest ∧ ReadFrom features scan text (nodeOf scan value) after
  | .items [], text, rest => skipSpaces text = 93 :: rest
  | .items (item :: items), text, rest => (skipSpaces text).head? ≠ some 93 ∧
    ∃ enough, ∀ fuel, enough ≤ fuel →
      readArray features scan fuel text = some (nodesOf scan (item :: items), rest)
  | .member member, text, rest => Ends rest →
    ∃ raw behind inner after, nextToken text = (.string raw, behind) ∧
      decodeString raw = some member.1 ∧ readColon behind = some inner ∧ Blanks after rest ∧
      ReadFrom features scan inner (nodeOf scan member.2) after
  | .members [], text, rest => nextToken text = (.objectEnd, rest)
  | .members (member :: members), text, rest =>
    ∃ enough, ∀ fuel, enough ≤ fuel → ∀ name before,
      readObject features scan fuel name before text =
        some (membersOf scan before (member :: members), rest)

theorem readSeparator_of_blanks {c : UInt8} {token : Token} {last : Bool}
    (h : Blanks text (c :: rest)) (htoken : readToken (c :: rest) = (token, rest))
    (hlast : token = .arrayEnd ∧ last = .true ∨ token = .arraySeparator ∧ last = .false) :
    readSeparator text = some (last, rest) := by
  have hread : readToken text = (token, rest) := (readToken_of_blanks h).trans htoken
  obtain ⟨rfl, rfl⟩ | ⟨rfl, rfl⟩ := hlast
  · rw [readSeparator, nextToken_of_readToken (by decide) hread]
    rfl
  · rw [readSeparator, nextToken_of_readToken (by decide) hread]
    rfl

theorem readComma_of_blanks {c : UInt8} {token : Token} {last : Bool}
    (h : Blanks text (c :: rest)) (htoken : readToken (c :: rest) = (token, rest))
    (hlast : token = .objectEnd ∧ last = .true ∨ token = .arraySeparator ∧ last = .false) :
    readComma text = some (last, rest) := by
  have hread : readToken text = (token, rest) := (readToken_of_blanks h).trans htoken
  obtain ⟨rfl, rfl⟩ | ⟨rfl, rfl⟩ := hlast
  · rw [readComma, nextToken_of_readToken (by decide) hread, hread]
    rfl
  · rw [readComma, nextToken_of_readToken (by decide) hread, hread]
    rfl

theorem readArray_item {after : List UInt8} {last : Bool} {value : Value}
    (h : ReadFrom features scan text (nodeOf scan value) after)
    (hseparator : readSeparator after = some (last, rest)) :
    ∃ enough, ∀ fuel, enough ≤ fuel → readArray features scan (fuel + 1) text =
      if last then some ([nodeOf scan value], rest)
      else (readArray features scan fuel rest).map fun (items, rest) =>
        (nodeOf scan value :: items, rest) := by
  obtain ⟨enough, hread⟩ := h
  refine ⟨enough, fun fuel hfuel => ?_⟩
  rw [readArray, hread fuel hfuel, Option.bind_some, hseparator, Option.bind_some]

theorem readObject_round {member : List UInt8 × Value} {raw behind after : List UInt8}
    {last : Bool} (htoken : nextToken text = (.string raw, behind))
    (hname : decodeString raw = some member.1) (hcolon : readColon behind = some inner)
    (h : ReadFrom features scan inner (nodeOf scan member.2) after)
    (hcomma : readComma after = some (last, rest)) :
    ∃ enough, ∀ fuel, enough ≤ fuel → ∀ name before,
      readObject features scan (fuel + 1) name before text =
        if last then some (membersOf scan before [member], rest)
        else readObject features scan fuel member.1 (membersOf scan before [member]) rest := by
  obtain ⟨enough, hread⟩ := h
  refine ⟨enough, fun fuel hfuel name before => ?_⟩
  rw [readObject, htoken]
  simp only [hname, hcolon, hread fuel hfuel, hcomma, Option.bind_some, membersOf]

theorem read_of_reads {part : Part} (hdecodes : part.All (Decodes scan))
    (h : Reads part text rest) : Read features scan part text rest := by
  induction h with
  | @null rest => exact fun _ => .null rest
  | true => exact fun _ => .true
  | false => exact fun _ => .false
  | int h => exact .number h.exists_cons (fun _ hc => h.numeric hc) (decodeNumber_int h hdecodes)
  | real h => exact .number h.exists_cons (fun _ hc => h.numeric hc) (decodeNumber_real hdecodes)
  | string h =>
    obtain ⟨raw, hraw, hdecode⟩ := exists_raw h
    refine fun _ => .of_token (readToken_quote hraw) (fun fuel htoken => ?_) Token.noConfusion
    rw [readValue, htoken]
    simp only [hdecode, Option.map_some]
    rfl
  | @array items text rest _ ih =>
    intro _
    cases hdecodes with
    | array hitems =>
      cases items with
      | nil => exact .noItem (ih hitems)
      | cons item items => exact .array (ih hitems).1 (ih hitems).2
  | @object members text rest _ ih =>
    intro _
    cases hdecodes with
    | object hmembers =>
      cases members with
      | nil =>
        refine .object ⟨1, fun fuel hfuel => ?_⟩
        obtain ⟨fuel, rfl⟩ := Nat.exists_eq_add_of_le' hfuel
        have hend : nextToken text = (.objectEnd, rest) := ih hmembers
        rw [readObject, hend]
        exact if_pos rfl
      | cons member members =>
        obtain ⟨enough, hread⟩ := ih hmembers
        exact .object ⟨enough, fun fuel hfuel => hread fuel hfuel [] []⟩
  | item hbefore _ hafter ih =>
    intro hrest
    exact ⟨_, hafter,
      (ih hdecodes (ends_of_blanks hafter hrest)).congr (readToken_of_blanks hbefore)⟩
  | noItem h => exact skipSpaces_of_blanks h
  | @lastItem value text rest _ ih =>
    obtain ⟨after, hafter, hread⟩ := ih (hdecodes value List.mem_cons_self) (ends_cons (by decide) rest)
    obtain ⟨enough, hround⟩ :=
      readArray_item hread (readSeparator_of_blanks hafter rfl (.inl ⟨rfl, rfl⟩))
    refine ⟨hread.head_ne, enough + 1, fun fuel hfuel => ?_⟩
    obtain ⟨fuel, rfl⟩ := Nat.exists_eq_add_of_le' (Nat.le_of_add_left_le hfuel)
    rw [hround fuel (Nat.le_of_succ_le_succ hfuel), if_pos rfl]
    rfl
  | @nextItem value next items text more rest _ _ ih ihmore =>
    obtain ⟨hvalue, hitems⟩ := List.forall_mem_cons.mp hdecodes
    obtain ⟨after, hafter, hread⟩ := ih hvalue (ends_cons (by decide) more)
    obtain ⟨enough, hround⟩ :=
      readArray_item hread (readSeparator_of_blanks hafter rfl (.inr ⟨rfl, rfl⟩))
    obtain ⟨-, enough', hmore⟩ := ihmore hitems
    refine ⟨hread.head_ne, max enough enough' + 1, fun fuel hfuel => ?_⟩
    obtain ⟨fuel, rfl⟩ := Nat.exists_eq_add_of_le' (Nat.le_of_add_left_le hfuel)
    have hfuel : max enough enough' ≤ fuel := Nat.le_of_succ_le_succ hfuel
    rw [hround fuel (le_of_max_le_left hfuel), if_neg Bool.false_ne_true,
      hmore fuel (le_of_max_le_right hfuel)]
    rfl
  | @member name value text quoted behind colon inner after rest hbefore hname hbehind hcolon _
      hafter ih =>
    intro hrest
    obtain ⟨raw, hraw, hdecode⟩ := exists_raw hname
    have htoken : readToken text = (.string raw, behind) :=
      (readToken_of_blanks hbefore).trans (readToken_quote hraw)
    have hmark : readToken behind = (.memberSeparator, colon) := readToken_of_blanks hbehind
    have hreadColon : readColon behind = some colon := by
      rw [readColon, hmark]
      rfl
    exact ⟨raw, behind, colon, after, nextToken_of_readToken Token.noConfusion htoken, hdecode,
      hreadColon, hafter,
      (ih hdecodes (ends_of_blanks hafter hrest)).congr (readToken_of_blanks hcolon)⟩
  | noMember h => exact nextToken_of_readToken (by decide) (readToken_of_blanks h)
  | @lastMember member text rest _ ih =>
    obtain ⟨raw, behind, inner, after, htoken, hname, hcolon, hafter, hread⟩ :=
      ih (hdecodes member List.mem_cons_self) (ends_cons (by decide) rest)
    obtain ⟨enough, hround⟩ := readObject_round htoken hname hcolon hread
      (readComma_of_blanks hafter rfl (.inl ⟨rfl, rfl⟩))
    refine ⟨enough + 1, fun fuel hfuel last before => ?_⟩
    obtain ⟨fuel, rfl⟩ := Nat.exists_eq_add_of_le' (Nat.le_of_add_left_le hfuel)
    rw [hround fuel (Nat.le_of_succ_le_succ hfuel), if_pos rfl]
  | @nextMember member next members text more rest _ _ ih ihmore =>
    obtain ⟨hmember, hmembers⟩ := List.forall_mem_cons.mp hdecodes
    obtain ⟨raw, behind, inner, after, htoken, hname, hcolon, hafter, hread⟩ :=
      ih hmember (ends_cons (by decide) more)
    obtain ⟨enough, hround⟩ := readObject_round htoken hname hcolon hread
      (readComma_of_blanks hafter rfl (.inr ⟨rfl, rfl⟩))
    obtain ⟨enough', hmore⟩ := ihmore hmembers
    refine ⟨max enough enough' + 1, fun fuel hfuel last before => ?_⟩
    obtain ⟨fuel, rfl⟩ := Nat.exists_eq_add_of_le' (Nat.le_of_add_left_le hfuel)
    have hfuel : max enough enough' ≤ fuel := Nat.le_of_succ_le_succ hfuel
    rw [hround fuel (le_of_max_le_left hfuel), if_neg Bool.false_ne_true,
      hmore fuel (le_of_max_le_right hfuel)]
    rfl

/-- A value that a strict reader takes for a document: an array or an object, whatever is in it. -/
def Container : Value → Prop
  | .array _ | .object _ => True
  | _ => False

theorem parse_document {value : Value} (hdecodes : Decodes scan value)
    (h : JsonText.Document text value) (hroot : features.strictRoot = true → Container value) :
    parse features scan text = some (nodeOf scan value) := by
  have hends : Ends [] := fun c hc => by cases hc
  obtain ⟨after, -, enough, hread⟩ := (read_of_reads hdecodes h :
    Read features scan (.item value) text []) hends
  have hvalue := (readValue_eq (le_max_right enough _)).symm.trans
    (hread _ (le_max_left enough (2 * text.length + 1)))
  rw [parse, hvalue, Option.bind_some]
  have hcontainer : ¬(features.strictRoot && !(nodeOf scan value).isArray &&
      !(nodeOf scan value).isObject) = true := by
    intro hbad
    simp only [Bool.and_eq_true, Bool.not_eq_true'] at hbad
    obtain ⟨⟨hstrict, harray⟩, hobject⟩ := hbad
    have hcontainer := hroot hstrict
    cases value with
    | array items => exact Bool.noConfusion harray
    | object members => exact Bool.noConfusion hobject
    | null | bool _ | int _ | real _ | string _ => exact hcontainer
  exact if_neg hcontainer

end Reading

/-- The last member whose name is the key up to its first NUL. -/
def lastCut (key : List UInt8) : List (List UInt8 × Value) → Option Value
  | [] => none
  | member :: members =>
    (lastCut key members).or (if CText.cStr member.1 = key then some member.2 else none)

/-- A node stands for a value. An integer beyond 64 bits is a double, and of members that count for
one name the last one is there. -/
inductive Denotes (scan : Scan) : Value → Node → Prop where
  | null : Denotes scan .null .null
  | bool (b : Bool) : Denotes scan (.bool b) (.bool b)
  | int {n : ℤ} (hlow : -2 ^ 63 ≤ n) (hhigh : n < 2 ^ 64) : Denotes scan (.int n) (ofInt n)
  | large {n : ℤ} {value : Real64} {printed : List UInt8} (h : n < -2 ^ 63 ∨ 2 ^ 64 ≤ n)
      (hscan : scan (CText.bytes (toString n)) = some (value, printed)) :
      Denotes scan (.int n) (.real value printed)
  | real {literal : List UInt8} {value : Real64} {printed : List UInt8}
      (hscan : scan literal = some (value, printed)) :
      Denotes scan (.real literal) (.real value printed)
  | string (s : List UInt8) : Denotes scan (.string s) (.string s)
  | array {items : List Value} {nodes : List Node} (h : List.Forall₂ (Denotes scan) items nodes) :
      Denotes scan (.array items) (.array nodes)
  | object {members : List (List UInt8 × Value)} {nodes : List (List UInt8 × Node)}
      (h : ∀ key, Option.Rel (Denotes scan) (lastCut key members) (nodes.lookup key)) :
      Denotes scan (.object members) (.object nodes)

section Meaning

variable {scan : Scan} {key name : List UInt8}

theorem mem_of_lastCut {value : Value} {members : List (List UInt8 × Value)}
    (h : lastCut key members = some value) : ∃ name, (name, value) ∈ members := by
  induction members with
  | nil => cases h
  | cons member members ih =>
    rw [lastCut, Option.or_eq_some_iff] at h
    obtain h | ⟨-, h⟩ := h
    · obtain ⟨name, hmem⟩ := ih h
      exact ⟨name, List.mem_cons_of_mem _ hmem⟩
    · obtain ⟨-, hvalue⟩ := Option.ite_none_right_eq_some.mp h
      exact ⟨member.1, Option.some.inj hvalue ▸ List.mem_cons_self⟩

theorem lookup_setMember {α : Type} (key name : List UInt8) (value : α)
    (members : List (List UInt8 × α)) :
    (setMember name value members).lookup key =
      if name = key then some value else members.lookup key := by
  induction members with
  | nil =>
    rw [setMember, List.lookup_cons]
    by_cases h : name = key
    · simp [h]
    · simp [h, beq_false_of_ne (Ne.symm h)]
  | cons member members ih =>
    rw [setMember]
    by_cases h : name = key
    · subst h
      rw [if_pos rfl]
      split
      · rw [List.lookup_cons_self]
      · split
        · rw [List.lookup_cons_self]
        · next hne _ => rw [List.lookup_cons, beq_false_of_ne hne, ih, if_pos rfl]
    · have hkey : (key == name) = false := beq_false_of_ne (Ne.symm h)
      rw [if_neg h]
      split
      · next heq => rw [List.lookup_cons, List.lookup_cons, ← heq, hkey]
      · split
        · rw [List.lookup_cons, hkey]
        · rw [List.lookup_cons, ih, if_neg h, List.lookup_cons]

theorem lookup_membersOf (members : List (List UInt8 × Value)) (before : List (List UInt8 × Node)) :
    (membersOf scan before members).lookup key =
      ((lastCut key members).map (nodeOf scan)).or (before.lookup key) := by
  induction members generalizing before with
  | nil =>
    rw [membersOf]
    rfl
  | cons member members ih =>
    rw [membersOf, ih, lookup_setMember, lastCut]
    cases lastCut key members with
    | some value => rfl
    | none =>
      simp only [Option.map_none, Option.none_or]
      split <;> rfl

theorem exists_scan (sscanf : Sscanf) {literal : List UInt8}
    (h : (∃ n, IntLiteral literal n) ∨ RealLiteral literal) :
    ∃ value printed, sscanf.scan literal = some (value, printed) := by
  obtain ⟨⟨value, printed⟩, hscan⟩ := Option.isSome_iff_exists.mp (sscanf.reads literal h)
  exact ⟨value, printed, hscan⟩

theorem denotes_int (sscanf : Sscanf) (n : ℤ) :
    Denotes sscanf.scan (.int n) (nodeOf sscanf.scan (.int n)) := by
  rw [nodeOf]
  by_cases h : n < -2 ^ 63 ∨ 2 ^ 64 ≤ n
  · obtain ⟨value, printed, hscan⟩ :=
      exists_scan sscanf (.inl ⟨n, .inl rfl⟩)
    rw [decodeNumber_large sscanf.scan h, decodeDouble, hscan]
    exact .large h hscan
  · rw [decodeNumber_toString sscanf.scan (by omega) (by omega)]
    exact .int (by omega) (by omega)

theorem forall₂_nodesOf {items : List Value}
    (h : ∀ value ∈ items, Denotes scan value (nodeOf scan value)) :
    List.Forall₂ (Denotes scan) items (nodesOf scan items) := by
  induction items with
  | nil => exact .nil
  | cons item items ih =>
    obtain ⟨hitem, hitems⟩ := List.forall_mem_cons.mp h
    exact .cons hitem (ih hitems)

theorem denotes_object {members : List (List UInt8 × Value)}
    (h : ∀ member ∈ members, Denotes scan member.2 (nodeOf scan member.2)) :
    Denotes scan (.object members) (nodeOf scan (.object members)) := by
  rw [nodeOf]
  refine .object fun key => ?_
  rw [lookup_membersOf, List.lookup_nil, Option.or_none]
  cases hlast : lastCut key members with
  | none => exact .none
  | some value =>
    obtain ⟨name, hmem⟩ := mem_of_lastCut hlast
    exact .some (h _ hmem)

theorem denotes_of_document (sscanf : Sscanf) {text : List UInt8} {value : Value}
    (h : JsonText.Document text value) : Denotes sscanf.scan value (nodeOf sscanf.scan value) := by
  refine Reads.all (p := fun value => Denotes sscanf.scan value (nodeOf sscanf.scan value)) .null
    .bool (denotes_int sscanf) (fun hreal => ?_) .string (fun hitems => .array (forall₂_nodesOf hitems))
    denotes_object h
  obtain ⟨value, printed, hscan⟩ := exists_scan sscanf (.inr hreal)
  rw [nodeOf, decodeNumber_eq_decodeDouble sscanf.scan hreal, decodeDouble, hscan]
  exact .real hscan

theorem decodes_of_document (sscanf : Sscanf) {text : List UInt8} {value : Value}
    (h : JsonText.Document text value) : Decodes sscanf.scan value :=
  Reads.all (p := Decodes sscanf.scan) .null .bool (fun n => .int (isSome_decodeNumber_int sscanf n))
    (fun hreal => .real (isSome_decodeNumber_real sscanf hreal)) .string .array .object h

end Meaning

end Json

end ImServer
