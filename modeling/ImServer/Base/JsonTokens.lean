import ImServer.Base.JsonValue

/-!
# The tokens of JSON

`Json::Reader` (base/jsoncpp/json_reader.cpp) turns a text into tokens, and decodes the texts and
the numbers among them. It accepts more than JSON: control characters in texts, numbers like `007`,
and comments.

What `sscanf` makes of a number with a point is a parameter. Errors are not told apart, since a text
with one is refused.
-/

namespace ImServer

namespace Json

inductive Token where
  | objectBegin
  | objectEnd
  | arrayBegin
  | arrayEnd
  | string (raw : List UInt8)
  | number (text : List UInt8)
  | true
  | false
  | null
  | arraySeparator
  | memberSeparator
  | comment
  | endOfStream
  | error
  deriving DecidableEq, Repr

def isSpace (c : UInt8) : Bool := c = 32 || c = 9 || c = 13 || c = 10

def skipSpaces (text : List UInt8) : List UInt8 := text.dropWhile isSpace

/-- `match`, which goes on behind the pattern if it is there. -/
def readWord (token : Token) (pattern text : List UInt8) : Token × List UInt8 :=
  if pattern <+: text then (token, text.drop pattern.length) else (.error, text)

/-- Whether the end of a comment was found, and what follows it. -/
def readCStyleComment : List UInt8 → Bool × List UInt8
  | [] => (false, [])
  | c :: rest => if c = 42 ∧ rest.head? = some 47 then (true, rest.tail) else readCStyleComment rest

def readCppStyleComment (text : List UInt8) : Bool × List UInt8 :=
  (true, (text.dropWhile fun c => c ≠ 10 && c ≠ 13).tail)

/-- What is behind the first slash. -/
def readComment : List UInt8 → Bool × List UInt8
  | [] => (false, [])
  | c :: rest =>
    if c = 42 then readCStyleComment rest
    else if c = 47 then readCppStyleComment rest
    else (false, rest)

/-- A text up to its closing quote, with its escapes, and what follows. -/
def readString : List UInt8 → Option (List UInt8 × List UInt8)
  | [] => none
  | [c] => if c = 34 then some ([], []) else none
  | c :: d :: rest =>
    if c = 34 then some ([], d :: rest)
    else if c = 92 then (readString rest).map fun (raw, rest) => (c :: d :: raw, rest)
    else (readString (d :: rest)).map fun (raw, rest) => (c :: raw, rest)

def isDigit (c : UInt8) : Bool := 48 ≤ c && c ≤ 57

def isNumberChar (c : UInt8) : Bool :=
  isDigit c || c = 46 || c = 101 || c = 69 || c = 43 || c = 45

/-- What is behind an opening quote. -/
def stringToken (text : List UInt8) : Token × List UInt8 :=
  match readString text with
  | some (raw, rest) => (.string raw, rest)
  | none => (.error, [])

/-- The token that a character begins. -/
def tokenOf (c : UInt8) (rest : List UInt8) : Token × List UInt8 :=
  if c = 123 then (.objectBegin, rest)
  else if c = 125 then (.objectEnd, rest)
  else if c = 91 then (.arrayBegin, rest)
  else if c = 93 then (.arrayEnd, rest)
  else if c = 34 then stringToken rest
  else if c = 47 then
    (if (readComment rest).1 then .comment else .error, (readComment rest).2)
  else if isDigit c || c = 45 then
    (.number (c :: rest.takeWhile isNumberChar), rest.dropWhile isNumberChar)
  else if c = 116 then readWord .true [114, 117, 101] rest
  else if c = 102 then readWord .false [97, 108, 115, 101] rest
  else if c = 110 then readWord .null [117, 108, 108] rest
  else if c = 44 then (.arraySeparator, rest)
  else if c = 58 then (.memberSeparator, rest)
  else if c = 0 then (.endOfStream, rest)
  else (.error, rest)

def readToken (text : List UInt8) : Token × List UInt8 :=
  match skipSpaces text with
  | [] => (.endOfStream, [])
  | c :: rest => tokenOf c rest

theorem length_skipSpaces_le (text : List UInt8) : (skipSpaces text).length ≤ text.length :=
  List.length_dropWhile_le _ text

theorem length_readCStyleComment_le (text : List UInt8) :
    (readCStyleComment text).2.length ≤ text.length := by
  induction text with
  | nil => exact le_rfl
  | cons c rest ih =>
    rw [readCStyleComment]
    split
    · exact Nat.le_succ_of_le (by simp)
    · exact Nat.le_succ_of_le ih

theorem length_readComment_le (text : List UInt8) :
    (readComment text).2.length ≤ text.length := by
  cases text with
  | nil => exact le_rfl
  | cons c rest =>
    rw [readComment]
    split_ifs
    · exact Nat.le_succ_of_le (length_readCStyleComment_le rest)
    · have hline := List.length_dropWhile_le (fun c => c ≠ 10 && c ≠ 13) rest
      refine Nat.le_succ_of_le (Nat.le_trans ?_ hline)
      rw [readCppStyleComment, List.length_tail]
      exact Nat.sub_le _ _
    · exact Nat.le_succ _

theorem length_of_readString {text raw rest : List UInt8} (h : readString text = some (raw, rest)) :
    rest.length < text.length := by
  induction text using readString.induct generalizing raw with
  | case1 => cases h
  | case2 =>
    cases h
    exact Nat.one_pos
  | case3 c hc =>
    rw [readString, if_neg hc] at h
    cases h
  | case4 d rest' =>
    cases h
    exact Nat.lt_succ_self _
  | case5 d rest' hc ih =>
    rw [readString, if_neg hc, if_pos rfl, Option.map_eq_some_iff] at h
    obtain ⟨⟨raw', rest''⟩, hread, hpair⟩ := h
    cases hpair
    exact Nat.lt_succ_of_lt (Nat.lt_succ_of_lt (ih hread))
  | case6 c d rest' hc hd ih =>
    rw [readString, if_neg hc, if_neg hd, Option.map_eq_some_iff] at h
    obtain ⟨⟨raw', rest''⟩, hread, hpair⟩ := h
    cases hpair
    exact Nat.lt_succ_of_lt (ih hread)

theorem length_readWord_le (token : Token) (pattern text : List UInt8) :
    (readWord token pattern text).2.length ≤ text.length := by
  rw [readWord]
  split
  · simp
  · exact le_rfl

theorem length_stringToken_le (text : List UInt8) : (stringToken text).2.length ≤ text.length := by
  rw [stringToken]
  split
  · next hread => exact (length_of_readString hread).le
  · exact Nat.zero_le _

theorem length_ite_le {p : Prop} [Decidable p] {a b : Token × List UInt8} {n : ℕ}
    (ha : a.2.length ≤ n) (hb : b.2.length ≤ n) : (if p then a else b).2.length ≤ n := by
  split
  · exact ha
  · exact hb

theorem length_tokenOf_le (c : UInt8) (rest : List UInt8) :
    (tokenOf c rest).2.length ≤ rest.length := by
  have hrest : rest.length ≤ rest.length := le_rfl
  have hword := fun token pattern => length_readWord_le token pattern rest
  refine length_ite_le hrest (length_ite_le hrest (length_ite_le hrest (length_ite_le hrest ?_)))
  refine length_ite_le (length_stringToken_le rest) (length_ite_le (length_readComment_le rest) ?_)
  refine length_ite_le (List.length_dropWhile_le _ rest) ?_
  refine length_ite_le (hword _ _) (length_ite_le (hword _ _) (length_ite_le (hword _ _) ?_))
  exact length_ite_le hrest (length_ite_le hrest (length_ite_le hrest hrest))

theorem length_readToken_le (text : List UInt8) : (readToken text).2.length ≤ text.length := by
  have hspaces := length_skipSpaces_le text
  rw [readToken]
  split
  · exact Nat.zero_le _
  · next c rest hskip =>
    rw [hskip] at hspaces
    exact (length_tokenOf_le c rest).trans (Nat.le_of_succ_le hspaces)

theorem length_readToken_lt {text : List UInt8} (h : (readToken text).1 ≠ .endOfStream) :
    (readToken text).2.length < text.length := by
  have hspaces := length_skipSpaces_le text
  rw [readToken] at h ⊢
  cases hskip : skipSpaces text with
  | nil =>
    rw [hskip] at h
    exact absurd rfl h
  | cons c rest =>
    rw [hskip] at hspaces
    exact Nat.lt_of_lt_of_le (Nat.lt_succ_of_le (length_tokenOf_le c rest)) hspaces

/-- `skipCommentTokens`, where comments are allowed. -/
def skipComments : ℕ → List UInt8 → Token × List UInt8
  | 0, text => readToken text
  | fuel + 1, text =>
    if (readToken text).1 = .comment then skipComments fuel (readToken text).2 else readToken text

/-- The next token that is no comment. -/
def nextToken (text : List UInt8) : Token × List UInt8 := skipComments text.length text

theorem skipComments_eq {fuel : ℕ} {text : List UInt8} (h : text.length ≤ fuel) :
    skipComments fuel text = nextToken text := by
  induction fuel using Nat.strong_induction_on generalizing text with
  | _ fuel ih =>
    cases fuel with
    | zero => rw [nextToken, Nat.le_zero.mp h]
    | succ fuel =>
      cases hlength : text.length with
      | zero =>
        rw [nextToken, hlength, skipComments, List.length_eq_zero_iff.mp hlength]
        rfl
      | succ n =>
        rw [nextToken, hlength, skipComments, skipComments]
        refine ite_congr rfl (fun hcomment => ?_) fun _ => rfl
        have hlt : (readToken text).2.length < text.length :=
          length_readToken_lt (by rw [hcomment]; decide)
        rw [ih fuel (Nat.lt_succ_self fuel) (by omega), ih n (by omega) (by omega)]

theorem nextToken_eq (text : List UInt8) :
    nextToken text =
      if (readToken text).1 = .comment then nextToken (readToken text).2 else readToken text := by
  rw [← skipComments_eq (Nat.le_succ text.length), skipComments]
  refine ite_congr rfl (fun hcomment => ?_) fun _ => rfl
  have hlt : (readToken text).2.length < text.length :=
    length_readToken_lt (by rw [hcomment]; decide)
  exact skipComments_eq hlt.le

theorem length_nextToken_lt {text : List UInt8} (h : (nextToken text).1 ≠ .endOfStream) :
    (nextToken text).2.length < text.length := by
  induction hlength : text.length using Nat.strong_induction_on generalizing text with
  | _ n ih =>
    rw [nextToken_eq] at h ⊢
    split at h
    · next hcomment =>
      have hlt : (readToken text).2.length < n :=
        hlength ▸ length_readToken_lt (by rw [hcomment]; decide)
      rw [if_pos hcomment]
      exact (ih _ hlt h rfl).trans hlt
    · next hcomment =>
      rw [if_neg hcomment]
      exact hlength ▸ length_readToken_lt h

theorem length_nextToken_le (text : List UInt8) : (nextToken text).2.length ≤ text.length := by
  induction hlength : text.length using Nat.strong_induction_on generalizing text with
  | _ n ih =>
    rw [nextToken_eq]
    split
    · next hcomment =>
      have hlt : (readToken text).2.length < n :=
        hlength ▸ length_readToken_lt (by rw [hcomment]; decide)
      exact (ih _ hlt _ rfl).trans hlt.le
    · exact hlength ▸ length_readToken_le text

/-- What `sscanf` reads from the text of a number: a double, and how it is printed. -/
abbrev Scan := List UInt8 → Option (Real64 × List UInt8)

/-- What the loop over the digits comes to. -/
inductive Digits where
  | notANumber
  | large
  | value (n : ℕ)
  deriving DecidableEq, Repr

def decodeDigits (maxIntegerValue : ℕ) : ℕ → List UInt8 → Digits
  | value, [] => .value value
  | value, c :: rest =>
    if isDigit c then
      let digit := (c - 48).toNat
      if maxIntegerValue / 10 ≤ value ∧ (maxIntegerValue / 10 < value ∨ rest ≠ [] ∨
          maxIntegerValue % 10 < digit) then .large
      else decodeDigits maxIntegerValue (value * 10 + digit) rest
    else .notANumber

/-- `decodeDouble` of a number with fewer than 2^31 characters, so that its length, which is taken as
an `int`, is not negative and is the length of the buffer that is scanned. -/
def decodeDouble (scan : Scan) (text : List UInt8) : Option Node :=
  (scan text).map fun (value, printed) => .real value printed

def isDouble (text : List UInt8) : Bool :=
  text.any (fun c => c = 46 || c = 101 || c = 69 || c = 43) || text.tail.any (· = 45)

/-- An integer that fits 64 bits is one, and every other number a double. -/
def decodeNumber (scan : Scan) (text : List UInt8) : Option Node :=
  if isDouble text then decodeDouble scan text
  else if text.head? = some 45 then
    match decodeDigits (2 ^ 63) 0 text.tail with
    | .notANumber => none
    | .large => decodeDouble scan text
    | .value n => some (.int (-n))
  else
    match decodeDigits (2 ^ 64 - 1) 0 text with
    | .notANumber => none
    | .large => decodeDouble scan text
    | .value n => some (if n ≤ 2 ^ 31 - 1 then .int n else .uint n)

def hexValue (c : UInt8) : Option UInt32 :=
  if isDigit c then some (c - 48).toUInt32
  else if 97 ≤ c ∧ c ≤ 102 then some (c - 97 + 10).toUInt32
  else if 65 ≤ c ∧ c ≤ 70 then some (c - 65 + 10).toUInt32
  else none

def decodeUnicodeEscapeSequence : List UInt8 → Option (UInt32 × List UInt8)
  | a :: b :: c :: d :: rest => do
    let a ← hexValue a
    let b ← hexValue b
    let c ← hexValue c
    let d ← hexValue d
    some (((a * 16 + b) * 16 + c) * 16 + d, rest)
  | _ => none

/-- The second half of a surrogate pair may be any code. -/
def decodeUnicodeCodePoint (text : List UInt8) : Option (UInt32 × List UInt8) := do
  let (unicode, rest) ← decodeUnicodeEscapeSequence text
  if 0xD800 ≤ unicode ∧ unicode ≤ 0xDBFF then
    if [92, 117] <+: rest then
      let (surrogatePair, rest) ← decodeUnicodeEscapeSequence (rest.drop 2)
      some ((0x10000 : UInt32) + ((unicode &&& 0x3FF) <<< 10) + (surrogatePair &&& 0x3FF), rest)
    else none
  else some (unicode, rest)

def codePointToUTF8 (cp : UInt32) : List UInt8 :=
  let bits (mask : UInt8) (shift : UInt32) : UInt8 := mask &&& (cp >>> shift).toUInt8
  if cp ≤ 0x7f then [cp.toUInt8]
  else if cp ≤ 0x7FF then [0xC0 ||| bits 0x1f 6, 0x80 ||| bits 0x3f 0]
  else if cp ≤ 0xFFFF then [0xE0 ||| bits 0xf 12, 0x80 ||| bits 0x3f 6, 0x80 ||| bits 0x3f 0]
  else if cp ≤ 0x10FFFF then
    [0xF0 ||| bits 0x7 18, 0x80 ||| bits 0x3f 12, 0x80 ||| bits 0x3f 6, 0x80 ||| bits 0x3f 0]
  else []

/-- The escapes of one character. -/
def shortEscape (c : UInt8) : Option UInt8 :=
  [(34, 34), (47, 47), (92, 92), (98, 8), (102, 12), (110, 10), (114, 13), (116, 9)].lookup c

/-- What an escape stands for whose backslash was read, and what follows. -/
def decodeEscape : List UInt8 → Option (List UInt8 × List UInt8)
  | [] => none
  | c :: rest =>
    match shortEscape c with
    | some b => some ([b], rest)
    | none =>
      if c = 117 then
        (decodeUnicodeCodePoint rest).map fun (unicode, rest) => (codePointToUTF8 unicode, rest)
      else none

theorem length_of_decodeUnicodeEscapeSequence {text rest : List UInt8} {unicode : UInt32}
    (h : decodeUnicodeEscapeSequence text = some (unicode, rest)) : rest.length ≤ text.length := by
  match text with
  | a :: b :: c :: d :: rest' =>
    simp only [decodeUnicodeEscapeSequence, bind, Option.bind_eq_some_iff, Option.some.injEq,
      Prod.mk.injEq] at h
    obtain ⟨_, -, _, -, _, -, _, -, -, rfl⟩ := h
    simp only [List.length_cons]
    omega
  | [] | [_] | [_, _] | [_, _, _] => cases h

theorem length_of_decodeEscape {text decoded rest : List UInt8}
    (h : decodeEscape text = some (decoded, rest)) : rest.length < text.length := by
  cases text with
  | nil => cases h
  | cons c text =>
    rw [decodeEscape] at h
    split at h
    · cases h
      exact Nat.lt_succ_self _
    · split at h
      · simp only [decodeUnicodeCodePoint, bind, Option.map_eq_some_iff, Option.bind_eq_some_iff,
          Prod.exists, Prod.mk.injEq] at h
        obtain ⟨_, _, ⟨unicode, rest', hfirst, h⟩, -, rfl⟩ := h
        have hrest := length_of_decodeUnicodeEscapeSequence hfirst
        split at h
        · split at h
          · simp only [Option.bind_eq_some_iff, Prod.exists, Option.some.injEq,
              Prod.mk.injEq] at h
            obtain ⟨_, _, hsecond, -, rfl⟩ := h
            have hdrop := length_of_decodeUnicodeEscapeSequence hsecond
            rw [List.length_drop] at hdrop
            exact Nat.lt_succ_of_le (hdrop.trans ((Nat.sub_le _ _).trans hrest))
          · cases h
        · cases h
          exact Nat.lt_succ_of_le hrest
      · cases h

/-- What the text between two quotes stands for. -/
def decodeString : List UInt8 → Option (List UInt8)
  | [] => some []
  | c :: rest =>
    if c = 34 then some []
    else if c = 92 then
      match h : decodeEscape rest with
      | none => none
      | some (decoded, rest') =>
        have := length_of_decodeEscape h
        (decodeString rest').map (decoded ++ ·)
    else (decodeString rest).map (c :: ·)
termination_by raw => raw.length

end Json

end ImServer
