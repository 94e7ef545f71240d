import ImServer.APush.PushForms
import ImServer.Lib.Run
import ImServer.Lib.Search

/-!
# The access token of the Huawei push

`CApushLocalSvr::GetToken` (apush/push_provide_server.cpp) and `PhaseRecvData` of the client that it
asks (apush/hw_ssl_get_token.cpp). Each push takes the token that is kept, until half of its life is
over, and asks for another one then.

`PhaseRecvData` searches the reply for three marks, and a mark that is not found has the place -1,
from which the next search goes on. The token is set before the other parts of the reply have been
looked at. A request that fails gives an empty token, which is stored by the push.
-/

namespace ImServer

namespace CApushLocalSvr

/-- What is in front of the token. -/
def token : List UInt8 := CText.bytes "\x7b\"access_token\":\""

/-- What is between the token and its life. -/
def expires : List UInt8 := CText.bytes "\",\"expires_in\":"

def strEnd : List UInt8 := CText.bytes "\x7d"

/-- `HW_POST_RECV_SIZE`. -/
def recvSize : ℕ := 1024

/-- A number of the type `int` as a `size_t`. -/
def sizeT (n : ℤ) : ℕ := (n % 2 ^ 64).toNat

/-- What `find` returns from a place on, as an `int`. -/
def find (pattern recvBuf : List UInt8) (pos : ℕ) : ℤ :=
  match Search.find pattern (recvBuf.drop pos) with
  | none => -1
  | some n => ((pos + n : ℕ) : ℤ).bmod (2 ^ 32)

def substr (recvBuf : List UInt8) (pos n : ℤ) : List UInt8 :=
  (recvBuf.drop (sizeT pos)).take (sizeT n)

/-- `atoi` of a text, for numbers that fit an `int`. What it makes of larger ones is not defined. -/
def atoi (text : List UInt8) : ℤ :=
  CText.atoi (String.ofList (text.map fun b => Char.ofNat b.toNat))

/-- The client that asks for a token. It is made for one request, and its constructor does not set
the time. -/
structure CHwGetPushTokenClient where
  strToken : List UInt8
  expires : UInt32
  timeTick : UInt32
  deriving DecidableEq, Repr

/-- `PhaseRecvData`, and whether it gets to its end. If it does not, the token may be changed
already, and the time is not. -/
def phaseRecvData (client : CHwGetPushTokenClient) (recvBuf : List UInt8) (now : ℕ) :
    CHwGetPushTokenClient × Bool :=
  let posToken := find token recvBuf 0
  let posexpires := find expires recvBuf (sizeT (posToken + token.length))
  let posStrEnd := find strEnd recvBuf (sizeT (posexpires + expires.length))
  let posToken := posToken + token.length
  if posexpires < posToken then (client, false)
  else
    let client := { client with strToken := substr recvBuf posToken (posexpires - posToken) }
    let posexpires := posexpires + expires.length
    if posStrEnd < posexpires then (client, false)
    else
      let strTime := substr recvBuf posexpires (posStrEnd - posexpires)
      let client := { client with expires := UInt32.ofInt (atoi strTime) }
      if client.expires = 0 then (client, false)
      else ({ client with timeTick := UInt32.ofNat now }, true)

/-- A reply as the peer sends it, and how many of its bytes are read at once. `behind` is what is
behind the array, and `unset` what is in the member that the constructor does not set. -/
structure Reply where
  text : List UInt8
  read : ℕ
  behind : List UInt8
  unset : UInt32
  read_pos : 0 < read
  read_le : read ≤ recvSize

/-- What is in the array, which is as much of the reply as one read has given. -/
def Reply.recv (reply : Reply) : List UInt8 := reply.text.take reply.read

/-- `recv` as a C string. An array that is full has no end of its own. -/
def Reply.recvBuf (reply : Reply) : List UInt8 :=
  CText.cStr (reply.recv ++ if reply.recv.length < recvSize then [] else reply.behind)

/-- The form in which a token is kept and sent, without the backslashes of the reply. -/
def sent (token : List UInt8) : List UInt8 := rfc1738Encode (token.filter (· ≠ 92))

/-- What becomes of a request: there is no client for it, it fails, or there is a reply. -/
inductive Outcome where
  | noClient
  | failed
  | reply (reply : Reply)

/-- A push at a time `now`. If a request is made, it is over at the time `later`. -/
structure Push where
  now : ℕ
  outcome : Outcome
  later : ℕ

/-- A token that was taken, its life, and the time when it was taken. -/
structure Taken where
  token : List UInt8
  life : ℕ
  time : ℕ
  deriving DecidableEq, Repr

def Taken.ValidAt (taken : Taken) (time : ℕ) : Prop := time < taken.time + taken.life

/-- A reply, and the token with its life that was taken from it. -/
structure Answer where
  text : List UInt8
  taken : Option (List UInt8 × ℕ)

/-- The server. Beside its members stand the time, the replies so far, and the latest token that was
taken. -/
structure State where
  strToken : List UInt8 := []
  timeTick : UInt32 := 0
  expires : UInt32 := 0
  clock : ℕ := 0
  answers : List Answer := []
  latest : Option Taken := none

/-- Less than half of the life of the token is over. -/
def State.Fresh (s : State) (now : ℕ) : Prop :=
  s.timeTick ≠ 0 ∧ s.expires ≠ 0 ∧ s.strToken ≠ [] ∧
    (now : ℤ) - s.timeTick.toNat < (s.expires.toNat / 2 : ℕ)

instance (s : State) (now : ℕ) : Decidable (s.Fresh now) :=
  inferInstanceAs (Decidable (_ ∧ _ ∧ _ ∧ _))

/-- `GetToken` when there is a reply. The life and the time are taken over in any case, the token
only if it is not empty. -/
def State.getReply (s : State) (reply : Reply) (now : ℕ) : State × List UInt8 :=
  let (client, ended) := phaseRecvData ⟨[], 0, reply.unset⟩ reply.recvBuf now
  let taken := if ended then some (client.strToken, client.expires.toNat) else none
  let s := { s with
    expires := client.expires
    timeTick := client.timeTick
    answers := ⟨reply.text, taken⟩ :: s.answers
    latest := (taken.map fun (token, life) => ⟨token, life, now⟩).or s.latest }
  if client.strToken = [] then (s, [])
  else
    let strToken := sent client.strToken
    ({ s with strToken }, strToken)

/-- `GetToken`: the state afterwards, and the token that is returned. The service is asked only if
the token at hand is not fresh. -/
def State.getToken (s : State) (push : Push) : State × List UInt8 :=
  if s.Fresh push.now then (s, s.strToken)
  else
    match push.outcome with
    | .noClient => (s, s.strToken)
    | .failed => (s, [])
    | .reply reply => s.getReply reply push.later

/-- `OnAndroidPush`, as far as it uses the token. The clock is afterwards at the time at which the
token was looked at or asked for. -/
def State.onAndroidPush (s : State) (push : Push) : State :=
  let clock := if s.Fresh push.now then push.now else push.later
  let (s, strToken) := s.getToken push
  { s with strToken, clock }

/-- A push when it is due. Time goes on: no push is made before the one that was last, and none ends
before it begins. -/
def step (s : State) (push : Push) : Option State :=
  if s.clock ≤ push.now ∧ push.now ≤ push.later then some (s.onAndroidPush push) else none

/-- The text of a token and its life as the service writes it, from the mark in front of the token
on. -/
def object (T : List UInt8) (N : ℕ) : List UInt8 :=
  token ++ (T ++ (expires ++ (CText.bytes (toString N) ++ strEnd)))

/-- There is a token, which has no quote, and a life, which is positive. -/
def Contains (text T : List UInt8) (N : ℕ) : Prop := 34 ∉ T ∧ 0 < N ∧ object T N <:+: text

/-- What is taken from a reply is exactly what is in it; what a push gets is the latest token that
was taken, as long as it is valid; and it gets no other token. -/
structure TokensRight (s : State) : Prop where
  taken : ∀ answer ∈ s.answers, ∀ T N, answer.taken = some (T, N) ↔ Contains answer.text T N
  valid : ∀ taken ∈ s.latest, taken.ValidAt s.clock → s.strToken = sent taken.token
  only : s.strToken = [] ∨ ∃ taken ∈ s.latest, s.strToken = sent taken.token

/-- No token is valid at that time: none was taken, or the life of the one that was taken last is
over. -/
def State.NoneValid (s : State) (time : ℕ) : Prop := ∀ taken ∈ s.latest, ¬taken.ValidAt time

/-- There is a token with its life, behind the first mark of a token in the C string, and no other
one is in the reply. The life is a number for an `int`. -/
def Reply.One (reply : Reply) (T : List UInt8) (N : ℕ) : Prop :=
  (∃ front rest, reply.recvBuf = front ++ (object T N ++ rest) ∧
    Search.find token reply.recvBuf = some front.length) ∧ N < 2 ^ 31 ∧
    ∀ T' N', Contains reply.text T' N' ↔ T' = T ∧ N' = N

/-- What is behind the first mark of a token, or, if there is none, behind the first 16 bytes. -/
def behindToken (recvBuf : List UInt8) : List UInt8 :=
  match Search.find token recvBuf with
  | some n => recvBuf.drop (n + token.length)
  | none => recvBuf.drop 16

/-- There is no token with its life in the reply, and not the mark between the two either. -/
def Reply.Refused (reply : Reply) : Prop :=
  (∀ T N, ¬Contains reply.text T N) ∧ Search.find expires (behindToken reply.recvBuf) = none

/-- The C string ends inside the array: there was room for the end, or the reply itself has a
NUL. -/
def Reply.Ends (reply : Reply) : Prop := reply.recv.length < recvSize ∨ 0 ∈ reply.recv

/-- A push that asks for no token; one that gets a reply with one token; or one that gets none, at a
time when no token is valid. -/
def Good (s : State) (push : Push) : Prop :=
  s.Fresh push.now ∨
    match push.outcome with
    | .noClient => True
    | .failed => s.NoneValid push.later
    | .reply reply =>
      reply.Ends ∧ ((∃ T N, reply.One T N) ∨ reply.Refused ∧ s.NoneValid push.later)

section Read

variable {pattern recvBuf front T rest : List UInt8} {n pos N : ℕ}

theorem sizeT_natCast (h : n < 2 ^ 31) : sizeT n = n := by
  rw [sizeT]
  omega

theorem find_of_some (h : Search.find pattern (recvBuf.drop pos) = some n) (hn : pos + n < 2 ^ 31) :
    find pattern recvBuf pos = (pos + n : ℕ) := by
  rw [find, h]
  show ((pos + n : ℕ) : ℤ).bmod (2 ^ 32) = (pos + n : ℕ)
  rw [Int.bmod_def]
  omega

theorem find_of_none (h : Search.find pattern (recvBuf.drop pos) = none) :
    find pattern recvBuf pos = -1 := by
  rw [find, h]

theorem substr_append {text text' text'' : List UInt8}
    (hlen : (text ++ (text' ++ text'')).length < 2 ^ 31) (hpos : text.length = pos)
    (hn : text'.length = n) :
    substr (text ++ (text' ++ text'')) pos n = text' := by
  rw [List.length_append, List.length_append] at hlen
  rw [substr, sizeT_natCast (by omega), sizeT_natCast (by omega), List.drop_left' hpos,
    List.take_left' hn]

/-- A text without quotes does not have the mark behind the token, nor the beginning of it. -/
theorem skips_expires (hT : 34 ∉ T) (text : List UInt8) : Search.Skips expires T text :=
  Search.skips_of_notMem hT text

theorem brace_notMem_digits (N : ℕ) : 125 ∉ CText.bytes (toString N) := by
  intro hmem
  exact absurd (CText.mem_bytes_toString hmem).2 (by decide)

theorem skips_strEnd (N : ℕ) (text : List UInt8) :
    Search.Skips strEnd (CText.bytes (toString N)) text :=
  Search.skips_of_notMem (brace_notMem_digits N) text

theorem atoi_digits (N : ℕ) : atoi (CText.bytes (toString N)) = N := by
  rw [atoi, CText.map_bytes_toString, String.ofList_toList, CText.atoi_toString]

theorem phaseRecvData_object (client : CHwGetPushTokenClient) (now : ℕ)
    (hfirst : Search.find token recvBuf = some front.length)
    (hbuf : recvBuf = front ++ (object T N ++ rest)) (hlen : recvBuf.length < 2 ^ 31) (hT : 34 ∉ T)
    (hpos : 0 < N) (hN : N < 2 ^ 31) :
    phaseRecvData client recvBuf now = (⟨T, UInt32.ofNat N, UInt32.ofNat now⟩, true) := by
  have hparts : recvBuf = (front ++ token) ++ (T ++ (expires ++
      (CText.bytes (toString N) ++ (strEnd ++ rest)))) := by
    rw [hbuf, object]
    simp only [List.append_assoc]
  have hparts' : recvBuf = (front ++ token ++ T ++ expires) ++
      (CText.bytes (toString N) ++ (strEnd ++ rest)) := by
    rw [hparts]
    simp only [List.append_assoc]
  have hsize : front.length + token.length + T.length + expires.length +
      (CText.bytes (toString N)).length < 2 ^ 31 := by
    rw [hparts'] at hlen
    simp only [List.length_append] at hlen
    omega
  have htoken : find token recvBuf 0 = (0 + front.length : ℕ) :=
    find_of_some hfirst (by omega)
  rw [Nat.zero_add] at htoken
  have hexpires : find expires recvBuf (front.length + token.length) =
      (front.length + token.length + T.length : ℕ) := by
    refine find_of_some ?_ (by omega)
    rw [hparts, List.drop_left' List.length_append,
      Search.find_append (skips_expires hT _), Search.find_self, Option.map_some, Nat.zero_add]
  have hend : find strEnd recvBuf (front.length + token.length + T.length + expires.length) =
      (front.length + token.length + T.length + expires.length +
        (CText.bytes (toString N)).length : ℕ) := by
    refine find_of_some ?_ (by omega)
    rw [hparts', List.drop_left' (by simp only [List.length_append]),
      Search.find_append (skips_strEnd N _), Search.find_self, Option.map_some, Nat.zero_add]
  have htake : substr recvBuf (front.length + token.length : ℕ) T.length = T := by
    rw [hparts] at hlen ⊢
    exact substr_append hlen List.length_append rfl
  have hlife : substr recvBuf (front.length + token.length + T.length + expires.length : ℕ)
      (CText.bytes (toString N)).length = CText.bytes (toString N) := by
    rw [hparts'] at hlen ⊢
    exact substr_append hlen (by simp only [List.length_append]) rfl
  have hofInt : UInt32.ofInt (N : ℤ) = UInt32.ofNat N := by
    have hvalue : ((N : ℤ) % 2 ^ 32).toNat = N := by omega
    rw [UInt32.ofInt, hvalue]
  have hne : UInt32.ofNat N ≠ 0 := by
    intro hzero
    have hvalue := congrArg UInt32.toNat hzero
    rw [UInt32.toNat_ofNat_of_lt' (lt_trans hN (by decide))] at hvalue
    exact hpos.ne' hvalue
  have hplace (n m : ℕ) : (n : ℤ) + m = (n + m : ℕ) := (Int.natCast_add n m).symm
  have hdiff (n m : ℕ) : ((n + m : ℕ) : ℤ) - n = m := by omega
  have hstart : front.length + token.length < 2 ^ 31 := by omega
  have hbehind : front.length + token.length + T.length + expires.length < 2 ^ 31 := by omega
  simp only [phaseRecvData, htoken, hplace, sizeT_natCast hstart, hexpires, sizeT_natCast hbehind,
    hend, hdiff, htake, hlife, atoi_digits, hofInt]
  rw [if_neg (by omega), if_neg (by omega), if_neg hne]

end Read

/-- The search for what is behind the token goes on from the place behind the token, or from 16. -/
theorem phaseRecvData_refused {client : CHwGetPushTokenClient} {recvBuf : List UInt8} {now : ℕ}
    (hlen : recvBuf.length < 2 ^ 31) (h : Search.find expires (behindToken recvBuf) = none) :
    phaseRecvData client recvBuf now = (client, false) := by
  have hexpires : ∃ n : ℕ, find token recvBuf 0 + token.length = n ∧ n < 2 ^ 31 ∧
      find expires recvBuf n = -1 := by
    rw [behindToken] at h
    cases hfirst : Search.find token recvBuf with
    | none =>
      rw [hfirst] at h
      exact ⟨16, by rw [find_of_none hfirst]; rfl, by decide, find_of_none h⟩
    | some n =>
      rw [hfirst] at h
      have hle := Search.find_add_length_le hfirst
      have htoken : find token recvBuf 0 = (0 + n : ℕ) := find_of_some hfirst (by omega)
      rw [Nat.zero_add] at htoken
      exact ⟨n + token.length, by rw [htoken, Int.natCast_add], by omega, find_of_none h⟩
  obtain ⟨n, hn, hsmall, hexpires⟩ := hexpires
  simp only [phaseRecvData, hn, sizeT_natCast hsmall, hexpires]
  rw [if_pos (by omega)]

/-- A C string that ends inside the array is no longer than the array. -/
theorem length_recvBuf {reply : Reply} (h : reply.Ends) : reply.recvBuf.length < 2 ^ 31 := by
  have hrecv : reply.recv.length ≤ recvSize := by
    rw [Reply.recv, List.length_take]
    exact le_trans (Nat.min_le_left _ _) reply.read_le
  have hle : reply.recvBuf.length ≤ reply.recv.length := by
    rw [Reply.recvBuf, CText.cStr]
    split
    · rw [List.append_nil]
      exact (List.takeWhile_prefix _).length_le
    · next hfull =>
      have hnul := h.resolve_left hfull
      rw [List.takeWhile_append, if_neg]
      · exact (List.takeWhile_prefix _).length_le
      · intro hall
        have heq := (List.takeWhile_prefix (· ≠ (0 : UInt8)) (l := reply.recv)).eq_of_length hall
        exact CText.cStr_eq_self_iff.mp heq hnul
  exact Nat.lt_of_le_of_lt (le_trans hle hrecv) (by decide)

theorem object_append_inj {T T' rest rest' : List UInt8} {N N' : ℕ} (hT : 34 ∉ T) (hT' : 34 ∉ T')
    (h : object T N ++ rest = object T' N' ++ rest') : T = T' ∧ N = N' := by
  simp only [object, List.append_assoc] at h
  obtain ⟨hsame, h⟩ := Search.append_mark_inj hT hT' (List.append_cancel_left h)
  have hlife := (Search.append_mark_inj (brace_notMem_digits N) (brace_notMem_digits N')
    (List.append_cancel_left h)).1
  refine ⟨hsame, Int.ofNat_inj.mp ?_⟩
  rw [← atoi_digits N, ← atoi_digits N', hlife]

/-- Where the mark of a token occurs once, the text contains that token with its life, and no other
one. -/
theorem contains_iff {front rest T T' : List UInt8} {N N' : ℕ} (hfront : 123 ∉ front) (hT : 34 ∉ T)
    (hpos : 0 < N) (honce : ¬token <:+: (object T N ++ rest).drop 1) :
    Contains (front ++ (object T N ++ rest)) T' N' ↔ T' = T ∧ N' = N := by
  constructor
  · rintro ⟨hT', -, front', rest', htext⟩
    rw [List.append_assoc] at htext
    rcases List.append_eq_append_iff.mp htext.symm with ⟨more, -, hobject⟩ | ⟨more, hmore, hobject⟩
    · cases more with
      | nil =>
        obtain ⟨rfl, rfl⟩ := object_append_inj hT hT' hobject
        exact ⟨rfl, rfl⟩
      | cons c more =>
        refine absurd ?_ honce
        rw [hobject]
        exact ⟨more, _, (List.append_assoc _ _ _).trans rfl⟩
    · cases more with
      | nil =>
        obtain ⟨rfl, rfl⟩ := object_append_inj hT' hT hobject
        exact ⟨rfl, rfl⟩
      | cons c more =>
        have hbrace : c = 123 := (List.cons.inj hobject).1.symm
        rw [hmore, hbrace] at hfront
        exact absurd (List.mem_append_right _ List.mem_cons_self) hfront
  · rintro ⟨rfl, rfl⟩
    exact ⟨hT, hpos, front, rest, List.append_assoc _ _ _⟩

section Run

variable {s s' : State} {push : Push} {reply : Reply} {T : List UInt8} {N now : ℕ}

theorem getReply_one (hends : reply.Ends) (h : reply.One T N) :
    s.getReply reply now =
      ({ s with
          strToken := if T = [] then s.strToken else sent T
          expires := UInt32.ofNat N
          timeTick := UInt32.ofNat now
          answers := ⟨reply.text, some (T, N)⟩ :: s.answers
          latest := some ⟨T, N, now⟩ }, sent T) := by
  obtain ⟨⟨front, rest, hbuf, hfirst⟩, hN, honly⟩ := h
  obtain ⟨hT, hpos, -⟩ := (honly T N).mpr ⟨rfl, rfl⟩
  have hread := phaseRecvData_object ⟨[], 0, reply.unset⟩ now hfirst hbuf (length_recvBuf hends)
    hT hpos hN
  have hlife : (UInt32.ofNat N).toNat = N :=
    UInt32.toNat_ofNat_of_lt' (lt_trans hN (by decide))
  simp only [State.getReply, hread]
  by_cases hnil : T = []
  · rw [if_pos hnil, if_pos hnil, hnil]
    simp only [if_true, hlife]
    rfl
  · rw [if_neg hnil, if_neg hnil]
    simp only [if_true, hlife]
    rfl

theorem getReply_refused (hends : reply.Ends) (h : reply.Refused) :
    s.getReply reply now =
      ({ s with
          expires := 0
          timeTick := reply.unset
          answers := ⟨reply.text, none⟩ :: s.answers }, []) := by
  simp only [State.getReply, phaseRecvData_refused (length_recvBuf hends) h.2]
  rfl

/-- Nothing is taken from a reply, and what is kept is the same or, when no token is valid,
nothing. -/
theorem TokensRight.keep (h : TokensRight s) (hlatest : s'.latest = s.latest)
    (hanswers : ∀ answer ∈ s'.answers, answer ∈ s.answers ∨
      answer.taken = none ∧ ∀ T N, ¬Contains answer.text T N)
    (hclock : s.clock ≤ s'.clock)
    (htoken : s'.strToken = s.strToken ∨ s'.strToken = [] ∧ s.NoneValid s'.clock) :
    TokensRight s' := by
  refine ⟨?_, ?_, ?_⟩
  · intro answer hanswer T N
    rcases hanswers answer hanswer with hold | ⟨hnone, hno⟩
    · exact h.taken answer hold T N
    · rw [hnone]
      refine ⟨?_, fun hyes => absurd hyes (hno T N)⟩
      intro hsome
      cases hsome
  · intro taken htaken hvalid
    rw [hlatest] at htaken
    rcases htoken with htoken | ⟨-, hnone⟩
    · rw [htoken]
      exact h.valid taken htaken (Nat.lt_of_le_of_lt hclock hvalid)
    · exact absurd hvalid (hnone taken htaken)
  · rw [hlatest]
    rcases htoken with htoken | ⟨htoken, -⟩
    · rw [htoken]
      exact h.only
    · exact .inl htoken

/-- The tokens stay right when the only one in a reply is taken and stored. -/
theorem TokensRight.take (h : TokensRight s) (hlatest : s'.latest = some ⟨T, N, now⟩)
    (hanswers : s'.answers = ⟨reply.text, some (T, N)⟩ :: s.answers)
    (honly : ∀ T' N', Contains reply.text T' N' ↔ T' = T ∧ N' = N)
    (htoken : s'.strToken = sent T) : TokensRight s' := by
  refine ⟨?_, ?_, ?_⟩
  · intro answer hanswer T' N'
    rw [hanswers] at hanswer
    rcases List.mem_cons.mp hanswer with rfl | hold
    · rw [honly, Option.some.injEq, Prod.mk.injEq]
      exact and_congr eq_comm eq_comm
    · exact h.taken answer hold T' N'
  · intro taken htaken _
    rw [hlatest] at htaken
    rw [← Option.some.inj htaken]
    exact htoken
  · exact .inr ⟨⟨T, N, now⟩, hlatest, htoken⟩

theorem TokensRight.step (h : TokensRight s) (hgood : Good s push) (hstep : step s push = some s') :
    TokensRight s' := by
  rw [CApushLocalSvr.step] at hstep
  split at hstep
  · next hclock =>
    obtain ⟨hnow, hlater⟩ := hclock
    rw [← Option.some.inj hstep, State.onAndroidPush, State.getToken]
    by_cases hfresh : s.Fresh push.now
    · -- the token that is kept is returned
      rw [if_pos hfresh, if_pos hfresh]
      exact h.keep rfl (fun _ => .inl) hnow (.inl rfl)
    · have hgood := hgood.resolve_left hfresh
      have hclock : s.clock ≤ push.later := le_trans hnow hlater
      rw [if_neg hfresh, if_neg hfresh]
      cases houtcome : push.outcome with
      | noClient => exact h.keep rfl (fun _ => .inl) hclock (.inl rfl)
      | failed =>
        rw [houtcome] at hgood
        exact h.keep rfl (fun _ => .inl) hclock (.inr ⟨rfl, hgood⟩)
      | reply reply =>
        rw [houtcome] at hgood
        obtain ⟨hends, ⟨T, N, hone⟩ | ⟨hrefused, hnone⟩⟩ := hgood
        · dsimp only
          rw [getReply_one hends hone]
          exact h.take rfl rfl hone.2.2 rfl
        · dsimp only
          rw [getReply_refused hends hrefused]
          refine h.keep rfl ?_ hclock (.inr ⟨rfl, hnone⟩)
          intro answer hanswer
          rcases List.mem_cons.mp hanswer with rfl | hold
          · exact .inr ⟨rfl, hrefused.1⟩
          · exact .inl hold
  · cases hstep

end Run

/-- In every run of pushes whose requests get a reply with one token, or come to nothing when no
token is valid, each token is taken from the reply that it is in, and each push gets the latest one
as long as it is valid. -/
theorem tokens_right {s : State} (h : Run.Reaches step Good {} s) : TokensRight s := by
  refine h.invariant TokensRight ?_ fun _ _ _ hright hgood hstep => hright.step hgood hstep
  refine ⟨?_, ?_, .inl rfl⟩
  · intro _ hanswer
    exact absurd hanswer List.not_mem_nil
  · intro _ htaken
    exact absurd htaken (Option.not_mem_none _)

/-- A reply with a head and a token, which has a backslash in it. -/
def shortReply : Reply where
  text := CText.bytes "HTTP/1.1 200 OK\r\n\r\n" ++ object (CText.bytes "a\\/b") 600
  read := recvSize
  behind := []
  unset := 0
  read_pos := by decide
  read_le := le_rfl

/-- The token is asked for and taken. -/
def firstPush : Push := ⟨100, .reply shortReply, 101⟩

theorem shortReply_one : shortReply.One (CText.bytes "a\\/b") 600 := by
  refine ⟨⟨CText.bytes "HTTP/1.1 200 OK\r\n\r\n", [], by decide, by decide⟩, by decide, ?_⟩
  intro T' N'
  have htext : shortReply.text =
      CText.bytes "HTTP/1.1 200 OK\r\n\r\n" ++ (object (CText.bytes "a\\/b") 600 ++ []) := by
    decide
  rw [htext]
  exact contains_iff (by decide) (by decide) (by decide)
    (Search.not_infix_of_find_eq_none (by decide))

/-- After a token was taken, it is returned without any request. -/
theorem tokens_right_fresh :
    TokensRight ((State.onAndroidPush {} firstPush).onAndroidPush ⟨200, .failed, 200⟩) := by
  have hgood : Good {} firstPush := .inr ⟨.inl (by decide), .inl ⟨_, _, shortReply_one⟩⟩
  have hfresh : Good (State.onAndroidPush {} firstPush) ⟨200, .failed, 200⟩ := .inl (by decide)
  exact tokens_right (.next (.next .refl hgood rfl) hfresh rfl)

/-- When half of its life is over, a request that fails clears a token that is valid. -/
theorem not_tokens_right :
    ¬∀ (pushes : List Push) (s : State), Run.run step {} pushes = some s → TokensRight s := by
  intro h
  have hright := h [firstPush, ⟨500, .failed, 500⟩] _ rfl
  have htoken := hright.valid ⟨CText.bytes "a\\/b", 600, 101⟩ (by decide)
    (show 500 < 701 by decide)
  exact absurd htoken (by decide)

end CApushLocalSvr

end ImServer
