import ImServer.IPush.JwkEncode
import ImServer.IPush.PostData

/-!
# The provider token

`CHead::SetAuthorization` (ipush/protohandle.cpp) keeps the token for half an hour. The time stamp is
written before the token is built, and an answer 403 sets it to zero (ipush/ssl_http2.cpp). A token
is the text `bearer` with the base64url texts of a header, of the claims and of the signature.

The calls and the answers come one after another.
-/

namespace ImServer

open JwkEncode

/-- The configured ids that stand in a token: that of the key and that of the team. -/
structure Provider where
  kid : List UInt8
  iss : List UInt8
  deriving DecidableEq, Repr

namespace Provider

variable (provider : Provider)

/-- `JWT_HEAD` with the id of the key. -/
def head : List UInt8 :=
  CText.bytes "\x7b \"alg\": \"ES256\", \"kid\": \"" ++ CText.cStr provider.kid ++
    CText.bytes "\" \x7d"

/-- `JWT_CLAIMS` with the id of the team and the time, which is printed as an `int`. -/
def claims (tm : ℤ) : List UInt8 :=
  CText.bytes "\x7b \"iss\": \"" ++ CText.cStr provider.iss ++ CText.bytes "\", \"iat\": " ++
    CText.bytes (toString (tm.bmod (2 ^ 32))) ++ CText.bytes " \x7d"

end Provider

/-- What a call of `SetAuthorization` meets: the time, whether there is a key, whether there is
memory for each of the texts, what an undefined size gives, and the result of `jwt_encode_str`. -/
structure AuthCall where
  tm : ℤ
  key : Bool
  allocBase : Bool
  allocClaims : Bool
  allocSigned : Bool
  undef : List UInt8
  signed : List UInt8
  returned : ∃ attempts fuel, jwtEncodeStr attempts fuel 0 = some signed

namespace Authorization

/-- `u16AUTHJWTLEN`. -/
def authJwtLen : ℕ := 512

def bearer : List UInt8 := CText.bytes "bearer "

/-- The part of `SetAuthorization` that builds the token. There is none if one of its steps
fails. -/
def buildToken (provider : Provider) (c : AuthCall) : Option (List UInt8) :=
  if ¬c.key then none
  else
    let sBase := jwtBase64must c.allocBase c.undef provider.head
    if sBase = [] then none
    else
      let strClaims := jwtBase64must c.allocClaims c.undef (provider.claims c.tm)
      if strClaims = [] then none
      else
        let sBase := sBase ++ 0x2e :: strClaims
        if c.signed = [] then none
        else
          let sSignedBase := jwtBase64must c.allocSigned c.undef c.signed
          if sSignedBase = [] then none
          -- the twelve characters of `HEAD_BEARER_S`
          else if authJwtLen < sBase.length + sSignedBase.length + 12 then none
          else some (bearer ++ CText.cStr sBase ++ 0x2e :: CText.cStr sSignedBase)

/-- The call does not return with the token that is there, which is missing or too old. -/
def Attempts (s : Authorization) (c : AuthCall) : Prop := ¬s.holds c.tm

instance decidableAttempts (s : Authorization) (c : AuthCall) : Decidable (s.Attempts c) :=
  inferInstanceAs (Decidable (¬_))

def setAuthorization (provider : Provider) (s : Authorization) (c : AuthCall) :
    Bool × Authorization :=
  if s.Attempts c then
    match buildToken provider c with
    | none => (false, { s with timestampSecAuth := c.tm })
    | some token => (true, { timestampSecAuth := c.tm, sAuthorization := token })
  else (true, s)

theorem set_eq_setAuthorization {provider : Provider} {s : Authorization} {c : AuthCall}
    {config : PushConfig} (h : config.authorization c.tm = buildToken provider c) :
    s.set config c.tm = s.setAuthorization provider c := by
  rw [set, setAuthorization, h]
  by_cases hattempts : s.Attempts c
  · exact (if_neg hattempts).trans (if_pos hattempts).symm
  · rw [if_pos (not_not.mp hattempts), if_neg hattempts]

/-- What a token is to be: the header, the claims and the raw signature, each in the code for URLs
and without padding. -/
def exactToken (provider : Provider) (tm : ℤ) (r s : ℕ) : List UInt8 :=
  bearer ++ Base64url.encode provider.head ++ 0x2e :: Base64url.encode (provider.claims tm) ++
    0x2e :: Base64url.encode (rawBuf r s)

section Token

variable {provider : Provider} {c : AuthCall} {token : List UInt8}

theorem buildToken_eq_some (h : buildToken provider c = some token) :
    ∃ front bytes : List UInt8, bytes.length = 65 ∧
      token = front ++ 0x2e :: Base64url.encode bytes := by
  rw [buildToken] at h
  split at h
  · cases h
  simp only at h
  split at h
  · cases h
  split at h
  · cases h
  split at h
  · cases h
  next hsigned =>
  split at h
  · cases h
  next hbase =>
  split at h
  · cases h
  cases h
  obtain ⟨attempts, fuel, hreturned⟩ := c.returned
  obtain ⟨hlength, hnul⟩ := (jwtEncodeStr_eq_some hreturned).resolve_left hsigned
  have htext : CText.cStr c.signed = c.signed := CText.cStr_eq_self_iff.mpr hnul
  have hmod : ((CText.cStr c.signed).length : ℤ).bmod (2 ^ 32) = (65 : ℕ) := by
    rw [htext, hlength]
    rfl
  have hsize : SizeFits ((65 : ℕ) : ℤ) := by decide
  have hread : mustRead c.signed = c.signed := by
    rw [mustRead, hmod, htext, Int.toNat_natCast, ← hlength, List.take_length]
  have halloc : c.allocSigned = true := by
    by_contra hnot
    have hnone : jwkBase64Encode c.allocSigned (CText.cStr c.signed) (65 : ℕ) = none :=
      if_neg fun hand => hnot hand.1
    refine hbase ?_
    rw [jwtBase64must]
    simp only [hmod, if_pos hsize, hnone]
  rw [halloc, cStr_jwtBase64must _ (hmod ▸ hsize) (hmod ▸ codeSize_natCast_nonneg 65), hread]
  exact ⟨_, _, hlength, rfl⟩

/-- Two texts that end in parts without a dot have the same parts. -/
theorem eq_of_append_dot {front front' part part' : List UInt8} (hpart : 0x2e ∉ part)
    (hpart' : 0x2e ∉ part') (h : front ++ 0x2e :: part = front' ++ 0x2e :: part') : part = part' := by
  have hlast : ∀ {front part : List UInt8}, 0x2e ∉ part →
      (front ++ 0x2e :: part).reverse.takeWhile (· ≠ 0x2e) = part.reverse := by
    intro front part hpart
    have hall : ∀ c ∈ part.reverse, decide (c ≠ (0x2e : UInt8)) = true := fun c hc =>
      decide_eq_true fun hdot => hpart (hdot ▸ List.mem_reverse.mp hc)
    rw [List.reverse_append, List.reverse_cons, List.append_assoc,
      List.takeWhile_append_of_pos hall]
    simp
  have hends := congrArg (fun text => text.reverse.takeWhile (· ≠ (0x2e : UInt8))) h
  simp only [hlast hpart, hlast hpart'] at hends
  exact List.reverse_injective hends

/-- No token has the digits of the 64 bytes of a signature. -/
theorem buildToken_ne_exactToken (h : buildToken provider c = some token) (r s : Fin (2 ^ 256)) :
    token ≠ exactToken provider c.tm r s := by
  obtain ⟨front, bytes, hlength, rfl⟩ := buildToken_eq_some h
  intro hexact
  have hpart := eq_of_append_dot (Base64url.not_mem_encode (by decide) (by decide))
    (Base64url.not_mem_encode (by decide) (by decide)) hexact
  have hlengths := congrArg List.length hpart
  rw [Base64url.length_encode, Base64url.length_encode, hlength, length_rawBuf] at hlengths
  exact absurd hlengths (by decide)

end Token

/-- `jwt_base64must` is exact for whole threes of bytes, `jwt_encode_str` returns if an attempt has
no zero among its bytes and one byte behind them, and no token is the right text. -/
theorem provider_token_iff (src : List UInt8) (attempts : ℕ → SignAttempt) (provider : Provider)
    (c : AuthCall) :
    ((∀ undef, jwtBase64must true undef src = Base64url.encode src) ↔
      0 ∉ src ∧ src.length % 3 = 0 ∧ 4 * ((src.length + 2) / 3) + 1 < 2 ^ 31) ∧
    ((∃ fuel, (jwtEncodeStr attempts fuel 0).isSome) ↔
      ∃ n, attempts n = .noFile ∨ ∃ r s after, attempts n = .signed r s after ∧ 0 ∉ rawBuf r s ∧
        (CText.cStr after).length = 1) ∧
    ∀ token, buildToken provider c = some token →
      ∀ r s : Fin (2 ^ 256), token ≠ exactToken provider c.tm r s :=
  ⟨jwtBase64must_iff src, jwtEncodeStr_returns_iff attempts, fun _ => buildToken_ne_exactToken⟩

/-- One byte has padding. -/
theorem not_provider_token :
    ¬((∀ src undef, jwtBase64must true undef src = Base64url.encode src) ∧
      (∀ attempts, ∃ fuel, (jwtEncodeStr attempts fuel 0).isSome) ∧
      ∀ provider c token, buildToken provider c = some token →
        ∃ r s : Fin (2 ^ 256), token = exactToken provider c.tm r s) := by
  rintro ⟨h, -, -⟩
  exact absurd (congrArg List.length (h [1] [])) (by decide +kernel)

/-- A number whose bytes are all 1. -/
def ones : Fin (2 ^ 256) := ⟨Nat.ofDigits 256 (List.replicate 32 1), by decide +kernel⟩

theorem jwtEncodeStr_ones :
    ∃ attempts fuel, jwtEncodeStr attempts fuel 0 = some (List.replicate 65 1) :=
  ⟨fun _ => .signed ones ones [1], 1, by decide +kernel⟩

-- with such a signature a token is built, for the ids in the source
example : (buildToken ⟨CText.bytes "594632QH7J", CText.bytes "PF9HQJWL24"⟩
    { tm := 1437179036, key := true, allocBase := true, allocClaims := true, allocSigned := true,
      undef := [], signed := List.replicate 65 1, returned := jwtEncodeStr_ones }).isSome := by
  decide +kernel

/-- Another thing that happens to the time stamp is an answer 403. -/
inductive Event where
  | call (c : AuthCall)
  | forbidden

def step (provider : Provider) (s : Authorization) : Event → Authorization
  | .call c => (s.setAuthorization provider c).2
  | .forbidden => { s with timestampSecAuth := 0 }

def run (provider : Provider) (es : List Event) : Authorization := es.foldl (step provider) {}

/-- The call `c` behind `past` does not return true, or the token that is stored then was built less
than 1800 seconds before, at this call or at one of `past`. -/
def Fresh (provider : Provider) (past : List Event) (c : AuthCall) : Prop :=
  ((run provider past).setAuthorization provider c).1 = true →
    ∃ before c' after, past ++ [.call c] = before ++ .call c' :: after ∧
      (run provider before).Attempts c' ∧
      buildToken provider c' =
        some ((run provider past).setAuthorization provider c).2.sAuthorization ∧
      c.tm - c'.tm < 1800

/-- The calls `c'` and `c` follow one another in a run, with the answers `mid` in between. -/
def Next (es before mid : List Event) (c' c : AuthCall) : Prop :=
  (∃ rest, es = before ++ .call c' :: mid ++ .call c :: rest) ∧ ∀ e ∈ mid, e = .forbidden

/-- What is asked of a run: a token that a call returns was built less than half an hour before, and
behind a failed call the next one makes an attempt. -/
structure Lawful (provider : Provider) (es : List Event) : Prop where
  fresh : ∀ past c rest, es = past ++ .call c :: rest → Fresh provider past c
  again : ∀ before mid c' c, Next es before mid c' c →
    ((run provider before).setAuthorization provider c').1 = false →
      (run provider (before ++ .call c' :: mid)).Attempts c

/-- Behind an attempt that builds no token there is an answer 403 or half an hour before the next
call. -/
def Spaced (provider : Provider) (es : List Event) : Prop :=
  ∀ before mid c' c, Next es before mid c' c →
    (run provider before).Attempts c' → buildToken provider c' = none →
      mid ≠ [] ∨ c'.tm = 0 ∨ 1800 ≤ c.tm - c'.tm

section Runs

variable {provider : Provider} {s : Authorization} {c : AuthCall} {es past : List Event}

theorem run_append (es es' : List Event) :
    run provider (es ++ es') = es'.foldl (step provider) (run provider es) := List.foldl_append

theorem run_concat (es : List Event) (e : Event) :
    run provider (es ++ [e]) = step provider (run provider es) e := run_append es [e]

theorem setAuthorization_of_attempts (h : s.Attempts c) {token : List UInt8}
    (htoken : buildToken provider c = some token) :
    s.setAuthorization provider c =
      (true, { timestampSecAuth := c.tm, sAuthorization := token }) := by
  rw [setAuthorization, if_pos h, htoken]

theorem setAuthorization_of_none (h : s.Attempts c) (hnone : buildToken provider c = none) :
    s.setAuthorization provider c = (false, { s with timestampSecAuth := c.tm }) := by
  rw [setAuthorization, if_pos h, hnone]

theorem setAuthorization_of_not (h : ¬s.Attempts c) :
    s.setAuthorization provider c = (true, s) := if_neg h

theorem setAuthorization_eq_false_iff :
    (s.setAuthorization provider c).1 = false ↔ s.Attempts c ∧ buildToken provider c = none := by
  by_cases h : s.Attempts c
  · cases htoken : buildToken provider c with
    | none => simp [setAuthorization_of_none h htoken, h]
    | some token => simp [setAuthorization_of_attempts h htoken]
  · simp [setAuthorization_of_not h, h]

theorem Spaced.of_append {es' : List Event} (h : Spaced provider (es ++ es')) :
    Spaced provider es := by
  rintro before mid c' c ⟨⟨rest, rfl⟩, hmid⟩
  exact h before mid c' c ⟨⟨rest ++ es', by simp⟩, hmid⟩

/-- Behind the failed call the stamp is the one of the call, or zero. -/
theorem timestamp_of_fails {before mid : List Event} {c' : AuthCall}
    (hmid : ∀ e ∈ mid, e = .forbidden) (hattempts : (run provider before).Attempts c')
    (hnone : buildToken provider c' = none) :
    (run provider (before ++ Event.call c' :: mid)).timestampSecAuth = if mid = [] then c'.tm else 0 := by
  induction mid using List.reverseRecOn with
  | nil =>
    rw [run_concat, step, setAuthorization_of_none hattempts hnone]
    rfl
  | append_singleton mid e ih =>
    obtain rfl := hmid e (List.mem_append_right _ List.mem_cons_self)
    have hassoc : before ++ Event.call c' :: (mid ++ [Event.forbidden]) =
        (before ++ Event.call c' :: mid) ++ [Event.forbidden] := by simp
    rw [hassoc, run_concat]
    simp [step]

/-- A next call is an attempt if the run is spaced there. -/
theorem again_iff {before mid : List Event} {c' : AuthCall} (hmid : ∀ e ∈ mid, e = .forbidden)
    (hattempts : (run provider before).Attempts c') (hnone : buildToken provider c' = none) :
    (run provider (before ++ .call c' :: mid)).Attempts c ↔
      mid ≠ [] ∨ c'.tm = 0 ∨ 1800 ≤ c.tm - c'.tm := by
  rw [Attempts, holds, timestamp_of_fails hmid hattempts hnone]
  by_cases hnil : mid = []
  · simp only [hnil, if_true, ne_eq, not_true_eq_false, false_or]
    omega
  · simp [hnil]

/-- The time stamp is the one of the last attempt. If it is not zero, the attempt has stored its
token, or it has failed and nothing has come after it. -/
def Stamped (provider : Provider) (past : List Event) : Prop :=
  (run provider past).timestampSecAuth ≠ 0 →
    ∃ before c' after, past = before ++ .call c' :: after ∧ (run provider before).Attempts c' ∧
      c'.tm = (run provider past).timestampSecAuth ∧
      (buildToken provider c' = some (run provider past).sAuthorization ∨
        (buildToken provider c' = none ∧ after = []))

theorem Stamped.call (h : Stamped provider past) (hspaced : Spaced provider (past ++ [Event.call c])) :
    Stamped provider (past ++ [Event.call c]) := by
  rw [Stamped, run_concat, step]
  by_cases hattempts : (run provider past).Attempts c
  · intro _
    cases htoken : buildToken provider c with
    | none =>
      refine ⟨past, c, [], rfl, hattempts, ?_, .inr ⟨htoken, rfl⟩⟩
      rw [setAuthorization_of_none hattempts htoken]
    | some token =>
      refine ⟨past, c, [], rfl, hattempts, ?_, .inl ?_⟩
      · rw [setAuthorization_of_attempts hattempts htoken]
      · rw [setAuthorization_of_attempts hattempts htoken, htoken]
  · rw [setAuthorization_of_not hattempts]
    intro hstamp
    obtain ⟨before, c', after, hpast, hattempts', htm, htoken | ⟨hnone, hafter⟩⟩ := h hstamp
    · exact ⟨before, c', after ++ [Event.call c], by simp [hpast], hattempts', htm, .inl htoken⟩
    · subst hafter
      have hgood := hspaced before [] c' c ⟨⟨[], by simp [hpast]⟩, by simp⟩ hattempts' hnone
      rw [hpast] at hattempts
      exact absurd ((again_iff (by simp) hattempts' hnone).mpr hgood) hattempts

theorem Stamped.of_spaced (h : Spaced provider past) : Stamped provider past := by
  induction past using List.reverseRecOn with
  | nil => exact fun hstamp => absurd rfl hstamp
  | append_singleton past e ih =>
    cases e with
    | call c => exact (ih h.of_append).call h
    | forbidden =>
      intro hstamp
      rw [run_concat] at hstamp
      exact absurd rfl hstamp

/-- In a spaced run every call that returns true has a fresh token. -/
theorem fresh_of_spaced (h : Spaced provider (past ++ [Event.call c])) : Fresh provider past c := by
  intro htrue
  by_cases hattempts : (run provider past).Attempts c
  · cases htoken : buildToken provider c with
    | none => simp [setAuthorization_of_none hattempts htoken] at htrue
    | some token =>
      refine ⟨past, c, [], rfl, hattempts, ?_, by omega⟩
      rw [setAuthorization_of_attempts hattempts htoken, htoken]
  · obtain ⟨hrecent, hstamp⟩ := not_not.mp hattempts
    obtain ⟨before, c', after, hpast, hattempts', htm, htoken | ⟨hnone, hafter⟩⟩ :=
      Stamped.of_spaced h.of_append hstamp
    · refine ⟨before, c', after ++ [Event.call c], by simp [hpast], hattempts', ?_, htm ▸ hrecent⟩
      rw [setAuthorization_of_not hattempts]
      exact htoken
    · subst hafter
      have hgood := h before [] c' c ⟨⟨[], by simp [hpast]⟩, by simp⟩ hattempts' hnone
      rw [hpast] at hattempts
      exact absurd ((again_iff (by simp) hattempts' hnone).mpr hgood) hattempts

end Runs

/-- A run keeps the law if no call comes too soon behind one that fails. -/
theorem provider_token_fresh_iff (provider : Provider) (es : List Event) :
    Lawful provider es ↔ Spaced provider es := by
  constructor
  · intro h before mid c' c hnext hattempts hnone
    have hfails := setAuthorization_eq_false_iff.mpr ⟨hattempts, hnone⟩
    exact (again_iff hnext.2 hattempts hnone).mp (h.again before mid c' c hnext hfails)
  · intro h
    refine ⟨fun past c rest hes => ?_, fun before mid c' c hnext hfails => ?_⟩
    · have hsplit : es = past ++ [Event.call c] ++ rest := by simp [hes]
      exact fresh_of_spaced (hsplit ▸ h).of_append
    · obtain ⟨hattempts, hnone⟩ := setAuthorization_eq_false_iff.mp hfails
      exact (again_iff hnext.2 hattempts hnone).mpr (h before mid c' c hnext hattempts hnone)

/-- A call that finds no file with the key. -/
def withoutFile (tm : ℤ) : AuthCall where
  tm
  key := true
  allocBase := true
  allocClaims := true
  allocSigned := true
  undef := []
  signed := []
  returned := ⟨fun _ => .noFile, 1, rfl⟩

theorem buildToken_withoutFile (provider : Provider) (tm : ℤ) :
    buildToken provider (withoutFile tm) = none := by
  rw [buildToken]
  split
  · rfl
  simp only [withoutFile, if_true, ite_self]

/-- The second call returns true, and there is no token. -/
theorem not_provider_token_fresh :
    ¬∀ (provider : Provider) (es : List Event), Lawful provider es := by
  intro h
  have hnone := buildToken_withoutFile ⟨[], []⟩ 1
  have hfirst : run ⟨[], []⟩ [.call (withoutFile 1)] = { timestampSecAuth := 1 } :=
    congrArg Prod.snd (setAuthorization_of_none (s := {}) (by decide) hnone)
  have hagain := (h ⟨[], []⟩ [.call (withoutFile 1), .call (withoutFile 2)]).again [] []
    (withoutFile 1) (withoutFile 2) ⟨⟨[], rfl⟩, by simp⟩
    (setAuthorization_eq_false_iff.mpr ⟨by decide, hnone⟩)
  rw [List.nil_append, hfirst] at hagain
  exact absurd hagain (by decide)

end Authorization

end ImServer
