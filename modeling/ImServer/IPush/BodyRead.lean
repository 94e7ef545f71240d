import ImServer.IPush.PostData
import Mathlib.Data.PNat.Basic

/-!
# Reading the body of a request

`Submit_request` and `_On_Body_read_callback` (ipush/ssl_http2.cpp). The HTTP/2 library asks for the
body of a request piece by piece: it offers a buffer, is told how much was put into it, and comes
again with another buffer until it is told that this was the end.

The callback looks at neither the length of the buffer nor a position. It copies the whole body into
the first buffer, whatever its length, and frees what it has been called with.
-/

namespace ImServer

namespace CHttp2Socket

structure BodyCallBackData where
  body : List UInt8
  len : ℤ
  deriving DecidableEq, Repr

/-- `char bodyLen[10]`. -/
def bodyLenSize : ℕ := 10

/-- `Submit_request`, up to the call of the library. The length is an `int`, and is printed into an
array. -/
def submitRequest (data : CApnsPostData) : Option BodyCallBackData :=
  let len := (data.bodyLen : ℤ).bmod (2 ^ 32)
  if (CText.bytes (toString len)).length < bodyLenSize then some { body := data.body, len }
  else none

/-- A call of the callback: the length of the buffer, the bytes that were copied into it and the
flag, and what was returned. -/
structure BodyRead where
  length : ℕ
  copied : List UInt8
  eof : Bool
  iRet : ℤ
  deriving DecidableEq, Repr

/-- `_On_Body_read_callback`. What it has been called with is freed, and with that, or with a
negative length, it has no defined behaviour. -/
def onBodyRead (source : Option BodyCallBackData) (length : ℕ) :
    Option (BodyRead × Option BodyCallBackData) :=
  match source with
  | none => none
  | some data =>
    if data.len < 0 then none
    else some (⟨length, data.body.take data.len.toNat, true, data.len⟩, none)

/-- The library calls with one buffer after another, until it is told that this was the end. -/
inductive Reads : Option BodyCallBackData → (ℕ → ℕ+) → List BodyRead → Prop where
  | last {source source' : Option BodyCallBackData} {offers : ℕ → ℕ+} {read : BodyRead}
      (h : onBodyRead source (offers 0) = some (read, source')) (heof : read.eof = true) :
      Reads source offers [read]
  | more {source source' : Option BodyCallBackData} {offers : ℕ → ℕ+} {read : BodyRead}
      {reads : List BodyRead} (h : onBodyRead source (offers 0) = some (read, source'))
      (heof : read.eof = false) (hrest : Reads source' (fun n => offers (n + 1)) reads) :
      Reads source offers (read :: reads)

/-- Each call stays within its buffer, the pieces are the payload, and the last one is the end. -/
structure Delivered (payload : List UInt8) (reads : List BodyRead) : Prop where
  inside : ∀ read ∈ reads, read.copied.length ≤ read.length ∧ read.iRet ≤ read.length
  joined : reads.flatMap (fun read => read.copied.take read.iRet.toNat) = payload
  flag : ∃ before last, reads = before ++ [last] ∧ last.eof = true ∧
    ∀ read ∈ before, read.eof = false

/-- The body of a request is delivered, whatever is offered. -/
def BodyDelivered (data : CApnsPostData) (offers : ℕ → ℕ+) : Prop :=
  ∃ source reads, submitRequest data = some source ∧ Reads (some source) offers reads ∧
    Delivered data.body reads

/-- The body fits the first buffer that is offered, and its length the array in which it is
printed. -/
def Fits (data : CApnsPostData) (offers : ℕ → ℕ+) : Prop :=
  data.body.length < 10 ^ 9 ∧ data.body.length ≤ offers 0

section Request

variable {data : CApnsPostData} {source : BodyCallBackData} {offers : ℕ → ℕ+}
  {reads : List BodyRead}

theorem reads_iff :
    Reads (some source) offers reads ↔ 0 ≤ source.len ∧
      reads = [⟨offers 0, source.body.take source.len.toNat, true, source.len⟩] := by
  constructor
  · intro h
    cases h with
    | last h heof =>
      rw [onBodyRead] at h
      split at h
      · cases h
      · next hlen =>
        cases h
        exact ⟨Int.not_lt.mp hlen, rfl⟩
    | more h heof hrest =>
      rw [onBodyRead] at h
      split at h
      · cases h
      · cases h
        cases heof
  · rintro ⟨hlen, rfl⟩
    have hread : onBodyRead (some source) (offers 0) =
        some (⟨offers 0, source.body.take source.len.toNat, true, source.len⟩, none) := by
      rw [onBodyRead, if_neg (Int.not_lt.mpr hlen)]
    exact .last hread rfl

theorem delivered_iff (hlen : 0 ≤ source.len) (payload : List UInt8) :
    Delivered payload [⟨offers 0, source.body.take source.len.toNat, true, source.len⟩] ↔
      source.len ≤ offers 0 ∧ source.body.take source.len.toNat = payload := by
  constructor
  · intro h
    have hjoined := h.joined
    rw [List.flatMap_singleton, List.take_take, Nat.min_self] at hjoined
    exact ⟨(h.inside _ List.mem_cons_self).2, hjoined⟩
  · rintro ⟨hfits, hjoined⟩
    refine ⟨?_, ?_, [], _, rfl, rfl, List.forall_mem_nil _⟩
    · intro read hread
      rw [List.mem_singleton.mp hread]
      have hcopied := List.length_take_le source.len.toNat source.body
      refine ⟨?_, hfits⟩
      show (source.body.take source.len.toNat).length ≤ (offers 0 : ℕ)
      omega
    · rw [List.flatMap_singleton, List.take_take, Nat.min_self]
      exact hjoined

/-- The decimal text of a number below `10 ^ 9` fits the array. -/
theorem length_decimal_lt_iff (n : ℕ) :
    (CText.bytes (toString (n : ℤ))).length < bodyLenSize ↔ n < 10 ^ 9 := by
  have htext : toString (n : ℤ) = toString n := rfl
  rw [htext, CText.length_bytes_toString]
  exact Nat.lt_succ_iff.trans (Nat.length_toDigits_le_iff (by decide) (by decide))

/-- A body whose length is known is delivered exactly if it fits. -/
theorem bodyDelivered_iff (hdata : data.bodyLen = data.body.length) :
    BodyDelivered data offers ↔ Fits data offers := by
  have hsmall (h : data.body.length < 2 ^ 31) :
      (data.bodyLen : ℤ).bmod (2 ^ 32) = data.body.length := by
    rw [hdata, Int.bmod_def]
    omega
  constructor
  · rintro ⟨source, reads, hsubmit, hreads, hdelivered⟩
    rw [submitRequest] at hsubmit
    split at hsubmit
    · next hdigits =>
      cases hsubmit
      obtain ⟨hlen, rfl⟩ := reads_iff.mp hreads
      obtain ⟨hfits, hjoined⟩ := (delivered_iff hlen _).mp hdelivered
      dsimp only at hfits hjoined hlen
      have hwhole : data.body.length ≤ ((data.bodyLen : ℤ).bmod (2 ^ 32)).toNat := by
        rw [← hjoined]
        exact List.length_take_le _ _
      have hint : (data.bodyLen : ℤ).bmod (2 ^ 32) < (2 ^ 32 + 1) / 2 :=
        Int.bmod_lt (by decide)
      rw [hsmall (by omega)] at hdigits hfits
      exact ⟨(length_decimal_lt_iff _).mp hdigits, Int.ofNat_le.mp hfits⟩
    · cases hsubmit
  · rintro ⟨hshort, hfits⟩
    have hlen := hsmall (by omega)
    refine ⟨⟨data.body, data.body.length⟩, _, ?_, reads_iff.mpr ⟨Int.natCast_nonneg _, rfl⟩, ?_⟩
    · rw [submitRequest, hlen]
      exact if_pos ((length_decimal_lt_iff _).mpr hshort)
    · exact (delivered_iff (Int.natCast_nonneg _) _).mpr
        ⟨Int.ofNat_le.mpr hfits, List.take_length⟩

end Request

section Messages

variable (g : PostDataGenerator) (config : PushConfig) (env : PostEnv) (msg : PSvrMsg)
  (client : PushClientType) (offers : ℕ → ℕ+)

/-- The payload that is built from a message is delivered: every byte, and no other one. -/
def PayloadDelivered : Prop :=
  ∀ data, (g.generate config env msg client).1 = .data data → BodyDelivered data offers

/-- The payload that is built from a message fits the first buffer, and its length the array. -/
def PayloadFits : Prop :=
  ∀ data, (g.generate config env msg client).1 = .data data → Fits data offers

theorem bodyLen_generate {data : CApnsPostData}
    (h : (g.generate config env msg client).1 = .data data) : data.bodyLen = data.body.length := by
  have hmade : ∃ nva json, data = .make nva msg json := by
    cases client with
    | voipHttp2 =>
      rw [PostDataGenerator.generate, PostDataGenerator.generateVoipHttp2PostData] at h
      dsimp only at h
      split at h
      · cases h
      · cases h
      · split at h
        · cases h
        · cases h
        · cases h
          exact ⟨_, _, rfl⟩
    | apns =>
      rw [PostDataGenerator.generate, PostDataGenerator.generateApnsPostData] at h
      dsimp only at h
      split at h
      · cases h
      · cases h
      · split at h
        · cases h
        · split at h
          · cases h
          · cases h
          · cases h
            exact ⟨_, _, rfl⟩
  obtain ⟨nva, json, rfl⟩ := hmade
  rw [CApnsPostData.body_make]
  rfl

/-- A payload is delivered exactly if it fits the first buffer. -/
theorem payload_delivered_iff :
    PayloadDelivered g config env msg client offers ↔ PayloadFits g config env msg client offers :=
  forall₂_congr fun _ hdata => bodyDelivered_iff (bodyLen_generate g config env msg client hdata)

end Messages

/-- Buffers of one byte are offered for a short message. -/
theorem not_payload_delivered :
    ¬ ∀ (g : PostDataGenerator) (config : PushConfig) (env : PostEnv) (msg : PSvrMsg)
      (client : PushClientType) (offers : ℕ → ℕ+),
      PayloadDelivered g config env msg client offers := by
  intro h
  have hdata : ∃ data, (({} : PostDataGenerator).generate PostDataGenerator.kimi ⟨1800, 0, []⟩
      (PostDataGenerator.pushTo (List.replicate 64 97) [49]) .voipHttp2).1 = .data data ∧
      ∃ a b rest, data.body = a :: b :: rest := ⟨_, rfl, _, _, _, rfl⟩
  obtain ⟨data, hgenerate, a, b, rest, hbody⟩ := hdata
  have hdelivered := h {} PostDataGenerator.kimi ⟨1800, 0, []⟩
    (PostDataGenerator.pushTo (List.replicate 64 97) [49]) .voipHttp2 (fun _ => 1) data hgenerate
  have hlen := bodyLen_generate _ _ _ _ _ hgenerate
  have hfits : data.body.length ≤ 1 := ((bodyDelivered_iff hlen).mp hdelivered).2
  rw [hbody, List.length_cons, List.length_cons] at hfits
  omega

end CHttp2Socket

end ImServer
