import ImServer.Lib.Run
import Mathlib.Algebra.Order.Ring.Nat
import Mathlib.Data.List.Nodup
import Mathlib.Logic.Function.Basic

/-!
# The batches of the Android push

The thread of a `CHttpClient` (apush/http_client.cpp) collects up to 32 requests and transmits them
together, when the queue has run empty or when the batch is full. A request without an answer is put
back into the queue. There are two copies of this loop, and only the one for batches that are not
full looks at how often the request has been put in.

The operations on the queue are critical sections of one mutex, so each of them is one step. The
thread finds the queue empty in one of them and begins to wait in another one.
-/

namespace ImServer

def curlMultiNum : ℕ := 32

def maxRetryTimes : ℕ := 3

/-- What the server sends back; no answer is the empty text. -/
abbrev HttpReply : Type := List UInt8

/-- `ρ` are the requests, each of which is an object of its own. -/
structure HttpBatch (ρ : Type) where
  httpReqList : List ρ := []
  reSendTimes : ρ → ℕ := fun _ => 0
  nCount : ℕ := 0
  strRspData : ℕ → HttpReply := fun _ => []
  reqDataCach : List ρ := []
  /-- The handles: the request, and the buffer that its answer is written to. -/
  listCurl : List (ρ × ℕ) := []

namespace HttpBatch

variable {ρ : Type} [DecidableEq ρ] (b : HttpBatch ρ)

def addHttpData (req : ρ) : HttpBatch ρ :=
  { b with
    reSendTimes := Function.update b.reSendTimes req (b.reSendTimes req + 1)
    httpReqList := b.httpReqList ++ [req] }

/-- A request joins the batch. `handle` says whether `curl_easy_init` gives a handle for it. -/
def addMultiCurl (req : ρ) (handle : Bool) : HttpBatch ρ :=
  { b with
    strRspData := Function.update b.strRspData b.nCount []
    listCurl := if handle then b.listCurl ++ [(req, b.nCount)] else b.listCurl
    reqDataCach := b.reqDataCach ++ [req]
    nCount := b.nCount + 1 }

/-- `OnWriteData` for all handles. The bytes of an answer go behind what the buffer of its handle
already has. -/
def writeData (answers : ρ → HttpReply) (handles : List (ρ × ℕ)) (data : ℕ → HttpReply) : ℕ →
    HttpReply :=
  handles.foldl (fun data h => Function.update data h.2 (data h.2 ++ answers h.1)) data

def sendMultiData (answers : ρ → HttpReply) : HttpBatch ρ :=
  { b with strRspData := writeData answers b.listCurl b.strRspData, listCurl := [] }

/-- Whether the request of a buffer is put in again; the copy of the loop for full batches does not
look at how often it has been put in. -/
def again (full : Bool) (i : ℕ) (req : ρ) : Bool :=
  (b.strRspData i).isEmpty && (full || b.reSendTimes req < maxRetryTimes)

/-- One turn of the loop over the answers: a request that is to be tried again is put in once more,
and any other one is done with. -/
def check (full : Bool) (i : ℕ) : HttpBatch ρ :=
  match b.reqDataCach[i]? with
  | some req => if b.again full i req then b.addHttpData req else b
  | none => b

def clear : HttpBatch ρ := { b with nCount := 0, reqDataCach := [] }

end HttpBatch

/-- Where the thread is in `httpStart`. -/
inductive HttpStart where
  | get
  | check (full : Bool) (i : ℕ)
  | beforeWait
  | waiting
  deriving DecidableEq, Repr

structure CHttpClient (ρ : Type) extends HttpBatch ρ where
  place : HttpStart := .get
  -- what has happened so far
  put : List ρ := []
  batches : List (List (ρ × HttpReply)) := []

namespace CHttpClient

variable {ρ : Type}

inductive Event (ρ : Type) where
  | put (req : ρ)
  | turn (handle : Bool) (answers : ρ → HttpReply)
  | spurious

section Steps

variable [DecidableEq ρ] (s : CHttpClient ρ)

def send (full : Bool) (answers : ρ → HttpReply) : CHttpClient ρ :=
  { s with
    toHttpBatch := s.sendMultiData answers
    batches := s.batches ++ [s.listCurl.map fun h => (h.1, answers h.1)]
    place := .check full 0 }

def turn (handle : Bool) (answers : ρ → HttpReply) : Option (CHttpClient ρ) :=
  match s.place with
  | .get =>
    match s.httpReqList with
    | [] => some (if s.nCount = 0 then { s with place := .beforeWait } else s.send false answers)
    | req :: rest =>
      let popped : CHttpClient ρ := { s with httpReqList := rest }
      let added := { popped with toHttpBatch := popped.addMultiCurl req handle }
      some (if curlMultiNum ≤ added.nCount then added.send true answers else added)
  | .check full i =>
    some (if i < s.nCount then
      { s with toHttpBatch := s.toHttpBatch.check full i, place := .check full (i + 1) }
    else { s with toHttpBatch := s.clear, place := .get })
  | .beforeWait => some { s with place := .waiting }
  | .waiting => none

/-- `addHttpData`. A thread that waits is woken, and one that is busy finds the request at its next
turn. -/
def insert (req : ρ) : CHttpClient ρ :=
  { s with
    toHttpBatch := s.addHttpData req
    put := s.put ++ [req]
    place := if s.place = .waiting then .get else s.place }

/-- An event of the client and of those who use it. Each request is put in once, so that its answers
can be told from those of others. -/
def step : Event ρ → Option (CHttpClient ρ)
  | .put req => if req ∈ s.put then none else some (s.insert req)
  | .turn handle answers => s.turn handle answers
  | .spurious => if s.place = .waiting then some { s with place := .get } else none

end Steps

/-- The answers to the transmissions of a request, in the order in which they came. -/
def answersIn [DecidableEq ρ] (log : List (ρ × HttpReply)) (req : ρ) : List HttpReply :=
  (log.filter (·.1 = req)).map (·.2)

def answers [DecidableEq ρ] (s : CHttpClient ρ) (req : ρ) : List HttpReply :=
  answersIn s.batches.flatten req

/-- `curl_easy_init` gives handles, a request in a full batch without an answer may be put in once
more, and the thread begins to wait while the queue is empty. -/
def Good (s : CHttpClient ρ) : Event ρ → Prop
  | .turn handle _ => handle = true ∧
      (∀ i req, s.place = .check true i → s.reqDataCach[i]? = some req → s.strRspData i = [] →
        s.reSendTimes req < maxRetryTimes) ∧
      (s.place = .beforeWait → s.httpReqList = [])
  | .put _ | .spurious => True

/-- What the push relies on: a request is sent a bounded number of times, and again only after an
empty answer. -/
structure Sound [DecidableEq ρ] (s : CHttpClient ρ) : Prop where
  atMost : ∀ req, (s.answers req).length ≤ maxRetryTimes
  again : ∀ req, ∀ answer ∈ (s.answers req).dropLast, answer = []
  room : s.nCount ≤ curlMultiNum
  paired : ∀ full i, s.place = .check full i →
    s.batches.getLast? = some (s.reqDataCach.mapIdx fun i req => (req, s.strRspData i))
  atLeast : ∀ req ∈ s.put, s.answers req ≠ [] ∨ req ∈ s.httpReqList ∨ req ∈ s.reqDataCach
  rest : s.place = .waiting → s.httpReqList = [] ∧ s.reqDataCach = []

section Answers

variable [DecidableEq ρ] {req : ρ}

theorem answersIn_append (log log' : List (ρ × HttpReply)) (req : ρ) :
    answersIn (log ++ log') req = answersIn log req ++ answersIn log' req := by
  simp only [answersIn, List.filter_append, List.map_append]

theorem answersIn_map {reqs : List ρ} (h : reqs.Nodup) (f : ρ → HttpReply) (req : ρ) :
    answersIn (reqs.map fun r => (r, f r)) req = if req ∈ reqs then [f req] else [] := by
  induction reqs with
  | nil => rfl
  | cons r reqs ih =>
    obtain ⟨hr, hreqs⟩ := List.nodup_cons.mp h
    have hcons : answersIn ((r :: reqs).map fun r => (r, f r)) req =
        answersIn [(r, f r)] req ++ answersIn (reqs.map fun r => (r, f r)) req :=
      answersIn_append [(r, f r)] _ req
    rw [hcons, ih hreqs]
    by_cases heq : r = req
    · subst heq
      simp [answersIn, hr]
    · simp [answersIn, heq, Ne.symm heq]

omit [DecidableEq ρ] in
theorem writeData_zipIdx (f : ρ → HttpReply) (reqs : List ρ) (k : ℕ) (data : ℕ → HttpReply) (j : ℕ) :
    HttpBatch.writeData f (reqs.zipIdx k) data j =
      data j ++ if k ≤ j then (reqs[j - k]?.map f).getD [] else [] := by
  induction reqs generalizing k data with
  | nil => simp [HttpBatch.writeData]
  | cons r reqs ih =>
    have hcons : HttpBatch.writeData f ((r :: reqs).zipIdx k) data =
        HttpBatch.writeData f (reqs.zipIdx (k + 1)) (Function.update data k (data k ++ f r)) := rfl
    rw [hcons, ih]
    obtain hlt | rfl | hgt := Nat.lt_trichotomy j k
    · rw [if_neg (by omega), if_neg (by omega), Function.update_of_ne (by omega)]
    · rw [if_neg (by omega), if_pos (Nat.le_refl j), Function.update_self, Nat.sub_self]
      simp
    · have hsub : j - k = j - (k + 1) + 1 := by omega
      rw [if_pos (by omega), if_pos (by omega), Function.update_of_ne (by omega), hsub,
        List.getElem?_cons_succ]

end Answers

/-- The requests of the batch that have not been transmitted. -/
def collected (s : CHttpClient ρ) : List ρ :=
  match s.place with
  | .check .. => []
  | .get | .beforeWait | .waiting => s.reqDataCach

/-- The requests of the batch whose answers have not been looked at. -/
def unchecked (s : CHttpClient ρ) : List ρ :=
  match s.place with
  | .check _ i => s.reqDataCach.drop i
  | .get | .beforeWait | .waiting => []

/-- The requests that are going to be transmitted: those of the queue and those that were
collected. -/
def due (s : CHttpClient ρ) : List ρ := s.httpReqList ++ s.collected

variable {s s' : CHttpClient ρ} {req : ρ}

theorem mem_reqDataCach_of_collected (h : req ∈ s.collected) : req ∈ s.reqDataCach := by
  unfold collected at h
  split at h
  · cases h
  · exact h
  · exact h
  · exact h

theorem mem_reqDataCach_of_unchecked (h : req ∈ s.unchecked) : req ∈ s.reqDataCach := by
  unfold unchecked at h
  split at h
  · exact List.mem_of_mem_drop h
  · cases h
  · cases h
  · cases h

section Runs

variable [DecidableEq ρ]

/-- A request that is due was put in once more than it has been transmitted, and had no answer
yet. -/
structure Due (s : CHttpClient ρ) (req : ρ) : Prop where
  times : s.reSendTimes req = (s.answers req).length + 1
  empty : ∀ answer ∈ s.answers req, answer = []

/-- A request that is not due was transmitted as often as it was put in, and only the last answer
need not be empty. -/
structure Done (s : CHttpClient ρ) (req : ρ) : Prop where
  times : s.reSendTimes req = (s.answers req).length
  sent : s.answers req ≠ []
  empty : ∀ answer ∈ (s.answers req).dropLast, answer = []

structure Inv (s : CHttpClient ρ) : Prop where
  nodup : (s.due ++ s.unchecked).Nodup
  put : ∀ req ∈ s.httpReqList ++ s.reqDataCach, req ∈ s.put
  fresh : ∀ req, req ∉ s.put → s.reSendTimes req = 0 ∧ s.answers req = []
  ofDue : ∀ req ∈ s.due, s.Due req
  ofDone : ∀ req ∈ s.put, req ∉ s.due → s.Done req
  le : ∀ req, s.reSendTimes req ≤ maxRetryTimes
  count : s.nCount = s.reqDataCach.length
  handles : s.listCurl = s.collected.zipIdx
  blank : ∀ j < s.collected.length, s.strRspData j = []
  idle : s.place = .beforeWait ∨ s.place = .waiting → s.reqDataCach = []
  waits : s.place = .waiting → s.httpReqList = []
  paired : ∀ full i, s.place = .check full i →
    s.batches.getLast? = some (s.reqDataCach.mapIdx fun i req => (req, s.strRspData i))
  last : ∀ full i, s.place = .check full i → ∀ j req, i ≤ j → s.reqDataCach[j]? = some req →
    (s.answers req).getLast? = some (s.strRspData j)

theorem inv_start : ({} : CHttpClient ρ).Inv where
  nodup := List.nodup_nil
  put _ h := absurd h List.not_mem_nil
  fresh _ _ := ⟨rfl, rfl⟩
  ofDue _ h := absurd h List.not_mem_nil
  ofDone _ h := absurd h List.not_mem_nil
  le _ := Nat.zero_le _
  count := rfl
  handles := rfl
  blank _ h := absurd h (Nat.not_lt_zero _)
  idle _ := rfl
  waits _ := rfl
  paired _ _ h := by cases h
  last _ _ h := by cases h

theorem Due.congr (h : s.Due req) (htimes : s'.reSendTimes req = s.reSendTimes req)
    (hanswers : s'.answers req = s.answers req) : s'.Due req :=
  ⟨by rw [htimes, hanswers, h.times], by rw [hanswers]; exact h.empty⟩

theorem Done.congr (h : s.Done req) (htimes : s'.reSendTimes req = s.reSendTimes req)
    (hanswers : s'.answers req = s.answers req) : s'.Done req :=
  ⟨by rw [htimes, hanswers, h.times], by rw [hanswers]; exact h.sent, by rw [hanswers]; exact h.empty⟩

theorem Inv.mem_put (h : s.Inv) (hreq : req ∈ s.due ++ s.unchecked) : req ∈ s.put := by
  refine h.put req (List.mem_append.mpr ?_)
  obtain hdue | hunchecked := List.mem_append.mp hreq
  · obtain hqueue | hcollected := List.mem_append.mp hdue
    · exact .inl hqueue
    · exact .inr (mem_reqDataCach_of_collected hcollected)
  · exact .inr (mem_reqDataCach_of_unchecked hunchecked)

theorem collected_insert : (s.insert req).collected = s.collected := by
  cases hplace : s.place <;> simp [collected, insert, hplace, HttpBatch.addHttpData]

theorem unchecked_insert : (s.insert req).unchecked = s.unchecked := by
  cases hplace : s.place <;> simp [unchecked, insert, hplace, HttpBatch.addHttpData]

theorem place_of_insert {place : HttpStart} (h : (s.insert req).place = place) (hne : place ≠ .get) :
    s.place = place := by
  have hplace : (if s.place = .waiting then .get else s.place) = place := h
  split at hplace
  · exact absurd hplace.symm hne
  · exact hplace

theorem place_insert_ne (s : CHttpClient ρ) (req : ρ) : (s.insert req).place ≠ .waiting := by
  have hplace : (s.insert req).place = if s.place = .waiting then .get else s.place := rfl
  rw [hplace]
  split
  · exact HttpStart.noConfusion
  · next hne => exact hne

theorem Inv.insert (h : s.Inv) (hnew : req ∉ s.put) : (s.insert req).Inv := by
  have hdue : (s.insert req).due = s.httpReqList ++ [req] ++ s.collected := by
    rw [due, collected_insert]
    rfl
  have hmem : ∀ r, r ∈ (s.insert req).due ↔ r = req ∨ r ∈ s.due := by
    intro r
    rw [hdue, due, List.append_assoc, List.mem_append, List.mem_append, List.mem_append,
      List.mem_singleton]
    tauto
  have hnot : req ∉ s.due ++ s.unchecked := fun hreq => hnew (h.mem_put hreq)
  have htimes : ∀ r, r ≠ req → (s.insert req).reSendTimes r = s.reSendTimes r :=
    fun r hr => Function.update_of_ne hr _ _
  have htimes_self : (s.insert req).reSendTimes req = s.reSendTimes req + 1 :=
    Function.update_self _ _ _
  have hanswers : ∀ r, (s.insert req).answers r = s.answers r := fun _ => rfl
  obtain ⟨hzero, hnone⟩ := h.fresh req hnew
  refine ⟨?_, ?_, ?_, ?_, ?_, ?_, h.count, ?_, ?_, ?_, ?_, ?_, ?_⟩
  · have hperm : ((s.insert req).due ++ (s.insert req).unchecked).Perm
        (req :: (s.due ++ s.unchecked)) := by
      rw [hdue, unchecked_insert, due, List.append_assoc, List.append_assoc, List.append_assoc]
      exact List.perm_middle
    exact hperm.nodup_iff.mpr (List.nodup_cons.mpr ⟨hnot, h.nodup⟩)
  · intro r hr
    have hr' : r ∈ s.httpReqList ++ [req] ++ s.reqDataCach := hr
    simp only [List.mem_append, List.mem_singleton] at hr'
    have hput : (s.insert req).put = s.put ++ [req] := rfl
    rw [hput, List.mem_append, List.mem_singleton]
    obtain (hqueue | hreq) | hcache := hr'
    · exact .inl (h.put r (List.mem_append_left _ hqueue))
    · exact .inr hreq
    · exact .inl (h.put r (List.mem_append_right _ hcache))
  · intro r hr
    have hr' : r ∉ s.put ∧ r ≠ req := by simpa [CHttpClient.insert] using hr
    rw [htimes r hr'.2]
    exact h.fresh r hr'.1
  · intro r hr
    obtain rfl | hold := (hmem r).mp hr
    · refine ⟨?_, fun answer hanswer => ?_⟩
      · rw [htimes_self, hzero, hanswers, hnone]
        rfl
      · rw [hanswers, hnone] at hanswer
        cases hanswer
    · have hne : r ≠ req := fun heq => hnot (heq ▸ List.mem_append_left _ hold)
      exact (h.ofDue r hold).congr (htimes r hne) (hanswers r)
  · intro r hr hdue'
    have hne : r ≠ req := fun heq => hdue' ((hmem r).mpr (.inl heq))
    have hput : r ∈ s.put := by
      obtain hold | hself := List.mem_append.mp hr
      · exact hold
      · exact absurd (List.mem_singleton.mp hself) hne
    exact (h.ofDone r hput fun hold => hdue' ((hmem r).mpr (.inr hold))).congr (htimes r hne) (hanswers r)
  · intro r
    by_cases hr : r = req
    · rw [hr, htimes_self, hzero]
      decide
    · rw [htimes r hr]
      exact h.le r
  · rw [collected_insert]
    exact h.handles
  · rw [collected_insert]
    exact h.blank
  · intro hplace
    refine h.idle ?_
    obtain hplace | hplace := hplace
    · exact .inl (place_of_insert hplace HttpStart.noConfusion)
    · exact .inr (place_of_insert hplace HttpStart.noConfusion)
  · intro hplace
    exact absurd hplace (place_insert_ne s req)
  · intro full i hplace
    exact h.paired full i (place_of_insert hplace HttpStart.noConfusion)
  · intro full i hplace
    exact h.last full i (place_of_insert hplace HttpStart.noConfusion)

/-- The first request of the queue is taken into the batch, with a handle of its own that is told
its place. -/
def take (s : CHttpClient ρ) (req : ρ) (rest : List ρ) : CHttpClient ρ :=
  { s with toHttpBatch := HttpBatch.addMultiCurl { s.toHttpBatch with httpReqList := rest } req true }

theorem Inv.take {rest : List ρ} (h : s.Inv) (hplace : s.place = .get)
    (hqueue : s.httpReqList = req :: rest) : (s.take req rest).Inv := by
  have hplace' : (s.take req rest).place = .get := hplace
  have hcollected : s.collected = s.reqDataCach := by rw [collected, hplace]
  have hcollected' : (s.take req rest).collected = s.reqDataCach ++ [req] := by
    rw [collected, hplace']
    rfl
  have hunchecked : s.unchecked = [] := by rw [unchecked, hplace]
  have hunchecked' : (s.take req rest).unchecked = [] := by rw [unchecked, hplace']
  have hdue : s.due = req :: (rest ++ s.reqDataCach) := by rw [due, hqueue, hcollected, List.cons_append]
  have hdue' : (s.take req rest).due = rest ++ (s.reqDataCach ++ [req]) := by
    rw [due, hcollected']
    rfl
  have hperm : (s.take req rest).due.Perm s.due := by
    rw [hdue, hdue', ← List.append_assoc]
    exact List.perm_append_singleton _ _
  have hanswers : ∀ r, (s.take req rest).answers r = s.answers r := fun _ => rfl
  refine ⟨?_, ?_, h.fresh, fun r hr => ?_, fun r hr hr' => ?_, h.le, ?_, ?_, ?_, ?_, ?_, ?_, ?_⟩
  · have hnodup := h.nodup
    rw [hunchecked, List.append_nil] at hnodup
    rw [hunchecked', List.append_nil]
    exact hperm.nodup_iff.mpr hnodup
  · intro r hr
    have hr' : r ∈ rest ++ (s.reqDataCach ++ [req]) := hr
    refine h.put r ?_
    rw [hqueue]
    simp only [List.mem_append, List.mem_cons] at hr' ⊢
    tauto
  · exact (h.ofDue r (hperm.mem_iff.mp hr)).congr rfl (hanswers r)
  · exact (h.ofDone r hr fun hold => hr' (hperm.mem_iff.mpr hold)).congr rfl (hanswers r)
  · have hcount : (s.take req rest).nCount = s.nCount + 1 := rfl
    have hcache : (s.take req rest).reqDataCach = s.reqDataCach ++ [req] := rfl
    rw [hcount, hcache, h.count, List.length_append, List.length_singleton]
  · have hcurl : (s.take req rest).listCurl = s.listCurl ++ [(req, s.nCount)] := rfl
    rw [hcurl, hcollected', h.handles, hcollected, h.count, List.zipIdx_append, Nat.zero_add]
    rfl
  · intro j hj
    have hdata : (s.take req rest).strRspData = Function.update s.strRspData s.nCount [] := rfl
    rw [hcollected', List.length_append, List.length_singleton] at hj
    rw [hdata]
    by_cases hlast : j = s.nCount
    · rw [hlast, Function.update_self]
    · rw [Function.update_of_ne hlast]
      refine h.blank j ?_
      rw [hcollected, ← h.count]
      rw [← h.count] at hj
      omega
  · intro hidle
    rw [hplace'] at hidle
    obtain hidle | hidle := hidle <;> cases hidle
  · intro hwaits
    rw [hplace'] at hwaits
    cases hwaits
  · intro full i hcheck
    rw [hplace'] at hcheck
    cases hcheck
  · intro full i hcheck
    rw [hplace'] at hcheck
    cases hcheck

/-- Each request of the batch gets its own answer, and the answers to requests outside of it stay as
they are. -/
theorem answers_send (h : s.Inv) (hplace : s.place = .get) (full : Bool) (f : ρ → HttpReply) (r : ρ) :
    (s.send full f).answers r = s.answers r ++ if r ∈ s.reqDataCach then [f r] else [] := by
  have hcollected : s.collected = s.reqDataCach := by rw [collected, hplace]
  have hnodup : s.reqDataCach.Nodup := by
    have hall := h.nodup.of_append_left.of_append_right
    rwa [hcollected] at hall
  have hbatch : s.listCurl.map (fun h => (h.1, f h.1)) = s.reqDataCach.map fun r => (r, f r) := by
    have hmap : s.listCurl.map (fun h => (h.1, f h.1)) =
        (s.listCurl.map Prod.fst).map fun r => (r, f r) := by
      rw [List.map_map]
      rfl
    rw [hmap, h.handles, hcollected, List.zipIdx_map_fst]
  have hflatten : (s.send full f).batches.flatten =
      s.batches.flatten ++ s.reqDataCach.map fun r => (r, f r) := by
    rw [← hbatch]
    simp [send]
  rw [answers, hflatten, answersIn_append, answersIn_map hnodup]
  rfl

theorem strRspData_send (h : s.Inv) (hplace : s.place = .get) (full : Bool) (f : ρ → HttpReply) {j : ℕ}
    {r : ρ} (hr : s.reqDataCach[j]? = some r) : (s.send full f).strRspData j = f r := by
  have hcollected : s.collected = s.reqDataCach := by rw [collected, hplace]
  have hdata : (s.send full f).strRspData = HttpBatch.writeData f s.listCurl s.strRspData := rfl
  have hlt : j < s.collected.length := by
    rw [hcollected]
    exact (List.getElem?_eq_some_iff.mp hr).1
  rw [hdata, h.handles, writeData_zipIdx, h.blank j hlt, if_pos (Nat.zero_le j), Nat.sub_zero,
    hcollected, hr]
  rfl

theorem Inv.send (h : s.Inv) (hplace : s.place = .get) (full : Bool) (f : ρ → HttpReply) :
    (s.send full f).Inv := by
  have hcollected : s.collected = s.reqDataCach := by rw [collected, hplace]
  have hunchecked : s.unchecked = [] := by rw [unchecked, hplace]
  have hdue : s.due = s.httpReqList ++ s.reqDataCach := by rw [due, hcollected]
  have hdue' : (s.send full f).due = s.httpReqList := List.append_nil _
  have hunchecked' : (s.send full f).unchecked = s.reqDataCach := rfl
  have hnodup : (s.httpReqList ++ s.reqDataCach).Nodup := by
    have hall := h.nodup
    rwa [hunchecked, List.append_nil, hdue] at hall
  have hanswers := answers_send h hplace full f
  refine ⟨?_, h.put, fun r hr => ?_, fun r hr => ?_, fun r hr hr' => ?_, h.le, h.count, rfl, ?_, ?_,
    ?_, ?_, ?_⟩
  · rwa [hdue', hunchecked']
  · have hnot : r ∉ s.reqDataCach := fun hcache => hr (h.put r (List.mem_append_right _ hcache))
    rw [hanswers, if_neg hnot, List.append_nil]
    exact h.fresh r hr
  · rw [hdue'] at hr
    have hnot : r ∉ s.reqDataCach := List.disjoint_of_nodup_append hnodup hr
    refine (h.ofDue r (hdue ▸ List.mem_append_left _ hr)).congr rfl ?_
    rw [hanswers, if_neg hnot, List.append_nil]
  · rw [hdue'] at hr'
    by_cases hcache : r ∈ s.reqDataCach
    · obtain ⟨htimes, hempty⟩ := h.ofDue r (hdue ▸ List.mem_append_right _ hcache)
      have heq : (s.send full f).answers r = s.answers r ++ [f r] := by rw [hanswers, if_pos hcache]
      refine ⟨?_, ?_, ?_⟩
      · rw [heq, List.length_append, List.length_singleton]
        exact htimes
      · rw [heq]
        exact List.concat_ne_nil _ _
      · rw [heq, List.dropLast_concat]
        exact hempty
    · have hnot : r ∉ s.due := by
        rw [hdue, List.mem_append]
        exact fun hmem => hmem.elim hr' hcache
      refine (h.ofDone r hr hnot).congr rfl ?_
      rw [hanswers, if_neg hcache, List.append_nil]
  · exact fun j hj => absurd hj (Nat.not_lt_zero j)
  · exact fun hidle => hidle.elim HttpStart.noConfusion HttpStart.noConfusion
  · exact fun hwaits => HttpStart.noConfusion hwaits
  · intro full' i _
    have hlast : (s.send full f).batches.getLast? = some (s.listCurl.map fun h => (h.1, f h.1)) :=
      List.getLast?_concat
    rw [hlast, h.handles, hcollected]
    refine congrArg some (List.ext_getElem? fun j => ?_)
    rw [List.getElem?_map, List.getElem?_zipIdx, List.getElem?_mapIdx]
    have hcache : (s.send full f).reqDataCach = s.reqDataCach := rfl
    rw [hcache]
    cases hr : s.reqDataCach[j]? with
    | none => rfl
    | some r =>
      rw [Option.map_some, Option.map_some, Option.map_some, strRspData_send h hplace full f hr]
  · intro full' i _ j r _ hr
    have hcache : r ∈ s.reqDataCach := List.mem_of_getElem? hr
    rw [hanswers, if_pos hcache, List.getLast?_concat, strRspData_send h hplace full f hr]

theorem Inv.skip {full : Bool} {i : ℕ} (h : s.Inv) (hplace : s.place = .check full i) :
    ({ s with place := .check full (i + 1) } : CHttpClient ρ).Inv := by
  have hcollected : s.collected = [] := by rw [collected, hplace]
  have hunchecked : s.unchecked = s.reqDataCach.drop i := by rw [unchecked, hplace]
  have hdue : s.due = s.httpReqList := by rw [due, hcollected, List.append_nil]
  have hdue' : ({ s with place := .check full (i + 1) } : CHttpClient ρ).due = s.due := by
    rw [hdue]
    exact List.append_nil _
  have hanswers : ∀ r,
    ({ s with place := .check full (i + 1) } : CHttpClient ρ).answers r = s.answers r :=
    fun _ => rfl
  refine ⟨?_, h.put, h.fresh, fun r hr => ?_, fun r hr hr' => ?_, h.le, h.count, ?_, ?_, ?_, ?_, ?_, ?_⟩
  · rw [hdue']
    refine h.nodup.sublist (List.Sublist.append_left ?_ _)
    rw [hunchecked]
    exact List.drop_sublist_drop_left _ (Nat.le_succ i)
  · exact (h.ofDue r (hdue' ▸ hr)).congr rfl (hanswers r)
  · exact (h.ofDone r hr (hdue' ▸ hr')).congr rfl (hanswers r)
  · have hhandles := h.handles
    rwa [hcollected] at hhandles
  · exact fun j hj => absurd hj (Nat.not_lt_zero j)
  · exact fun hidle => hidle.elim HttpStart.noConfusion HttpStart.noConfusion
  · exact fun hwaits => HttpStart.noConfusion hwaits
  · exact fun _ _ _ => h.paired full i hplace
  · intro full' i' hcheck j r hj
    obtain ⟨rfl, rfl⟩ := HttpStart.check.inj hcheck
    exact h.last full i hplace j r (by omega)

theorem Inv.again {full : Bool} {i : ℕ} (h : s.Inv) (hplace : s.place = .check full i)
    (hreq : s.reqDataCach[i]? = some req) (hempty : s.strRspData i = [])
    (htimes : s.reSendTimes req < maxRetryTimes) :
    ({ s with toHttpBatch := s.addHttpData req, place := .check full (i + 1) } : CHttpClient ρ).Inv := by
  let s' : CHttpClient ρ := { s with toHttpBatch := s.addHttpData req, place := .check full (i + 1) }
  have hcollected : s.collected = [] := by rw [collected, hplace]
  have hunchecked : s.unchecked = req :: s.reqDataCach.drop (i + 1) := by
    obtain ⟨hi, hget⟩ := List.getElem?_eq_some_iff.mp hreq
    rw [unchecked, hplace]
    exact hget ▸ List.drop_eq_getElem_cons hi
  have hdue : s.due = s.httpReqList := by rw [due, hcollected, List.append_nil]
  have hdue' : s'.due = s.httpReqList ++ [req] := List.append_nil _
  have hunchecked' : s'.unchecked = s.reqDataCach.drop (i + 1) := rfl
  have hanswers : ∀ r, s'.answers r = s.answers r := fun _ => rfl
  have htimes_self : s'.reSendTimes req = s.reSendTimes req + 1 := Function.update_self _ _ _
  have htimes_ne : ∀ r, r ≠ req → s'.reSendTimes r = s.reSendTimes r :=
    fun r hr => Function.update_of_ne hr _ _
  have hnodup := h.nodup
  have hput : req ∈ s.put := h.put req (List.mem_append_right _ (List.mem_of_getElem? hreq))
  have hnot : req ∉ s.due := by
    rw [hunchecked] at hnodup
    exact fun hmem => List.disjoint_of_nodup_append hnodup hmem List.mem_cons_self
  refine { h.skip hplace with
    nodup := ?_
    put := ?_
    fresh := fun r hr => ?_
    ofDue := fun r hr => ?_
    ofDone := fun r hr hr' => ?_
    le := fun r => ?_
    waits := fun hwaits => HttpStart.noConfusion hwaits }
  · rw [hdue, hunchecked] at hnodup
    have heq : s'.due ++ s'.unchecked = s.httpReqList ++ req :: s.reqDataCach.drop (i + 1) := by
      rw [hdue', hunchecked', List.append_assoc, List.singleton_append]
    exact heq ▸ hnodup
  · intro r hr
    have hr' : r ∈ s.httpReqList ++ [req] ++ s.reqDataCach := hr
    simp only [List.mem_append, List.mem_singleton] at hr'
    obtain (hqueue | rfl) | hcache := hr'
    · exact h.put r (List.mem_append_left _ hqueue)
    · exact hput
    · exact h.put r (List.mem_append_right _ hcache)
  · have hne : r ≠ req := fun heq => hr (heq ▸ hput)
    rw [htimes_ne r hne]
    exact h.fresh r hr
  · rw [hdue', List.mem_append, List.mem_singleton] at hr
    obtain hold | rfl := hr
    · have hne : r ≠ req := fun heq => hnot (by rw [hdue]; exact heq ▸ hold)
      exact (h.ofDue r (hdue ▸ hold)).congr (htimes_ne r hne) (hanswers r)
    · obtain ⟨hdone, hsent, hbefore⟩ := h.ofDone r hput hnot
      have hlast := h.last full i hplace i r (Nat.le_refl i) hreq
      refine ⟨by rw [htimes_self, hdone, hanswers], fun answer hanswer => ?_⟩
      rw [hanswers, ← List.dropLast_append_getLast? _ hlast, List.mem_append,
        List.mem_singleton] at hanswer
      obtain hinit | rfl := hanswer
      · exact hbefore answer hinit
      · exact hempty
  · rw [hdue', List.mem_append, List.mem_singleton, not_or] at hr'
    exact (h.ofDone r hr (hdue ▸ hr'.1)).congr (htimes_ne r hr'.2) (hanswers r)
  · by_cases hr : r = req
    · rw [hr, htimes_self]
      exact htimes
    · rw [htimes_ne r hr]
      exact h.le r

theorem Inv.clear {full : Bool} {i : ℕ} (h : s.Inv) (hplace : s.place = .check full i) :
    ({ s with toHttpBatch := s.clear, place := .get } : CHttpClient ρ).Inv := by
  let s' : CHttpClient ρ := { s with toHttpBatch := s.clear, place := .get }
  have hcollected : s.collected = [] := by rw [collected, hplace]
  have hdue : s.due = s.httpReqList := by rw [due, hcollected, List.append_nil]
  have hdue' : s'.due = s.due := by
    rw [hdue]
    exact List.append_nil _
  have hanswers : ∀ r, s'.answers r = s.answers r := fun _ => rfl
  refine ⟨?_, ?_, h.fresh, fun r hr => ?_, fun r hr hr' => ?_, h.le, rfl, ?_, ?_, ?_, ?_, ?_, ?_⟩
  · rw [hdue']
    exact h.nodup.sublist (List.Sublist.append_left (List.nil_sublist _) _)
  · intro r hr
    have hqueue : r ∈ s.httpReqList ++ [] := hr
    rw [List.append_nil] at hqueue
    exact h.put r (List.mem_append_left _ hqueue)
  · exact (h.ofDue r (hdue' ▸ hr)).congr rfl (hanswers r)
  · exact (h.ofDone r hr (hdue' ▸ hr')).congr rfl (hanswers r)
  · have hhandles := h.handles
    rwa [hcollected] at hhandles
  · exact fun j hj => absurd hj (Nat.not_lt_zero j)
  · exact fun _ => rfl
  · exact fun hwaits => HttpStart.noConfusion hwaits
  · exact fun _ _ hcheck => HttpStart.noConfusion hcheck
  · exact fun _ _ hcheck => HttpStart.noConfusion hcheck

theorem Inv.move {place : HttpStart} (h : s.Inv) (hafter : ∀ full i, place ≠ .check full i)
    (hcache : s.reqDataCach = [])
    (hqueue : place = .waiting → s.httpReqList = []) :
    ({ s with place := place } : CHttpClient ρ).Inv := by
  let s' : CHttpClient ρ := { s with place := place }
  have hcollected : s.collected = [] := by
    rw [collected]
    split
    · rfl
    · exact hcache
    · exact hcache
    · exact hcache
  have hcollected' : s'.collected = [] := by
    rw [collected]
    split
    · rfl
    · exact hcache
    · exact hcache
    · exact hcache
  have hunchecked' : s'.unchecked = [] := by
    rw [unchecked]
    split
    · next full i hplace => exact absurd hplace (hafter full i)
    · rfl
    · rfl
    · rfl
  have hdue' : s'.due = s.due := by
    rw [due, due, hcollected, hcollected']
  have hanswers : ∀ r, s'.answers r = s.answers r := fun _ => rfl
  refine ⟨?_, h.put, h.fresh, fun r hr => ?_, fun r hr hr' => ?_, h.le, h.count, ?_, ?_,
    fun _ => hcache,
    hqueue, fun full i hplace => absurd hplace (hafter full i),
    fun full i hplace => absurd hplace (hafter full i)⟩
  · rw [hdue', hunchecked', List.append_nil]
    exact h.nodup.of_append_left
  · exact (h.ofDue r (hdue' ▸ hr)).congr rfl (hanswers r)
  · exact (h.ofDone r hr (hdue' ▸ hr')).congr rfl (hanswers r)
  · rw [hcollected', ← hcollected]
    exact h.handles
  · intro j hj
    rw [hcollected'] at hj
    exact absurd hj (Nat.not_lt_zero j)

theorem Inv.turn {handle : Bool} {f : ρ → HttpReply} (h : s.Inv) (hgood : s.Good (.turn handle f))
    (hstep : s.turn handle f = some s') : s'.Inv := by
  obtain ⟨rfl, hretry, hwait⟩ := hgood
  unfold CHttpClient.turn at hstep
  split at hstep
  · next hplace =>
    split at hstep
    · cases hstep
      split
      · next hzero =>
        have hcache : s.reqDataCach = [] := List.eq_nil_of_length_eq_zero (h.count ▸ hzero)
        exact h.move (by simp) hcache HttpStart.noConfusion
      · exact h.send hplace false f
    · next req rest hqueue =>
      cases hstep
      have htaken := h.take hplace hqueue
      split
      · exact htaken.send hplace true f
      · exact htaken
  · next full i hplace =>
    cases hstep
    split
    · next hi =>
      rw [h.count] at hi
      have hreq := List.getElem?_eq_getElem hi
      cases hagain : s.again full i s.reqDataCach[i] with
      | false =>
        simp only [HttpBatch.check, hreq, hagain]
        exact h.skip hplace
      | true =>
        simp only [HttpBatch.check, hreq, hagain, if_true]
        simp only [HttpBatch.again, Bool.and_eq_true, List.isEmpty_iff, Bool.or_eq_true,
          decide_eq_true_eq] at hagain
        refine h.again hplace hreq hagain.1 ?_
        obtain hfull | hlt := hagain.2
        · exact hretry i _ (hfull ▸ hplace) hreq hagain.1
        · exact hlt
    · exact h.clear hplace
  · next hplace =>
    cases hstep
    exact h.move (by simp) (h.idle (.inl hplace)) fun _ => hwait hplace
  · cases hstep

theorem Inv.step {e : Event ρ} (h : s.Inv) (hgood : s.Good e)
    (hstep : s.step e = some s') : s'.Inv := by
  cases e with
  | put req =>
    simp only [CHttpClient.step] at hstep
    split at hstep
    · cases hstep
    · next hnew =>
      cases hstep
      exact h.insert hnew
  | turn handle f => exact h.turn hgood hstep
  | spurious =>
    simp only [CHttpClient.step] at hstep
    split at hstep
    · next hplace =>
      cases hstep
      exact h.move (by simp) (h.idle (.inr hplace)) HttpStart.noConfusion
    · cases hstep

/-- There is a buffer for each request of the batch, and for one more while it is collected. -/
structure Room (s : CHttpClient ρ) : Prop where
  le : s.nCount ≤ curlMultiNum
  lt : (∀ full i, s.place ≠ .check full i) → s.nCount < curlMultiNum

theorem Room.step {e : Event ρ} (h : s.Room) (hstep : s.step e = some s') : s'.Room := by
  cases e with
  | put req =>
    simp only [CHttpClient.step] at hstep
    split at hstep
    · cases hstep
    · cases hstep
      refine ⟨h.le, fun hcollects => h.lt fun full i hplace => hcollects full i ?_⟩
      simp [CHttpClient.insert, hplace]
  | turn handle f =>
    simp only [CHttpClient.step, CHttpClient.turn] at hstep
    split at hstep
    · next hplace =>
      have hlt := h.lt (by simp [hplace])
      split at hstep
      · cases hstep
        split
        · exact ⟨h.le, fun _ => hlt⟩
        · exact ⟨h.le, fun hcollects => absurd rfl (hcollects false 0)⟩
      · cases hstep
        split
        · exact ⟨hlt, fun hcollects => absurd rfl (hcollects true 0)⟩
        · next hfull => exact ⟨hlt, fun _ => Nat.lt_of_not_le hfull⟩
    · next full i hplace =>
      cases hstep
      split
      · refine ⟨?_, fun hcollects => absurd rfl (hcollects full (i + 1))⟩
        have hcount : (s.toHttpBatch.check full i).nCount = s.nCount := by
          unfold HttpBatch.check
          split
          · split <;> rfl
          · rfl
        exact hcount ▸ h.le
      · exact ⟨Nat.zero_le _, fun _ => (by decide : 0 < curlMultiNum)⟩
    · next hplace =>
      cases hstep
      exact ⟨h.le, fun _ => h.lt (by simp [hplace])⟩
    · cases hstep
  | spurious =>
    obtain ⟨hplace, hs'⟩ := Option.ite_none_right_eq_some.mp hstep
    cases hs'
    exact ⟨h.le, fun _ => h.lt (by simp [hplace])⟩

theorem Inv.sound (h : s.Inv) (hroom : s.Room) : s.Sound where
  room := hroom.le
  atMost req := by
    by_cases hput : req ∈ s.put
    · have hle := h.le req
      by_cases hdue : req ∈ s.due
      · have htimes := (h.ofDue req hdue).times
        omega
      · have htimes := (h.ofDone req hput hdue).times
        omega
    · rw [(h.fresh req hput).2]
      exact Nat.zero_le _
  again req answer hanswer := by
    by_cases hput : req ∈ s.put
    · by_cases hdue : req ∈ s.due
      · exact (h.ofDue req hdue).empty answer (List.dropLast_subset _ hanswer)
      · exact (h.ofDone req hput hdue).empty answer hanswer
    · rw [(h.fresh req hput).2] at hanswer
      cases hanswer
  paired := h.paired
  atLeast req hreq := by
    by_cases hdue : req ∈ s.due
    · obtain hqueue | hcollected := List.mem_append.mp hdue
      · exact .inr (.inl hqueue)
      · exact .inr (.inr (mem_reqDataCach_of_collected hcollected))
    · exact .inl (h.ofDone req hreq hdue).sent
  rest hplace := ⟨h.waits hplace, h.idle (.inr hplace)⟩

end Runs

/-- What is left to do for requests that have been put in some times; `stage` says how far they
are. -/
def weight (s : CHttpClient ρ) (stage : ℕ) (reqs : List ρ) : ℕ :=
  (reqs.map fun req => 4 * (maxRetryTimes - s.reSendTimes req) + stage).sum

theorem weight_append (s : CHttpClient ρ) (stage : ℕ) (reqs reqs' : List ρ) :
    s.weight stage (reqs ++ reqs') = s.weight stage reqs + s.weight stage reqs' := by
  simp only [weight, List.map_append, List.sum_append]

theorem weight_cons (s : CHttpClient ρ) (stage : ℕ) (req : ρ) (reqs : List ρ) :
    s.weight stage (req :: reqs) =
      4 * (maxRetryTimes - s.reSendTimes req) + stage + s.weight stage reqs := rfl

theorem weight_add (s : CHttpClient ρ) (stage k : ℕ) (reqs : List ρ) :
    s.weight (stage + k) reqs = s.weight stage reqs + k * reqs.length := by
  induction reqs with
  | nil => rfl
  | cons req reqs ih =>
    rw [weight_cons, weight_cons, ih, List.length_cons, Nat.mul_succ]
    omega

theorem weight_congr {stage : ℕ} {reqs : List ρ}
    (h : ∀ req ∈ reqs, s'.reSendTimes req = s.reSendTimes req) :
    s'.weight stage reqs = s.weight stage reqs := by
  unfold weight
  refine congrArg List.sum (List.map_congr_left fun req hreq => ?_)
  rw [h req hreq]

/-- What the requests of the queue and of the batch still cost. -/
def load (s : CHttpClient ρ) : ℕ :=
  s.weight 4 s.httpReqList + s.weight 3 s.collected + s.weight 1 s.unchecked

def stage : HttpStart → ℕ
  | .check .. => 3
  | .get => 2
  | .beforeWait => 1
  | .waiting => 0

/-- Every turn of the thread lowers this, so that between two new requests it comes to the point
where it waits. -/
def rank (s : CHttpClient ρ) : ℕ := s.load + stage s.place

theorem load_of_collecting (h : ∀ full i, s.place ≠ .check full i) :
    s.load = s.weight 4 s.httpReqList + s.weight 3 s.reqDataCach := by
  rw [load, collected, unchecked]
  split
  · next full i hplace => exact absurd hplace (h full i)
  · rfl
  · rfl
  · rfl

theorem load_of_check {full : Bool} {i : ℕ} (h : s.place = .check full i) :
    s.load = s.weight 4 s.httpReqList + s.weight 1 (s.reqDataCach.drop i) := by
  rw [load, collected, unchecked, h]
  rfl

/-- A turn transmits at most one batch, at the cost of the load. -/
structure Lowers (s s' : CHttpClient ρ) : Prop where
  batches : s'.batches.length + s'.load ≤ s.batches.length + s.load
  rank : s'.rank < s.rank

theorem Lowers.trans {s₁ s₂ : CHttpClient ρ} (h : s.Lowers s₁) (h' : s₁.Lowers s₂) : s.Lowers s₂ :=
  ⟨Nat.le_trans h'.batches h.batches, Nat.lt_trans h'.rank h.rank⟩

theorem lowers_of_load (hbatches : s'.batches = s.batches) (hload : s'.load ≤ s.load)
    (hrank : s'.load + stage s'.place < s.load + stage s.place) : s.Lowers s' :=
  ⟨by rw [hbatches]; omega, hrank⟩

theorem load_move {place : HttpStart} (hbefore : ∀ full i, s.place ≠ .check full i)
    (hafter : ∀ full i, place ≠ .check full i) :
    ({ s with place := place } : CHttpClient ρ).load = s.load := by
  have hload : ({ s with place := place } : CHttpClient ρ).load =
      s.weight 4 s.httpReqList + s.weight 3 s.reqDataCach := load_of_collecting hafter
  rw [hload, load_of_collecting hbefore]

theorem lowers_take {rest : List ρ} (hplace : s.place = .get) (hqueue : s.httpReqList = req :: rest) :
    s.Lowers (s.take req rest) := by
  have hplace' : (s.take req rest).place = .get := hplace
  have hload : s.load = s.weight 4 (req :: rest) + s.weight 3 s.reqDataCach := by
    rw [load_of_collecting (by simp [hplace]), hqueue]
  have hload' : (s.take req rest).load = s.weight 4 rest + s.weight 3 (s.reqDataCach ++ [req]) :=
    load_of_collecting (by simp [hplace'])
  have hless : (s.take req rest).load + 1 = s.load := by
    rw [hload, hload', weight_append, weight_cons, weight_cons]
    simp only [weight, List.map_nil, List.sum_nil]
    omega
  refine lowers_of_load rfl (by omega) ?_
  rw [hplace, hplace']
  omega

theorem lowers_send (hplace : s.place = .get) (hcache : s.reqDataCach ≠ []) (full : Bool)
    (f : ρ → HttpReply) : s.Lowers (s.send full f) := by
  have hpos : 0 < s.reqDataCach.length := List.length_pos_iff.mpr hcache
  have hplace' : (s.send full f).place = .check full 0 := rfl
  have hload : s.load = s.weight 4 s.httpReqList + s.weight 3 s.reqDataCach :=
    load_of_collecting (by simp [hplace])
  have hload' : (s.send full f).load = s.weight 4 s.httpReqList + s.weight 1 s.reqDataCach :=
    load_of_check hplace'
  have hadd : s.weight 3 s.reqDataCach = s.weight 1 s.reqDataCach + 2 * s.reqDataCach.length :=
    s.weight_add 1 2 s.reqDataCach
  have hbatches : (s.send full f).batches.length = s.batches.length + 1 := List.length_append
  refine ⟨by omega, ?_⟩
  rw [rank, rank, hplace', hplace]
  simp only [stage]
  omega

section Turns

variable [DecidableEq ρ]

theorem lowers_check {full : Bool} {i : ℕ} (h : s.Inv) (hplace : s.place = .check full i)
    (hreq : s.reqDataCach[i]? = some req)
    (hretry : s.again full i req = true → s.reSendTimes req < maxRetryTimes) :
    s.Lowers { s with toHttpBatch := s.toHttpBatch.check full i, place := .check full (i + 1) } := by
  obtain ⟨hi, hget⟩ := List.getElem?_eq_some_iff.mp hreq
  have hdrop : s.reqDataCach.drop i = req :: s.reqDataCach.drop (i + 1) :=
    hget ▸ List.drop_eq_getElem_cons hi
  have hload : s.load = s.weight 4 s.httpReqList + s.weight 1 (req :: s.reqDataCach.drop (i + 1)) := by
    rw [load_of_check hplace, hdrop]
  rw [weight_cons] at hload
  cases hagain : s.again full i req with
  | false =>
    simp only [HttpBatch.check, hreq, hagain]
    let s' : CHttpClient ρ := { s with place := .check full (i + 1) }
    have hload' : s'.load = s.weight 4 s.httpReqList + s.weight 1 (s.reqDataCach.drop (i + 1)) :=
      load_of_check rfl
    have hle : s'.load + 1 ≤ s.load := by omega
    exact @lowers_of_load ρ s s' rfl (Nat.le_of_succ_le hle)
      (by rw [hplace]; exact Nat.add_lt_add_right hle 3)
  | true =>
    simp only [HttpBatch.check, hreq, hagain, if_true]
    let s' : CHttpClient ρ :=
      { s with toHttpBatch := s.addHttpData req, place := .check full (i + 1) }
    have hload' : s'.load = s'.weight 4 (s.httpReqList ++ [req]) +
        s'.weight 1 (s.reqDataCach.drop (i + 1)) :=
      load_of_check rfl
    have htimes : s'.reSendTimes req = s.reSendTimes req + 1 := Function.update_self _ _ _
    have hlt := hretry hagain
    have hnodup := h.nodup
    have hunchecked : s.unchecked = req :: s.reqDataCach.drop (i + 1) := by
      rw [unchecked, hplace]
      exact hdrop
    have hdue : s.due = s.httpReqList := by rw [due, collected, hplace, List.append_nil]
    rw [hunchecked, hdue] at hnodup
    obtain ⟨-, hrest, hdisjoint⟩ := List.nodup_append.mp hnodup
    have hqueue : s'.weight 4 s.httpReqList = s.weight 4 s.httpReqList :=
      weight_congr fun r hr => Function.update_of_ne (hdisjoint r hr req List.mem_cons_self) _ _
    have hlater : s'.weight 1 (s.reqDataCach.drop (i + 1)) = s.weight 1 (s.reqDataCach.drop (i + 1)) :=
      weight_congr fun r hr => Function.update_of_ne
        (fun heq : r = req => (List.nodup_cons.mp hrest).1 (heq ▸ hr)) _ _
    have hsingle : s'.weight 4 [req] = 4 * (maxRetryTimes - (s.reSendTimes req + 1)) + 4 := by
      rw [weight_cons, htimes]
      rfl
    rw [weight_append, hqueue, hlater, hsingle] at hload'
    have hle : s'.load + 1 ≤ s.load := by omega
    exact @lowers_of_load ρ s s' rfl (Nat.le_of_succ_le hle)
      (by rw [hplace]; exact Nat.add_lt_add_right hle 3)

/-- A good turn of the thread lowers the rank, and it transmits at most one batch, which the load
pays for. -/
theorem Inv.lowers {handle : Bool} {f : ρ → HttpReply} (h : s.Inv) (hgood : s.Good (.turn handle f))
    (hstep : s.turn handle f = some s') : s.Lowers s' := by
  obtain ⟨rfl, hretry, hwait⟩ := hgood
  unfold CHttpClient.turn at hstep
  split at hstep
  · next hplace =>
    split at hstep
    · next hqueue =>
      cases hstep
      split
      · have hload := @load_move ρ s .beforeWait (by simp [hplace]) (by simp)
        refine lowers_of_load rfl (Nat.le_of_eq hload) ?_
        rw [hload, hplace]
        exact Nat.lt_succ_self _
      · next hcount =>
        exact lowers_send hplace (fun hnil => hcount (by rw [h.count, hnil]; rfl)) false f
    · next req rest hqueue =>
      cases hstep
      have htaken := lowers_take hplace hqueue
      split
      · have hcache : (s.take req rest).reqDataCach ≠ [] := List.concat_ne_nil _ _
        exact htaken.trans (@lowers_send ρ (s.take req rest) hplace hcache true f)
      · exact htaken
  · next full i hplace =>
    cases hstep
    split
    · next hi =>
      rw [h.count] at hi
      have hreq := List.getElem?_eq_getElem hi
      refine lowers_check h hplace hreq fun hagain => ?_
      simp only [HttpBatch.again, Bool.and_eq_true, List.isEmpty_iff, Bool.or_eq_true,
        decide_eq_true_eq] at hagain
      obtain hfull | hlt := hagain.2
      · exact hretry i _ (hfull ▸ hplace) hreq hagain.1
      · exact hlt
    · next hi =>
      rw [h.count] at hi
      let s' : CHttpClient ρ := { s with toHttpBatch := s.clear, place := .get }
      have hload : s.load = s.weight 4 s.httpReqList + s.weight 1 [] := by
        rw [load_of_check hplace, List.drop_of_length_le (by omega)]
      have hload' : s'.load = s.weight 4 s.httpReqList + s.weight 3 [] :=
        load_of_collecting (by simp [s'])
      have heq : s'.load = s.load := by
        rw [hload, hload']
        rfl
      refine @lowers_of_load ρ s s' rfl (Nat.le_of_eq heq) ?_
      rw [heq, hplace]
      exact Nat.lt_succ_self _
  · next hplace =>
    cases hstep
    have hload := @load_move ρ s .waiting (by simp [hplace]) (by simp)
    refine lowers_of_load rfl (Nat.le_of_eq hload) ?_
    rw [hload, hplace]
    exact Nat.lt_succ_self _
  · cases hstep

/-- Without new requests there are finitely many batches; the thread always has a turn until it
waits, and it waits after finitely many turns. -/
structure Rests (s : CHttpClient ρ) : Prop where
  batches : ∃ n, ∀ s', Run.Reaches step (fun s e => s.Good e ∧ ∀ req, e ≠ .put req) s s' →
    s'.batches.length ≤ n
  turns : s.place ≠ .waiting → ∀ handle f, (s.step (.turn handle f)).isSome
  ends : ∀ run : ℕ → CHttpClient ρ, run 0 = s →
    ¬ ∀ n, ∃ handle f, (run n).Good (.turn handle f) ∧
      (run n).step (.turn handle f) = some (run (n + 1))

theorem Inv.rests (h : s.Inv) : s.Rests where
  batches := by
    refine ⟨s.batches.length + s.load, fun s' hreach => ?_⟩
    have hbound : s'.Inv ∧ s'.batches.length + s'.load ≤ s.batches.length + s.load := by
      refine hreach.invariant (fun s' => s'.Inv ∧ s'.batches.length + s'.load ≤ s.batches.length + s.load)
        ⟨h, Nat.le_refl _⟩ ?_
      rintro s₁ e s₂ ⟨hinv, hle⟩ ⟨hgood, hput⟩ hstep
      refine ⟨hinv.step hgood hstep, ?_⟩
      cases e with
      | put req => exact absurd rfl (hput req)
      | turn handle f => exact Nat.le_trans (hinv.lowers hgood hstep).batches hle
      | spurious =>
        obtain ⟨hplace, hs₂⟩ := Option.ite_none_right_eq_some.mp hstep
        cases hs₂
        rwa [@load_move ρ s₁ .get (by simp [hplace]) (by simp)]
    omega
  turns hplace handle f := by
    cases hplace' : s.place with
    | get => cases hqueue : s.httpReqList <;> simp [CHttpClient.step, CHttpClient.turn, hplace', hqueue]
    | check full i => simp [CHttpClient.step, CHttpClient.turn, hplace']
    | beforeWait => simp [CHttpClient.step, CHttpClient.turn, hplace']
    | waiting => exact absurd hplace' hplace
  ends run hstart hrun := by
    have hall : ∀ n, (run n).Inv ∧ (run n).rank + n ≤ s.rank := by
      intro n
      induction n with
      | zero => exact ⟨hstart ▸ h, Nat.le_of_eq (congrArg CHttpClient.rank hstart)⟩
      | succ n ih =>
        obtain ⟨handle, f, hgood, hstep⟩ := hrun n
        have hrank := (ih.1.lowers hgood hstep).rank
        exact ⟨ih.1.step hgood hstep, by omega⟩
    have hlast := (hall (s.rank + 1)).2
    omega

/-- The loop transmits as it should in every run whose full batches do not put a request in too
often. -/
theorem transmits (h : Run.Reaches step Good ({} : CHttpClient ρ) s) : s.Sound ∧ s.Rests := by
  have hinv : s.Inv := h.invariant Inv inv_start fun _ _ _ hinv hgood hstep => hinv.step hgood hstep
  have hstart : ({} : CHttpClient ρ).Room := ⟨Nat.zero_le _, fun _ => (by decide : 0 < curlMultiNum)⟩
  have hroom : s.Room := h.invariant Room hstart
    fun _ _ _ hroom _ hstep => hroom.step hstep
  exact ⟨hinv.sound hroom, hinv.rests⟩

end Turns

/-- The answer that is looked at in the loop for full batches. -/
def fullIdx (s : CHttpClient ρ) : Option ℕ :=
  match s.place with
  | .check true i => some i
  | .check false _ | .get | .beforeWait | .waiting => none

theorem fullIdx_eq_some_iff {i : ℕ} : s.fullIdx = some i ↔ s.place = .check true i := by
  obtain hplace | ⟨full, j, hplace⟩ | hplace | hplace : s.place = .get ∨
      (∃ full j, s.place = .check full j) ∨ s.place = .beforeWait ∨ s.place = .waiting := by
    cases s.place <;> simp
  · simp [fullIdx, hplace]
  · cases full <;> simp [fullIdx, hplace]
  · simp [fullIdx, hplace]
  · simp [fullIdx, hplace]

theorem good_turn_iff {handle : Bool} {f : ρ → HttpReply} :
    s.Good (.turn handle f) ↔ handle = true ∧
      (∀ i ∈ s.fullIdx, ∀ req ∈ s.reqDataCach[i]?, s.strRspData i = [] →
        s.reSendTimes req < maxRetryTimes) ∧
      (s.place = .beforeWait → s.httpReqList = []) := by
  simp only [Good, Option.mem_def, fullIdx_eq_some_iff]
  refine and_congr_right fun _ => and_congr_left fun _ => ?_
  exact ⟨fun h i hi req hreq => h i req hi hreq, fun h i req hi hreq => h i hi req hreq⟩

instance decidableGood [DecidableEq ρ] (s : CHttpClient ρ) : (e : Event ρ) → Decidable (s.Good e)
  | .turn .. => decidable_of_iff _ good_turn_iff.symm
  | .put _ | .spurious => isTrue trivial

/-- A request gets no answer when it is transmitted first, and one when it is transmitted again; the
thread waits in the end. -/
def retried : List (Event ℕ) :=
  .put 7 :: (List.replicate 4 (.turn true fun _ => []) ++ List.replicate 6 (.turn true fun _ => [1]))

theorem transmits_retried :
    (Run.runGood step Good ({} : CHttpClient ℕ) retried).map (fun s => (s.place, s.answers 7)) =
        some (.waiting, [[], [1]]) ∧
      ∀ s ∈ Run.runGood step Good ({} : CHttpClient ℕ) retried, s.Sound ∧ s.Rests :=
  ⟨by decide +kernel, fun _ hrun => transmits (Run.reaches_of_runGood hrun)⟩

/-- The queue holds a full batch when the thread begins, and nothing is ever answered. -/
def unanswered : List (Event ℕ) :=
  (List.range curlMultiNum).map .put ++ List.replicate 227 (.turn true fun _ => [])

theorem not_transmits :
    (Run.run step ({} : CHttpClient ℕ) unanswered).map (fun s => (s.answers 0).length) =
      some (maxRetryTimes + 1) := by
  decide +kernel

end CHttpClient

end ImServer
