import ImServer.Lib.Run
import Mathlib.Algebra.Order.BigOperators.Group.List
import Mathlib.Data.Fintype.Basic
import Mathlib.Logic.Function.Basic

/-!
# Push requests on their way

A client of the push service (ipush/clientbase.cpp, ipush/voip_http2_client.cpp) puts each request
into the queue of one of its senders. A sender takes it, enters it into the cache of requests that
wait for a response (ipush/CPostPduCacheMgr.cpp) and posts it. A response takes the request out of
the cache and is reported; a request that waits too long is put back into the queue, and given up
when it has been posted three times.

The cache is keyed by a counter, and each request carries the key that it got last. The counter
starts again when it has come to its end, and then a key may be in use twice.
-/

namespace ImServer

/-- What a sender has taken from its queue, before and after `Insert`. -/
inductive Hand (ρ : Type) where
  | empty
  | popped (data : ρ)
  | inserted (data : ρ)
  deriving DecidableEq, Repr

/-- The senders `ι`, the cache, and the requests `ρ`, each of which is an object of its own. -/
structure PushClient (ι ρ : Type) where
  running : ι → Bool
  queue : ι → List ρ := fun _ => []
  hand : ι → Hand ρ := fun _ => .empty
  index : ℤ := 0
  cacheMap : List (ℤ × ρ) := []
  mapIndex : ρ → ℤ
  sendTimes : ρ → Nat := fun _ => 0
  -- what has happened so far
  accepted : ρ → Bool := fun _ => false
  posts : ρ → Nat := fun _ => 0
  notifies : ρ → Nat := fun _ => 0
  aborted : ρ → Bool := fun _ => false

namespace PushClient

variable {ι ρ : Type}

inductive Event (ι ρ : Type) where
  | run (i : ι)
  | addTask (data : ρ)
  | pop (i : ι)
  | insert (i : ι)
  | post (i : ι)
  | response (data : ρ)
  | checkCache (timeout : ρ → Bool)

def maxQueueSize : Nat := 0x7ffffffe

/-- What is under an index goes between the smaller and the larger ones. -/
def insertAt (index : ℤ) (data : ρ) (map : List (ℤ × ρ)) : List (ℤ × ρ) :=
  map.takeWhile (·.1 < index) ++ (index, data) :: map.dropWhile (·.1 < index)

theorem perm_insertAt (index : ℤ) (data : ρ) (map : List (ℤ × ρ)) :
    (insertAt index data map).Perm ((index, data) :: map) := by
  have hmap : map.takeWhile (·.1 < index) ++ map.dropWhile (·.1 < index) = map :=
    List.takeWhile_append_dropWhile
  exact List.perm_middle.trans (by rw [hmap])

section Steps

variable [DecidableEq ι] [DecidableEq ρ] (sender : ρ → ι) (s : PushClient ι ρ)

/-- `PostData` of the sender of the request. `sender` is the hash of the `sToId`. -/
def addTask (data : ρ) : Bool × PushClient ι ρ :=
  if s.running (sender data) = true ∧ (s.queue (sender data)).length < maxQueueSize then
    (true, { s with
      queue := Function.update s.queue (sender data) (s.queue (sender data) ++ [data]) })
  else (false, s)

/-- The index of the next insertion, an `int`. -/
def nextIndex : ℤ := (s.index + 1).bmod (2 ^ 32)

/-- `Insert`. It fails if there is something under the index. -/
def insert (data : ρ) : PushClient ι ρ :=
  let s' := { s with
    index := s.nextIndex
    mapIndex := Function.update s.mapIndex data s.nextIndex
    sendTimes := Function.update s.sendTimes data (s.sendTimes data + 1) }
  if ∃ entry ∈ s.cacheMap, entry.1 = s.nextIndex then s'
  else
    { s' with
      cacheMap := insertAt s.nextIndex data s.cacheMap
      index := if 0x7ffffffd < s.nextIndex then 0 else s.nextIndex }

/-- `Delete` of what is under the index of the request. -/
def delete (data : ρ) : Bool × PushClient ι ρ :=
  if ∃ entry ∈ s.cacheMap, entry.1 = s.mapIndex data then
    (true, { s with cacheMap := s.cacheMap.filter (·.1 ≠ s.mapIndex data) })
  else (false, s)

/-- `ResponeCallBack`, with a report if there was something to delete. -/
def responeCallBack (data : ρ) : PushClient ι ρ :=
  match s.delete data with
  | (false, s) => s
  | (true, s) => { s with notifies := Function.update s.notifies data (s.notifies data + 1) }

def checkCallBack (data : ρ) : PushClient ι ρ :=
  if 3 ≤ s.sendTimes data then { s with aborted := Function.update s.aborted data true }
  else (s.addTask sender data).2

/-- The entries that have waited too long. -/
def timedOut (timeout : ρ → Bool) : List ρ := (s.cacheMap.map Prod.snd).filter timeout

def checkCache (timeout : ρ → Bool) : PushClient ι ρ :=
  { (s.timedOut timeout).foldl (checkCallBack sender) s with
    cacheMap := s.cacheMap.filter fun entry => !timeout entry.2 }

def setHand (i : ι) (hand : Hand ρ) : PushClient ι ρ := { s with hand := Function.update s.hand i hand }

/-- Any request that has been posted may be answered, also more than once. -/
def step : Event ι ρ → Option (PushClient ι ρ)
  | .run i => some { s with running := Function.update s.running i true }
  | .addTask data =>
    if s.accepted data then none
    else
      let (added, s) := s.addTask sender data
      some (if added then { s with accepted := Function.update s.accepted data true } else s)
  | .pop i =>
    match s.hand i, s.queue i with
    | .empty, data :: rest =>
      if s.running i then
        some ({ s with queue := Function.update s.queue i rest }.setHand i (.popped data))
      else none
    | _, _ => none
  | .insert i =>
    match s.hand i with
    | .popped data => some ((s.insert data).setHand i (.inserted data))
    | _ => none
  | .post i =>
    match s.hand i with
    | .inserted data =>
      some ({ s with posts := Function.update s.posts data (s.posts data + 1) }.setHand i .empty)
    | _ => none
  | .response data => if s.posts data = 0 then none else some (s.responeCallBack data)
  | .checkCache timeout => some (s.checkCache sender timeout)

end Steps

section Fields

variable (s : PushClient ι ρ) (data : ρ) (i : ι) (hand : Hand ρ)

section Insert

variable [DecidableEq ρ]

@[simp] theorem insert_running : (s.insert data).running = s.running := by
  unfold insert; split <;> rfl

@[simp] theorem insert_queue : (s.insert data).queue = s.queue := by
  unfold insert; split <;> rfl

@[simp] theorem insert_hand : (s.insert data).hand = s.hand := by
  unfold insert; split <;> rfl

@[simp] theorem insert_sendTimes :
    (s.insert data).sendTimes = Function.update s.sendTimes data (s.sendTimes data + 1) := by
  unfold insert; split <;> rfl

@[simp] theorem insert_accepted : (s.insert data).accepted = s.accepted := by
  unfold insert; split <;> rfl

@[simp] theorem insert_posts : (s.insert data).posts = s.posts := by
  unfold insert; split <;> rfl

@[simp] theorem insert_notifies : (s.insert data).notifies = s.notifies := by
  unfold insert; split <;> rfl

@[simp] theorem insert_aborted : (s.insert data).aborted = s.aborted := by
  unfold insert; split <;> rfl

theorem insert_cacheMap (hfree : ¬ ∃ entry ∈ s.cacheMap, entry.1 = s.nextIndex) :
    (s.insert data).cacheMap = insertAt s.nextIndex data s.cacheMap := by
  rw [insert, if_neg hfree]

end Insert

variable [DecidableEq ι]

@[simp] theorem setHand_running : (s.setHand i hand).running = s.running := rfl

@[simp] theorem setHand_queue : (s.setHand i hand).queue = s.queue := rfl

@[simp] theorem setHand_hand : (s.setHand i hand).hand = Function.update s.hand i hand := rfl

@[simp] theorem setHand_cacheMap : (s.setHand i hand).cacheMap = s.cacheMap := rfl

@[simp] theorem setHand_sendTimes : (s.setHand i hand).sendTimes = s.sendTimes := rfl

@[simp] theorem setHand_accepted : (s.setHand i hand).accepted = s.accepted := rfl

@[simp] theorem setHand_posts : (s.setHand i hand).posts = s.posts := rfl

@[simp] theorem setHand_notifies : (s.setHand i hand).notifies = s.notifies := rfl

@[simp] theorem setHand_aborted : (s.setHand i hand).aborted = s.aborted := rfl

end Fields

/-- The request has been accepted, and is neither reported nor given up. -/
def live (s : PushClient ι ρ) (data : ρ) : Bool :=
  s.accepted data && s.notifies data == 0 && !s.aborted data

/-- What the clients rely on: a request is posted at most three times, its result is told once, and
until then it is in one place. -/
structure Books (sender : ρ → ι) (s : PushClient ι ρ) : Prop where
  own : ∀ entry ∈ s.cacheMap, s.mapIndex entry.2 = entry.1
  /-- A response does not delete the entry of another request. -/
  others : ∀ data, 0 < s.posts data → ∀ entry ∈ s.cacheMap, entry.2 ≠ data →
    entry ∈ (s.delete data).2.cacheMap
  posts : ∀ data, s.posts data ≤ 3
  notifies : ∀ data, s.notifies data ≤ 1
  placed : ∀ data, s.live data = true → data ∈ s.queue (sender data) ∨
    s.hand (sender data) = .popped data ∨ s.hand (sender data) = .inserted data ∨
    ∃ entry ∈ s.cacheMap, entry.2 = data

section Good

variable [DecidableEq ι] (sender : ρ → ι) (s : PushClient ι ρ)

/-- Those who have waited too long and are sent again. -/
def retried (timeout : ρ → Bool) (i : ι) : List ρ :=
  (s.timedOut timeout).filter fun data => sender data = i ∧ s.sendTimes data < 3

/-- The index of an insertion is not that of another request, and there is room for those that are
sent again. -/
def Good : Event ι ρ → Prop
  | .insert i => ∀ data, s.hand i = .popped data →
    ∀ data', data' ≠ data → 0 < s.sendTimes data' → s.mapIndex data' ≠ s.nextIndex
  | .checkCache timeout => ∀ i, (s.queue i).length + (s.retried sender timeout i).length ≤ maxQueueSize
  | _ => True

end Good

/-- Each entry is under the index of its request, and requests that were sent have indices of their
own. -/
structure Keys (s : PushClient ι ρ) : Prop where
  own : ∀ entry ∈ s.cacheMap, s.mapIndex entry.2 = entry.1
  sent : ∀ entry ∈ s.cacheMap, 0 < s.sendTimes entry.2
  unique : ∀ data data', 0 < s.sendTimes data → 0 < s.sendTimes data' →
    s.mapIndex data = s.mapIndex data' → data = data'

section Steps

variable {s : PushClient ι ρ} {data : ρ}

theorem Keys.eq_of_mem (h : s.Keys) {entry : ℤ × ρ} (hmem : entry ∈ s.cacheMap)
    (hsent : 0 < s.sendTimes data) (hindex : s.mapIndex data = entry.1) : entry.2 = data :=
  h.unique entry.2 data (h.sent entry hmem) hsent ((h.own entry hmem).trans hindex.symm)

/-- The index of an insertion is free if it is no index of another request. -/
theorem Keys.free (h : s.Keys) (hcached : ∀ entry ∈ s.cacheMap, entry.2 ≠ data)
    (hgood : ∀ data', data' ≠ data → 0 < s.sendTimes data' → s.mapIndex data' ≠ s.nextIndex) :
    ¬ ∃ entry ∈ s.cacheMap, entry.1 = s.nextIndex := by
  rintro ⟨entry, hmem, hindex⟩
  refine hgood entry.2 (hcached entry hmem) (h.sent entry hmem) ?_
  rw [h.own entry hmem, hindex]

theorem Keys.erase {s' : PushClient ι ρ} (h : s.Keys) (hmap : ∀ entry ∈ s'.cacheMap, entry ∈ s.cacheMap)
    (hindex : s'.mapIndex = s.mapIndex) (hsent : s'.sendTimes = s.sendTimes) : s'.Keys := by
  refine ⟨fun entry hmem => ?_, fun entry hmem => ?_, ?_⟩
  · rw [hindex, h.own entry (hmap entry hmem)]
  · rw [hsent]
    exact h.sent entry (hmap entry hmem)
  · rw [hindex, hsent]
    exact h.unique

variable [DecidableEq ρ]

/-- What is under the index of a request that was sent is the request itself. -/
theorem Keys.filter_eq (h : s.Keys) (hsent : 0 < s.sendTimes data) :
    s.cacheMap.filter (·.1 ≠ s.mapIndex data) = s.cacheMap.filter (·.2 ≠ data) := by
  refine List.filter_congr fun entry hmem => decide_eq_decide.mpr (not_congr ⟨?_, ?_⟩)
  · exact fun hindex => h.eq_of_mem hmem hsent hindex.symm
  · rintro rfl
    exact (h.own entry hmem).symm

theorem Keys.insert (h : s.Keys) (hcached : ∀ entry ∈ s.cacheMap, entry.2 ≠ data)
    (hgood : ∀ data', data' ≠ data → 0 < s.sendTimes data' → s.mapIndex data' ≠ s.nextIndex) :
    (s.insert data).Keys := by
  rw [PushClient.insert, if_neg (h.free hcached hgood)]
  have hcases : ∀ entry ∈ insertAt s.nextIndex data s.cacheMap,
      entry = (s.nextIndex, data) ∨ entry ∈ s.cacheMap := fun entry hmem =>
    List.mem_cons.mp ((perm_insertAt _ _ _).mem_iff.mp hmem)
  refine ⟨fun entry hmem => ?_, fun entry hmem => ?_, fun data₁ data₂ hsent₁ hsent₂ hindex => ?_⟩
  · obtain rfl | hold := hcases entry hmem
    · exact Function.update_self ..
    · exact (Function.update_of_ne (hcached entry hold) ..).trans (h.own entry hold)
  · obtain rfl | hold := hcases entry hmem
    · simp
    · simpa [Function.update_of_ne (hcached entry hold)] using h.sent entry hold
  · dsimp only at hsent₁ hsent₂ hindex
    by_cases h₁ : data₁ = data
    · by_cases h₂ : data₂ = data
      · rw [h₁, h₂]
      · subst h₁
        rw [Function.update_self, Function.update_of_ne h₂] at hindex
        rw [Function.update_of_ne h₂] at hsent₂
        exact absurd hindex.symm (hgood data₂ h₂ hsent₂)
    · by_cases h₂ : data₂ = data
      · subst h₂
        rw [Function.update_self, Function.update_of_ne h₁] at hindex
        rw [Function.update_of_ne h₁] at hsent₁
        exact absurd hindex (hgood data₁ h₁ hsent₁)
      · rw [Function.update_of_ne h₁, Function.update_of_ne h₂] at hindex
        rw [Function.update_of_ne h₁] at hsent₁
        rw [Function.update_of_ne h₂] at hsent₂
        exact h.unique data₁ data₂ hsent₁ hsent₂ hindex

end Steps

section Places

variable [DecidableEq ρ] (sender : ρ → ι) (s : PushClient ι ρ)

/-- How often the request is somewhere from where it is sent again, or in the cache. -/
def places (data : ρ) : Nat :=
  (s.queue (sender data)).count data + (if s.hand (sender data) = .popped data then 1 else 0) +
    (s.cacheMap.map Prod.snd).count data

/-- A live request is in one place, and any other in none. -/
structure Inv : Prop where
  keys : s.Keys
  places : ∀ data, s.places sender data = if s.live data then 1 else 0
  notifies : ∀ data, s.notifies data ≤ 1
  new : ∀ data, s.accepted data = false →
    s.notifies data = 0 ∧ s.aborted data = false ∧ s.sendTimes data = 0
  queued : ∀ i, ∀ data ∈ s.queue i, sender data = i ∧ s.sendTimes data < 3
  popped : ∀ i data, s.hand i = .popped data → sender data = i ∧ s.sendTimes data < 3
  inserted : ∀ i data, s.hand i = .inserted data → sender data = i ∧ s.posts data < s.sendTimes data
  posts : ∀ data, s.posts data ≤ s.sendTimes data
  times : ∀ data, s.sendTimes data ≤ 3
  cached : ∀ entry ∈ s.cacheMap, s.running (sender entry.2) = true
  handed : ∀ i, s.hand i ≠ .empty → s.running i = true

variable {sender s}

theorem Inv.live_of_mem (h : s.Inv sender) {data : ρ}
    (hmem : data ∈ s.queue (sender data) ∨ s.hand (sender data) = .popped data ∨
      ∃ entry ∈ s.cacheMap, entry.2 = data) : s.live data = true := by
  by_contra hlive
  have hnone : s.places sender data = 0 := by rw [h.places, if_neg hlive]
  rw [PushClient.places] at hnone
  obtain hqueue | hhand | ⟨entry, hentry, hdata⟩ := hmem
  · have := List.count_pos_iff.mpr hqueue
    omega
  · rw [if_pos hhand] at hnone
    omega
  · have := List.count_pos_iff.mpr (List.mem_map.mpr ⟨entry, hentry, hdata⟩)
    omega

/-- What a sender has just taken is neither in its queue nor in the cache. -/
theorem Inv.only_popped (h : s.Inv sender) {i : ι} {data : ρ} (hhand : s.hand i = .popped data) :
    (∀ j, data ∉ s.queue j) ∧ ∀ entry ∈ s.cacheMap, entry.2 ≠ data := by
  obtain ⟨rfl, -⟩ := h.popped i data hhand
  have hone : s.places sender data = 1 := by
    rw [h.places, if_pos (h.live_of_mem (.inr (.inl hhand)))]
  rw [PushClient.places, if_pos hhand] at hone
  refine ⟨fun j hqueue => ?_, fun entry hentry hdata => ?_⟩
  · obtain ⟨rfl, -⟩ := h.queued j data hqueue
    have := List.count_pos_iff.mpr hqueue
    omega
  · have := List.count_pos_iff.mpr (List.mem_map.mpr ⟨entry, hentry, hdata⟩)
    omega

theorem Inv.books (h : s.Inv sender) : s.Books sender where
  own := h.keys.own
  others data hposts entry hmem hother := by
    have hindex : entry.1 ≠ s.mapIndex data := fun hindex =>
      hother (h.keys.eq_of_mem hmem (hposts.trans_le (h.posts data)) hindex.symm)
    rw [delete]
    split
    · exact List.mem_filter.mpr ⟨hmem, decide_eq_true hindex⟩
    · exact hmem
  posts data := (h.posts data).trans (h.times data)
  notifies := h.notifies
  placed data hlive := by
    have hone : s.places sender data = 1 := by rw [h.places, if_pos hlive]
    rw [PushClient.places] at hone
    by_cases hqueue : data ∈ s.queue (sender data)
    · exact .inl hqueue
    · by_cases hhand : s.hand (sender data) = .popped data
      · exact .inr (.inl hhand)
      · rw [List.count_eq_zero_of_not_mem hqueue, if_neg hhand] at hone
        have hcache : 0 < (s.cacheMap.map Prod.snd).count data := by omega
        exact .inr (.inr (.inr (List.mem_map.mp (List.count_pos_iff.mp hcache))))

end Places

section Kept

variable [DecidableEq ρ] {sender : ρ → ι} {s : PushClient ι ρ}

theorem count_filter_ite (datas : List ρ) (p : ρ → Bool) (data : ρ) :
    (datas.filter p).count data = if p data then datas.count data else 0 := by
  by_cases hp : p data = true
  · rw [if_pos hp, List.count_filter hp]
  · rw [if_neg hp, List.count_eq_zero]
    exact fun hmem => hp (List.mem_filter.mp hmem).2

theorem count_filter_snd (map : List (ℤ × ρ)) (p : ρ → Bool) (data : ρ) :
    ((map.filter fun entry => p entry.2).map Prod.snd).count data =
      if p data then (map.map Prod.snd).count data else 0 := by
  rw [← count_filter_ite, List.filter_map]
  rfl

/-- A response that finds an entry reports it and takes it out of the cache. -/
theorem Inv.response (h : s.Inv sender) {data : ρ} (hposts : 0 < s.posts data) :
    Inv sender (s.responeCallBack data) := by
  have hsent : 0 < s.sendTimes data := hposts.trans_le (h.posts data)
  rw [responeCallBack, delete]
  by_cases hfound : ∃ entry ∈ s.cacheMap, entry.1 = s.mapIndex data
  · rw [if_pos hfound]
    obtain ⟨entry, hmem, hindex⟩ := hfound
    have hdata : entry.2 = data := h.keys.eq_of_mem hmem hsent hindex.symm
    have hlive : s.live data = true := h.live_of_mem (.inr (.inr ⟨entry, hmem, hdata⟩))
    have hnotifies : s.notifies data = 0 := by simp_all [live]
    have hold : ∀ entry ∈ s.cacheMap.filter (·.1 ≠ s.mapIndex data), entry ∈ s.cacheMap :=
      fun _ hmem => List.mem_of_mem_filter hmem
    refine { h with
      keys := h.keys.erase hold rfl rfl
      places := fun data' => ?_
      notifies := fun data' => ?_
      new := fun data' hnew => ?_
      cached := fun entry hmem => h.cached entry (hold entry hmem) }
    · have hplaces := h.places data'
      have hcount := count_filter_snd s.cacheMap (· ≠ data) data'
      dsimp only [PushClient.places] at hplaces ⊢
      rw [h.keys.filter_eq hsent]
      by_cases hdata' : data' = data
      · subst hdata'
        have hone : 0 < (s.cacheMap.map Prod.snd).count data' :=
          List.count_pos_iff.mpr (List.mem_map.mpr ⟨entry, hmem, hdata⟩)
        have hone' : (s.queue (sender data')).count data' = 0 ∧
            s.hand (sender data') ≠ .popped data' := by
          rw [if_pos hlive] at hplaces
          refine ⟨by omega, fun hhand => ?_⟩
          rw [if_pos hhand] at hplaces
          omega
        simp only [ne_eq, decide_not, decide_true, Bool.not_true, Bool.false_eq_true, if_false]
          at hcount
        simp [live, hone', hcount]
      · simp [hdata'] at hcount
        simpa [live, Function.update_of_ne hdata', hcount] using hplaces
    · by_cases hdata' : data' = data
      · simp [hdata', hnotifies]
      · simpa [Function.update_of_ne hdata'] using h.notifies data'
    · have hdata' : data' ≠ data := by
        rintro rfl
        simp_all [live]
      simpa [Function.update_of_ne hdata'] using h.new data' hnew
  · rw [if_neg hfound]
    exact h

variable [DecidableEq ι]

theorem Inv.run (h : s.Inv sender) (i : ι) :
    Inv sender { s with running := Function.update s.running i true } := by
  have hrunning : ∀ j, s.running j = true → Function.update s.running i true j = true := by
    intro j hj
    by_cases hij : j = i
    · rw [hij, Function.update_self]
    · rw [Function.update_of_ne hij, hj]
  exact { h with
    keys := h.keys.erase (fun _ hmem => hmem) rfl rfl
    cached := fun entry hmem => hrunning _ (h.cached entry hmem)
    handed := fun j hhand => hrunning j (h.handed j hhand) }

theorem Inv.addTask (h : s.Inv sender) {data : ρ} (hnew : s.accepted data = false) :
    Inv sender { s with
      queue := Function.update s.queue (sender data) (s.queue (sender data) ++ [data])
      accepted := Function.update s.accepted data true } := by
  obtain ⟨hnotifies, haborted, hsent⟩ := h.new data hnew
  have hnone : s.live data = false := by simp [live, hnew]
  refine { h with
    keys := h.keys.erase (fun _ hmem => hmem) rfl rfl
    places := fun data' => ?_
    new := fun data' hnew' => ?_
    queued := fun i data' hmem => ?_ }
  · have hplaces := h.places data'
    by_cases hdata : data' = data
    · subst hdata
      rw [hnone] at hplaces
      simp_all [PushClient.places, live]
    · have hlive : PushClient.live { s with
          queue := Function.update s.queue (sender data) (s.queue (sender data) ++ [data])
          accepted := Function.update s.accepted data true } data' = s.live data' := by
        simp [live, Function.update_of_ne hdata]
      rw [hlive, ← hplaces]
      by_cases hsender : sender data' = sender data
      · simp [PushClient.places, hsender, Ne.symm hdata]
      · simp [PushClient.places, Function.update_of_ne hsender]
  · by_cases hdata : data' = data
    · subst hdata
      simp at hnew'
    · exact h.new data' (by simpa [Function.update_of_ne hdata] using hnew')
  · by_cases hi : i = sender data
    · subst hi
      simp only [Function.update_self, List.mem_append, List.mem_singleton] at hmem
      obtain hold | rfl := hmem
      · exact h.queued _ data' hold
      · exact ⟨rfl, by rw [hsent]; decide⟩
    · simp only [Function.update_of_ne hi] at hmem
      exact h.queued i data' hmem

theorem Inv.pop (h : s.Inv sender) {i : ι} {data : ρ} {rest : List ρ} (hhand : s.hand i = .empty)
    (hqueue : s.queue i = data :: rest) (hrunning : s.running i = true) :
    Inv sender ({ s with queue := Function.update s.queue i rest }.setHand i (.popped data)) := by
  obtain ⟨hsender, hsent⟩ := h.queued i data (by rw [hqueue]; exact List.mem_cons_self)
  refine { h with
    keys := h.keys.erase (fun _ hmem => hmem) rfl rfl
    places := fun data' => ?_
    queued := fun j data' hmem => ?_
    popped := fun j data' hpopped => ?_
    inserted := fun j data' hinserted => ?_
    handed := fun j hj => ?_ }
  · refine Eq.trans ?_ (h.places data')
    by_cases hi : sender data' = i
    · simp only [PushClient.places, setHand_hand, setHand_queue, setHand_cacheMap, hi,
        Function.update_self, hqueue, hhand, List.count_cons, Hand.popped.injEq, beq_iff_eq,
          reduceCtorEq, if_false, Nat.add_zero]
    · simp [PushClient.places, Function.update_of_ne hi]
  · by_cases hj : j = i
    · subst hj
      simp only [setHand_queue, Function.update_self] at hmem
      exact h.queued j data' (by rw [hqueue]; exact List.mem_cons_of_mem _ hmem)
    · simp only [setHand_queue, Function.update_of_ne hj] at hmem
      exact h.queued j data' hmem
  · by_cases hj : j = i
    · subst hj
      simp only [setHand_hand, Function.update_self, Hand.popped.injEq] at hpopped
      exact hpopped ▸ ⟨hsender, hsent⟩
    · simp only [setHand_hand, Function.update_of_ne hj] at hpopped
      exact h.popped j data' hpopped
  · by_cases hj : j = i
    · subst hj
      simp at hinserted
    · simp only [setHand_hand, Function.update_of_ne hj] at hinserted
      exact h.inserted j data' hinserted
  · by_cases hij : j = i
    · exact hij ▸ hrunning
    · simp only [setHand_hand, Function.update_of_ne hij] at hj
      exact h.handed j hj

theorem Inv.insert (h : s.Inv sender) {i : ι} {data : ρ} (hhand : s.hand i = .popped data)
    (hgood : ∀ data', data' ≠ data → 0 < s.sendTimes data' → s.mapIndex data' ≠ s.nextIndex) :
    Inv sender ((s.insert data).setHand i (.inserted data)) := by
  obtain ⟨hqueue, hcache⟩ := h.only_popped hhand
  obtain ⟨hsender, hsent⟩ := h.popped i data hhand
  have hrunning : s.running i = true := h.handed i (by rw [hhand]; simp)
  have hmap : (s.insert data).cacheMap.Perm ((s.nextIndex, data) :: s.cacheMap) := by
    rw [insert_cacheMap s data (h.keys.free hcache hgood)]
    exact perm_insertAt ..
  refine {
    keys := (h.keys.insert hcache hgood).erase (fun _ hmem => hmem) rfl rfl
    places := fun data' => ?_
    notifies := by simpa using h.notifies
    new := fun data' hnew => ?_
    queued := fun j data' hmem => ?_
    popped := fun j data' hpopped => ?_
    inserted := fun j data' hinserted => ?_
    posts := fun data' => ?_
    times := fun data' => ?_
    cached := fun entry hmem => ?_
    handed := fun j hj => ?_ }
  · have hlive : ((s.insert data).setHand i (.inserted data)).live data' = s.live data' := by
      simp [live]
    have hcount := (hmap.map Prod.snd).count_eq data'
    rw [List.map_cons, List.count_cons] at hcount
    rw [hlive, ← h.places data']
    by_cases hi : sender data' = i
    · simp only [PushClient.places, setHand_hand, setHand_queue, setHand_cacheMap, insert_queue, hi,
        Function.update_self, hhand, hcount, Hand.popped.injEq, beq_iff_eq, reduceCtorEq, if_false]
      omega
    · have hdata : data ≠ data' := fun hdata => hi (hdata ▸ hsender)
      simp [PushClient.places, Function.update_of_ne hi, hcount, hdata]
  · have hdata : data' ≠ data := by
      rintro rfl
      have hlive : s.live data' = true := h.live_of_mem (.inr (.inl (hsender ▸ hhand)))
      simp_all [live]
    simpa [Function.update_of_ne hdata] using h.new data' (by simpa using hnew)
  · rw [setHand_queue, insert_queue] at hmem
    have hdata : data' ≠ data := fun hdata => hqueue j (hdata ▸ hmem)
    simpa [Function.update_of_ne hdata] using h.queued j data' hmem
  · have hj : j ≠ i := by
      rintro rfl
      simp at hpopped
    have hold := h.popped j data' (by simpa [Function.update_of_ne hj] using hpopped)
    have hdata : data' ≠ data := fun hdata => hj (by rw [← hold.1, hdata, hsender])
    simpa [Function.update_of_ne hdata] using hold
  · by_cases hj : j = i
    · subst hj
      have hdata : data = data' := by simpa using hinserted
      subst hdata
      exact ⟨hsender, by simpa [Nat.lt_succ_iff] using h.posts data⟩
    · have hold := h.inserted j data' (by simpa [Function.update_of_ne hj] using hinserted)
      have hdata : data' ≠ data := fun hdata => hj (by rw [← hold.1, hdata, hsender])
      simpa [Function.update_of_ne hdata] using hold
  · have hposts := h.posts data'
    by_cases hdata : data' = data
    · subst hdata
      simpa using hposts.trans (Nat.le_succ _)
    · simpa [Function.update_of_ne hdata] using hposts
  · by_cases hdata : data' = data
    · subst hdata
      rw [setHand_sendTimes, insert_sendTimes, Function.update_self]
      exact hsent
    · simpa [Function.update_of_ne hdata] using h.times data'
  · obtain rfl | hold := List.mem_cons.mp (hmap.mem_iff.mp hmem)
    · simpa [hsender] using hrunning
    · simpa using h.cached entry hold
  · by_cases hij : j = i
    · simpa [hij] using hrunning
    · simpa using h.handed j (by simpa [Function.update_of_ne hij] using hj)

theorem Inv.post (h : s.Inv sender) {i : ι} {data : ρ} (hhand : s.hand i = .inserted data) :
    Inv sender ({ s with posts := Function.update s.posts data (s.posts data + 1) }.setHand i
      .empty) := by
  obtain ⟨hsender, hposts⟩ := h.inserted i data hhand
  refine { h with
    keys := h.keys.erase (fun _ hmem => hmem) rfl rfl
    places := fun data' => ?_
    popped := fun j data' hpopped => ?_
    inserted := fun j data' hinserted => ?_
    posts := fun data' => ?_
    handed := fun j hj => ?_ }
  · refine Eq.trans ?_ (h.places data')
    by_cases hi : sender data' = i
    · simp [PushClient.places, hi, hhand]
    · simp [PushClient.places, Function.update_of_ne hi]
  · by_cases hj : j = i
    · subst hj
      simp at hpopped
    · simp only [setHand_hand, Function.update_of_ne hj] at hpopped
      exact h.popped j data' hpopped
  · by_cases hj : j = i
    · subst hj
      simp at hinserted
    · simp only [setHand_hand, Function.update_of_ne hj] at hinserted
      obtain ⟨hj', hless⟩ := h.inserted j data' hinserted
      have hdata : data' ≠ data := fun hdata => hj (by rw [← hj', hdata, hsender])
      exact ⟨hj', by simpa [Function.update_of_ne hdata] using hless⟩
  · by_cases hdata : data' = data
    · subst hdata
      simpa using Nat.succ_le_of_lt hposts
    · simpa [Function.update_of_ne hdata] using h.posts data'
  · by_cases hij : j = i
    · subst hij
      simp at hj
    · simp only [setHand_hand, Function.update_of_ne hij] at hj
      exact h.handed j hj

/-- Of those who have waited too long, some go back to the queues and the others are given up. -/
theorem foldl_checkCallBack {datas : List ρ} (s : PushClient ι ρ)
    (hrunning : ∀ data ∈ datas, s.running (sender data) = true)
    (hroom : ∀ i, (s.queue i).length +
      (datas.filter fun data => sender data = i ∧ s.sendTimes data < 3).length ≤ maxQueueSize) :
    datas.foldl (checkCallBack sender) s = { s with
      queue := fun i => s.queue i ++ datas.filter fun data => sender data = i ∧ s.sendTimes data < 3
      aborted := fun data => s.aborted data || decide (data ∈ datas ∧ 3 ≤ s.sendTimes data) } := by
  induction datas generalizing s with
  | nil => simp
  | cons data datas ih =>
    rw [List.foldl_cons]
    have hrunning' := fun data hmem => hrunning data (List.mem_cons_of_mem _ hmem)
    by_cases hsent : 3 ≤ s.sendTimes data
    · have hstep : s.checkCallBack sender data =
          { s with aborted := Function.update s.aborted data true } := if_pos hsent
      have hskip : ∀ i, (data :: datas).filter (fun data => sender data = i ∧ s.sendTimes data < 3) =
          datas.filter fun data => sender data = i ∧ s.sendTimes data < 3 := fun i =>
        List.filter_cons_of_neg (by simp only [decide_eq_true_eq]; omega)
      simp only [hskip] at hroom ⊢
      rw [hstep, ih]
      case hrunning => exact hrunning'
      case hroom => exact hroom
      congr 1
      funext data'
      by_cases hdata : data' = data
      · simp [hdata, hsent]
      · simp [hdata]
    · have hless : s.sendTimes data < 3 := Nat.lt_of_not_le hsent
      have hkept : (data :: datas).filter (fun data' => sender data' = sender data ∧
          s.sendTimes data' < 3) = data :: datas.filter fun data' => sender data' = sender data ∧
          s.sendTimes data' < 3 := List.filter_cons_of_pos (by simp [hless])
      have hspace : (s.queue (sender data)).length < maxQueueSize := by
        have := hroom (sender data)
        rw [hkept, List.length_cons] at this
        omega
      have hstep : s.checkCallBack sender data = { s with
          queue := Function.update s.queue (sender data) (s.queue (sender data) ++ [data]) } := by
        rw [checkCallBack, if_neg hsent, PushClient.addTask,
          if_pos ⟨hrunning data List.mem_cons_self, hspace⟩]
      rw [hstep, ih]
      case hrunning => exact hrunning'
      case hroom =>
        intro i
        have hold := hroom i
        by_cases hi : i = sender data
        · subst hi
          rw [hkept, List.length_cons] at hold
          simp only [Function.update_self, List.length_append, List.length_singleton]
          omega
        · rw [List.filter_cons_of_neg (by simp [Ne.symm hi])] at hold
          simpa [Function.update_of_ne hi] using hold
      congr 1
      · funext i
        by_cases hi : i = sender data
        · subst hi
          rw [hkept]
          simp
        · rw [List.filter_cons_of_neg (by simp [Ne.symm hi])]
          simp [Function.update_of_ne hi]
      · funext data'
        by_cases hdata : data' = data
        · simp [hdata, hsent]
        · simp [hdata]

theorem Inv.checkCache_eq (h : s.Inv sender) {timeout : ρ → Bool}
    (hgood : ∀ i, (s.queue i).length + (s.retried sender timeout i).length ≤ maxQueueSize) :
    s.checkCache sender timeout = { s with
      queue := fun i => s.queue i ++ s.retried sender timeout i
      aborted := fun data => s.aborted data || decide (data ∈ s.timedOut timeout ∧ 3 ≤ s.sendTimes data)
      cacheMap := s.cacheMap.filter fun entry => !timeout entry.2 } := by
  have hrunning : ∀ data ∈ s.timedOut timeout, s.running (sender data) = true := by
    intro data hmem
    obtain ⟨entry, hentry, rfl⟩ := List.mem_map.mp (List.mem_of_mem_filter hmem)
    exact h.cached entry hentry
  rw [PushClient.checkCache, foldl_checkCallBack s hrunning hgood]
  rfl

/-- Those who have waited too long are in the queues again, or given up. -/
theorem Inv.checkCache (h : s.Inv sender) {timeout : ρ → Bool}
    (hgood : ∀ i, (s.queue i).length + (s.retried sender timeout i).length ≤ maxQueueSize) :
    Inv sender (s.checkCache sender timeout) := by
  have hold : ∀ entry ∈ s.cacheMap.filter (fun entry => !timeout entry.2), entry ∈ s.cacheMap :=
    fun _ hmem => List.mem_of_mem_filter hmem
  have hlive : ∀ data, (s.checkCache sender timeout).live data =
      (s.live data && !decide (data ∈ s.timedOut timeout ∧ 3 ≤ s.sendTimes data)) := by
    intro data
    simp only [h.checkCache_eq hgood, live, Bool.not_or, Bool.and_assoc]
  have hplaces : ∀ data, (s.checkCache sender timeout).places sender data +
      (s.timedOut timeout).count data = s.places sender data +
        (s.retried sender timeout (sender data)).count data := by
    intro data
    have htimedOut : (s.timedOut timeout).count data =
        if timeout data then (s.cacheMap.map Prod.snd).count data else 0 := count_filter_ite ..
    have hcount := count_filter_snd s.cacheMap (fun data => !timeout data) data
    simp only [h.checkCache_eq hgood, PushClient.places, List.count_append, hcount, htimedOut]
    cases timeout data <;> simp <;> omega
  have hretried : ∀ data, (s.retried sender timeout (sender data)).count data =
      if s.sendTimes data < 3 then (s.timedOut timeout).count data else 0 := by
    intro data
    rw [retried, count_filter_ite]
    simp
  have hall : ∀ data, (s.checkCache sender timeout).places sender data =
      if (s.checkCache sender timeout).live data then 1 else 0 := by
    intro data
    have hbefore := h.places data
    have hafter := hplaces data
    rw [hretried] at hafter
    by_cases hgone : data ∈ s.timedOut timeout ∧ 3 ≤ s.sendTimes data
    · have hmem := List.count_pos_iff.mpr hgone.1
      rw [hlive, decide_eq_true hgone, Bool.not_true, Bool.and_false]
      rw [if_neg (Nat.not_lt_of_le hgone.2)] at hafter
      split at hbefore <;> simp <;> omega
    · rw [hlive, decide_eq_false hgone, Bool.not_false, Bool.and_true, ← hbefore]
      by_cases hsent : s.sendTimes data < 3
      · rw [if_pos hsent] at hafter
        omega
      · have hnone : (s.timedOut timeout).count data = 0 := List.count_eq_zero_of_not_mem fun hmem =>
          hgone ⟨hmem, Nat.le_of_not_lt hsent⟩
        rw [if_neg hsent, hnone] at hafter
        exact hafter
  rw [h.checkCache_eq hgood] at hall ⊢
  refine { h with
    keys := h.keys.erase hold rfl rfl
    places := hall
    new := fun data hnew => ?_
    queued := fun i data hmem => ?_
    cached := fun entry hmem => h.cached entry (hold entry hmem) }
  · obtain ⟨hnotifies, haborted, hsent⟩ := h.new data hnew
    exact ⟨hnotifies, by simp [haborted, hsent], hsent⟩
  · obtain hmem | hmem := List.mem_append.mp hmem
    · exact h.queued i data hmem
    · simpa using (List.mem_filter.mp hmem).2

theorem Inv.step {s' : PushClient ι ρ} {e : Event ι ρ} (h : s.Inv sender) (hgood : Good sender s e)
    (hstep : s.step sender e = some s') : s'.Inv sender := by
  cases e with
  | run i =>
    cases hstep
    exact h.run i
  | addTask data =>
    rw [PushClient.step, PushClient.addTask] at hstep
    by_cases hnew : s.accepted data = true
    · simp [hnew] at hstep
    · by_cases hroom : s.running (sender data) = true ∧
          (s.queue (sender data)).length < maxQueueSize
      · rw [if_neg hnew, if_pos hroom] at hstep
        cases hstep
        exact h.addTask (Bool.not_eq_true _ ▸ hnew)
      · rw [if_neg hnew, if_neg hroom] at hstep
        cases hstep
        exact h
  | pop i =>
    simp only [PushClient.step] at hstep
    split at hstep
    · split at hstep
      · cases hstep
        exact h.pop ‹_› ‹_› ‹_›
      · cases hstep
    · cases hstep
  | insert i =>
    simp only [PushClient.step] at hstep
    split at hstep
    · cases hstep
      exact h.insert ‹_› (hgood _ ‹_›)
    · cases hstep
  | post i =>
    simp only [PushClient.step] at hstep
    split at hstep
    · cases hstep
      exact h.post ‹_›
    · cases hstep
  | response data =>
    rw [PushClient.step, Option.ite_none_left_eq_some] at hstep
    cases hstep.2
    exact h.response (Nat.pos_of_ne_zero hstep.1)
  | checkCache timeout =>
    cases hstep
    exact h.checkCache hgood

end Kept

/-- A client before the first request. The senders that run may do so already, and a request has
no index yet. -/
def start (running : ι → Bool) (mapIndex : ρ → ℤ) : PushClient ι ρ := { running, mapIndex }

theorem inv_start [DecidableEq ρ] (sender : ρ → ι) (running : ι → Bool) (mapIndex : ρ → ℤ) :
    Inv sender (start running mapIndex) where
  keys := ⟨List.forall_mem_nil _, List.forall_mem_nil _, fun _ _ h => absurd h (lt_irrefl 0)⟩
  places _ := rfl
  notifies _ := Nat.zero_le 1
  new _ _ := ⟨rfl, rfl, rfl⟩
  queued _ := List.forall_mem_nil _
  popped _ _ h := by simp [start] at h
  inserted _ _ h := by simp [start] at h
  posts _ := Nat.zero_le 0
  times _ := Nat.zero_le 3
  cached := List.forall_mem_nil _
  handed _ h := absurd rfl h

/-- In a run whose insertions get indices of their own the books are right. -/
theorem books_of_good [DecidableEq ι] [DecidableEq ρ] {sender : ρ → ι} {running : ι → Bool}
    {mapIndex : ρ → ℤ} {s : PushClient ι ρ}
    (h : Run.Reaches (step sender) (Good sender) (start running mapIndex) s) : s.Books sender :=
  (h.invariant (Inv sender) (inv_start sender running mapIndex) fun _ _ _ hinv hgood hstep =>
    hinv.step hgood hstep).books

section Runs

variable [DecidableEq ι] [DecidableEq ρ] [Fintype ι] [Fintype ρ]

instance decidableGood (sender : ρ → ι) (s : PushClient ι ρ) :
    (e : Event ι ρ) → Decidable (Good sender s e)
  | .insert i => inferInstanceAs (Decidable (∀ data, s.hand i = .popped data →
      ∀ data', data' ≠ data → 0 < s.sendTimes data' → s.mapIndex data' ≠ s.nextIndex))
  | .checkCache timeout => inferInstanceAs (Decidable (∀ i,
      (s.queue i).length + (s.retried sender timeout i).length ≤ maxQueueSize))
  | .run _ | .addTask _ | .pop _ | .post _ | .response _ => .isTrue trivial

end Runs

/-- A request times out and is sent again, another is answered, and then the first answer to the
first one comes. -/
def sentAgain : List (Event Unit Bool) :=
  [.run (), .addTask true, .pop (), .insert (), .post (), .addTask false, .pop (), .insert (),
    .checkCache id, .post (), .response false, .pop (), .response true, .insert (), .response true,
    .post (), .response true]

theorem books_of_good_sentAgain :
    ((Run.runGood (step fun _ => ()) (Good fun _ => ()) (start (fun _ => false) fun _ => 0)
        sentAgain).map fun s => (s.posts true, s.notifies true, s.notifies false, s.cacheMap)) =
        some (2, 1, 1, []) ∧
      ∀ s ∈ Run.runGood (step fun _ => ()) (Good fun _ => ()) (start (fun _ => false) fun _ => 0)
        sentAgain, s.Books fun _ => () :=
  ⟨by decide, fun _ hrun => books_of_good (Run.reaches_of_runGood hrun)⟩

/-- Nothing is on its way, the index of the next insertion is `k + 1`, and the requests from `n` on
have not been accepted. -/
structure Idle (n : Nat) (k : ℤ) (s : PushClient Unit Nat) : Prop where
  running : s.running () = true
  queue : s.queue () = []
  hand : s.hand () = .empty
  cacheMap : s.cacheMap = []
  index : s.index = k
  new : ∀ data, n ≤ data → s.accepted data = false

/-- The request `n` has been entered into the cache. -/
def cached (n : Nat) (k : ℤ) (s : PushClient Unit Nat) : PushClient Unit Nat :=
  { s with
    queue := fun _ => []
    hand := fun _ => .inserted n
    index := if 0x7ffffffd < k + 1 then 0 else k + 1
    cacheMap := [(k + 1, n)]
    mapIndex := Function.update s.mapIndex n (k + 1)
    sendTimes := Function.update s.sendTimes n (s.sendTimes n + 1)
    accepted := Function.update s.accepted n true }

/-- The request `n` has been posted and answered, so that its sender has nothing in hand. -/
def answered (n : Nat) (k : ℤ) (s : PushClient Unit Nat) : PushClient Unit Nat :=
  { s.cached n k with
    hand := fun _ => .empty
    cacheMap := []
    posts := Function.update s.posts n (s.posts n + 1)
    notifies := Function.update s.notifies n (s.notifies n + 1) }

section Idle

variable {n : Nat} {k : ℤ} {s : PushClient Unit Nat}

theorem update_unit {α : Type} (f : Unit → α) (a : α) : Function.update f () a = fun _ => a :=
  funext fun _ => Function.update_self ..

theorem Idle.run_cached (h : Idle n k s) (hk : 0 ≤ k ∧ k ≤ 0x7ffffffd) :
    Run.run (step fun _ => ()) s [.addTask n, .pop (), .insert ()] = some (s.cached n k) := by
  have hnext : (s.index + 1).bmod (2 ^ 32) = k + 1 := by
    rw [h.index]
    exact Int.bmod_eq_of_le (by omega) (by omega)
  refine Run.run_cons.mpr ⟨{ s with
    queue := fun _ => [n]
    accepted := Function.update s.accepted n true }, ?_, ?_⟩
  · simp [step, addTask, h.running, h.queue, h.new n le_rfl, maxQueueSize, update_unit]
  refine Run.run_cons.mpr ⟨{ s with
    queue := fun _ => []
    accepted := Function.update s.accepted n true
    hand := fun _ => .popped n }, ?_, ?_⟩
  · simp [step, h.running, h.hand, setHand, update_unit]
  refine Run.run_cons.mpr ⟨s.cached n k, ?_, rfl⟩
  simp only [step, insert, h.cacheMap, nextIndex, hnext, insertAt, setHand, update_unit, cached]
  simp

theorem Idle.run_answered (h : Idle n k s) (hk : 0 ≤ k ∧ k ≤ 0x7ffffffd) :
    Run.run (step fun _ => ()) s [.addTask n, .pop (), .insert (), .post (), .response n] =
      some (s.answered n k) := by
  refine Run.run_append.mpr ⟨_, h.run_cached hk, ?_⟩
  simp [Run.run, step, cached, answered, setHand, update_unit, responeCallBack, delete]

theorem Idle.answered (h : Idle n k s) :
    Idle (n + 1) (if 0x7ffffffd < k + 1 then 0 else k + 1) (s.answered n k) where
  running := h.running
  queue := rfl
  hand := rfl
  cacheMap := rfl
  index := rfl
  new data hdata :=
    (Function.update_of_ne (Nat.ne_of_gt hdata) ..).trans (h.new data (Nat.le_of_succ_le hdata))

end Idle

theorem idle_start : Idle 0 0 (start (fun _ => true) fun _ => 0) :=
  ⟨rfl, rfl, rfl, rfl, rfl, fun _ _ => rfl⟩

theorem exists_idle (n : Nat) (hn : n < 0x7ffffffd) :
    ∃ events s, Run.run (step fun _ => ()) (start (fun _ => true) fun _ => 0) events = some s ∧
      Idle (n + 1) (n + 1) s ∧ s.posts 0 = 1 ∧ s.mapIndex 0 = 1 := by
  induction n with
  | zero =>
    exact ⟨_, _, idle_start.run_answered (by decide), idle_start.answered, rfl, rfl⟩
  | succ n ih =>
    obtain ⟨events, s, hrun, hidle, hposts, hindex⟩ := ih (Nat.lt_of_succ_lt hn)
    refine ⟨_, _, Run.run_append.mpr ⟨s, hrun, hidle.run_answered (by omega)⟩, ?_, ?_, ?_⟩
    · have hnext := hidle.answered
      rw [if_neg (by omega)] at hnext
      exact_mod_cast hnext
    · simpa [PushClient.answered, cached] using hposts
    · simpa [PushClient.answered, cached] using hindex

/-- If the first insertion after the restart of the counter is under the index of the request `0`,
another answer to that one deletes the entry of the new one. -/
theorem not_books_cached {n : Nat} {s : PushClient Unit Nat} (hn : n ≠ 0) (hposts : s.posts 0 = 1)
    (hindex : s.mapIndex 0 = 1) : ¬ (s.cached n 0).Books fun _ => () := by
  intro hbooks
  have hposted : 0 < (s.cached n 0).posts 0 := hposts.symm ▸ Nat.one_pos
  have hkept := hbooks.others 0 hposted (1, n) List.mem_cons_self hn
  have hfound : (s.cached n 0).mapIndex 0 = 1 := (Function.update_of_ne hn.symm ..).trans hindex
  rw [delete, if_pos ⟨(1, n), List.mem_cons_self, hfound.symm⟩, hfound] at hkept
  simp at hkept

theorem not_books_kept : ¬ ∀ events s,
    Run.run (step fun _ => ()) (start (fun _ => true) fun _ => 0) events = some s →
      s.Books fun _ : Nat => () := by
  intro hkept
  obtain ⟨events, s, hrun, hidle, hposts, hindex⟩ := exists_idle 0x7ffffffc (by decide)
  have hlast := hidle.run_answered (by decide)
  have hrestart := hidle.answered
  rw [if_pos (by decide)] at hrestart
  refine not_books_cached (Nat.succ_ne_zero _) ?_ ?_ (hkept _ _ (Run.run_append.mpr
    ⟨_, Run.run_append.mpr ⟨s, hrun, hlast⟩, hrestart.run_cached (by decide)⟩))
  · simpa [answered, cached] using hposts
  · simpa [answered, cached] using hindex

end PushClient

end ImServer
