import ImServer.Lib.Pages
import ImServer.WsSvr.CustSessions

/-!
# Pages of an agent's history

An agent asks for his processed sessions in pages (`CCustWebTask::sessionPullHandler` in
wsSvr/custWebTask.cpp). The store is asked for one record more than a page has, and the answer says
whether the page is the last one (wsSvr/mod_mongodb/custDataMgr.cpp). The number and the size of the
page come from the request as `int` and are `uint32_t` from there on.

A number that is no `int` is an exception, and the query succeeds.
-/

namespace ImServer

/-- `Json::Value::asInt` of an integer. -/
def asInt (value : ℤ) : Option Int32 :=
  if -2 ^ 31 ≤ value ∧ value < 2 ^ 31 then some (Int32.ofInt value) else none

structure UserInfo where
  nickName : List UInt8
  headPixel : List UInt8
  deriving DecidableEq, Repr

/-- A session in the answer. -/
structure SessionItem where
  userId : List UInt8
  nickName : List UInt8
  headPixel : List UInt8
  msgContent : List UInt8
  msgTime : UInt64
  deriving DecidableEq, Repr

structure SessionPullAck where
  lastPageFlag : UInt32
  sessionList : List SessionItem
  deriving DecidableEq, Repr

namespace CustSessions

/-- The records that the store is asked to pass over. -/
def skip (pageInDex pageSize : UInt32) : UInt32 := (pageInDex - 1) * pageSize

/-- One record more, to see whether there is another page. -/
def pageLimit (pageSize : UInt32) : UInt32 := pageSize + 1

def sessionItem (getUserInfo : List UInt8 → UserInfo) (rec : CCustBase) : SessionItem where
  userId := rec.userId
  nickName := (getUserInfo rec.userId).nickName
  headPixel := (getUserInfo rec.userId).headPixel
  msgContent := rec.lastMsg
  msgTime := UInt64.ofInt rec.lastMsgTime

variable (s : CustSessions) (custId serviceId : List UInt8)

/-- The documents of an agent and a service, in the order in which the store gives them. -/
def history : List CCustBase :=
  s.custProcessed.filter fun rec => rec.custId = custId ∧ rec.serviceId = serviceId

/-- The last message first. -/
def sortedHistory : List CCustBase :=
  (s.history custId serviceId).insertionSort fun rec rec' => rec'.lastMsgTime ≤ rec.lastMsgTime

def getCustProcessedsByPage (pageInDex pageSize : UInt32) : List CCustBase :=
  limit (pageLimit pageSize)
    ((s.sortedHistory custId serviceId).drop (skip pageInDex pageSize).toNat)

def sessionPullHandler (getUserInfo : List UInt8 → UserInfo) (pageIndex pageSize : ℤ) :
    Option SessionPullAck := do
  let pageInDex := (← asInt pageIndex).toUInt32
  let pageSize := (← asInt pageSize).toUInt32
  let custProcessedRecs := s.getCustProcessedsByPage custId serviceId pageInDex pageSize
  let size := UInt32.ofNat custProcessedRecs.length
  some {
    lastPageFlag := if size > pageSize then 0 else 1
    sessionList := (custProcessedRecs.take pageSize.toNat).map (sessionItem getUserInfo) }

/-- The answers `ack` to the requests for the pages up to the one with the number `last`. The first
page has the number zero here. -/
structure Paged (getUserInfo : List UInt8 → UserInfo) (pageSize : ℤ) (last : ℕ)
    (ack : ℕ → SessionPullAck) : Prop where
  answered : ∀ n ≤ last,
    s.sessionPullHandler custId serviceId getUserInfo (n + 1) pageSize = some (ack n)
  flagged : ∀ n ≤ last, (ack n).lastPageFlag = if n = last then 1 else 0
  once : ∃ recs : List CCustBase, recs.Perm (s.history custId serviceId) ∧
    recs.Pairwise (fun rec rec' => rec'.lastMsgTime < rec.lastMsgTime) ∧
    ((List.range (last + 1)).map fun n => (ack n).sessionList).flatten =
      recs.map (sessionItem getUserInfo)
  filled : (ack last).sessionList = [] → last = 0 ∧ s.history custId serviceId = []

/-- The store is asked for what the request says: neither the number to skip nor the limit wraps
around. -/
def NoWrap (pageIndex pageSize : ℤ) : Prop :=
  ∀ pageInDex ∈ asInt pageIndex, ∀ size ∈ asInt pageSize,
    ((skip pageInDex.toUInt32 size.toUInt32).toNat : ℤ) = (pageIndex - 1) * pageSize ∧
      ((pageLimit size.toUInt32).toNat : ℤ) = pageSize + 1

theorem asInt_eq_some_iff {value : ℤ} {n : Int32} :
    asInt value = some n ↔ (-2 ^ 31 ≤ value ∧ value < 2 ^ 31) ∧ n.toInt = value := by
  rw [asInt]
  split
  · next hrange =>
    rw [Option.some.injEq]
    have hvalue : (Int32.ofInt value).toInt = value :=
      Int32.toInt_ofInt_of_le hrange.1 hrange.2
    constructor
    · rintro rfl
      exact ⟨hrange, hvalue⟩
    · rintro ⟨-, hn⟩
      exact Int32.toInt_inj.mp (hvalue.trans hn.symm)
  · next hrange => exact ⟨fun h => absurd h (by simp), fun h => absurd h.1 hrange⟩

theorem toNat_toUInt32 (n : Int32) : (n.toUInt32.toNat : ℤ) = n.toInt % 2 ^ 32 := by
  have hcond := BitVec.toInt_eq_toNat_cond n.toBitVec
  have hlt : n.toUInt32.toNat < 2 ^ 32 := UInt32.toNat_lt _
  have hint : n.toInt = n.toBitVec.toInt := rfl
  have hnat : n.toUInt32.toNat = n.toBitVec.toNat := rfl
  rw [hnat] at hlt ⊢
  rw [hint, hcond]
  split <;> omega

theorem toNat_skip (pageInDex size : Int32) :
    ((skip pageInDex.toUInt32 size.toUInt32).toNat : ℤ) =
      (pageInDex.toInt - 1) * size.toInt % 2 ^ 32 := by
  have hindex : ((pageInDex.toUInt32 - 1).toNat : ℤ) = (pageInDex.toInt - 1) % 2 ^ 32 := by
    have hnat := toNat_toUInt32 pageInDex
    have hone : (1 : UInt32).toNat = 1 := rfl
    rw [UInt32.toNat_sub, hone]
    omega
  rw [skip, UInt32.toNat_mul, Int.natCast_mod, Int.natCast_mul, hindex, toNat_toUInt32]
  exact (Int.mul_emod ..).symm

theorem toNat_pageLimit (size : Int32) :
    ((pageLimit size.toUInt32).toNat : ℤ) = (size.toInt + 1) % 2 ^ 32 := by
  have hnat := toNat_toUInt32 size
  have hone : (1 : UInt32).toNat = 1 := rfl
  rw [pageLimit, UInt32.toNat_add, hone]
  omega

/-- A product that is negative or too large wraps, and so does the limit of a size below -1. -/
theorem noWrap_iff (pageIndex pageSize : ℤ) : NoWrap pageIndex pageSize ↔
    ((asInt pageIndex).isSome → (asInt pageSize).isSome →
      0 ≤ (pageIndex - 1) * pageSize ∧ (pageIndex - 1) * pageSize < 2 ^ 32 ∧ -1 ≤ pageSize) := by
  have hwrap : ∀ {pageInDex size : Int32}, asInt pageIndex = some pageInDex →
      asInt pageSize = some size →
      ((((skip pageInDex.toUInt32 size.toUInt32).toNat : ℤ) = (pageIndex - 1) * pageSize ∧
        ((pageLimit size.toUInt32).toNat : ℤ) = pageSize + 1) ↔
      0 ≤ (pageIndex - 1) * pageSize ∧ (pageIndex - 1) * pageSize < 2 ^ 32 ∧ -1 ≤ pageSize) := by
    intro pageInDex size hindex hsize
    obtain ⟨-, hindex⟩ := asInt_eq_some_iff.mp hindex
    obtain ⟨hrange, hsize⟩ := asInt_eq_some_iff.mp hsize
    rw [toNat_skip, toNat_pageLimit, hindex, hsize]
    generalize (pageIndex - 1) * pageSize = product
    omega
  constructor
  · intro h hindex hsize
    obtain ⟨pageInDex, hindex⟩ := Option.isSome_iff_exists.mp hindex
    obtain ⟨size, hsize⟩ := Option.isSome_iff_exists.mp hsize
    exact (hwrap hindex hsize).mp (h pageInDex hindex size hsize)
  · intro h pageInDex hindex size hsize
    exact (hwrap hindex hsize).mpr
      (h (Option.isSome_of_mem hindex) (Option.isSome_of_mem hsize))

section Answers

variable {s : CustSessions} {custId serviceId : List UInt8} {getUserInfo : List UInt8 → UserInfo}
  {size n : ℕ}

theorem sessionPullHandler_eq (hsize : 0 < size) (hint : size < 2 ^ 31) (hn : n + 1 < 2 ^ 31) :
    s.sessionPullHandler custId serviceId getUserInfo (n + 1) size = some {
      lastPageFlag :=
        if size < (s.history custId serviceId).length - n * size % 2 ^ 32 then 0 else 1
      sessionList := (((s.sortedHistory custId serviceId).drop (n * size % 2 ^ 32)).take size).map
        (sessionItem getUserInfo) } := by
  obtain ⟨pageInDex, hindex⟩ : ∃ pageInDex, asInt (n + 1) = some pageInDex := by
    rw [asInt, if_pos (by omega)]
    exact ⟨_, rfl⟩
  obtain ⟨pageSize, hpageSize⟩ : ∃ pageSize, asInt size = some pageSize := by
    rw [asInt, if_pos (by omega)]
    exact ⟨_, rfl⟩
  obtain ⟨-, hindexInt⟩ := asInt_eq_some_iff.mp hindex
  obtain ⟨-, hsizeInt⟩ := asInt_eq_some_iff.mp hpageSize
  have hskip : (skip pageInDex.toUInt32 pageSize.toUInt32).toNat = n * size % 2 ^ 32 := by
    have h := toNat_skip pageInDex pageSize
    rw [hindexInt, hsizeInt, add_sub_cancel_right] at h
    exact_mod_cast h
  have hlimit : (pageLimit pageSize.toUInt32).toNat = size + 1 := by
    have h := toNat_pageLimit pageSize
    omega
  have hnat : pageSize.toUInt32.toNat = size := by
    have h := toNat_toUInt32 pageSize
    omega
  have hne : pageLimit pageSize.toUInt32 ≠ 0 := by
    intro h
    rw [h] at hlimit
    exact absurd hlimit (Nat.succ_ne_zero size).symm
  have hlength : (s.sortedHistory custId serviceId).length = (s.history custId serviceId).length :=
    List.length_insertionSort ..
  have hflag : UInt32.ofNat (((s.sortedHistory custId serviceId).drop (n * size % 2 ^ 32)).take
      (size + 1)).length > pageSize.toUInt32 ↔
      size < (s.history custId serviceId).length - n * size % 2 ^ 32 := by
    rw [gt_iff_lt, UInt32.lt_iff_toNat_lt, hnat, UInt32.toNat_ofNat', List.length_take,
      List.length_drop, hlength, Nat.mod_eq_of_lt (by omega)]
    omega
  simp only [sessionPullHandler, hindex, hpageSize, Option.bind_eq_bind, Option.bind_some,
    getCustProcessedsByPage, limit, hne, if_false, hskip, hlimit, hflag, hnat, List.take_take,
    Nat.min_eq_left (Nat.le_succ size)]

variable {last : ℕ} {ack : ℕ → SessionPullAck}

/-- Without wrapping the answers are the pages of the sorted history. -/
theorem paged_of_le (hsize : 0 < size) (hint : size < 2 ^ 31)
    (hdistinct : ((s.history custId serviceId).map CCustBase.lastMsgTime).Nodup)
    (hlast : Pages.last size (s.sortedHistory custId serviceId) = last) (hindex : last + 1 < 2 ^ 31)
    (hskip : last * size < 2 ^ 32) :
    s.Paged custId serviceId getUserInfo size last fun n =>
      { lastPageFlag := if n = last then 1 else 0
        sessionList := (Pages.page size (s.sortedHistory custId serviceId) n).map
          (sessionItem getUserInfo) } := by
  have hperm : (s.sortedHistory custId serviceId).Perm (s.history custId serviceId) :=
    List.perm_insertionSort ..
  refine ⟨fun n hn => ?_, fun n _ => rfl, ⟨_, hperm, ?_, ?_⟩, fun hnil => ?_⟩
  · have hmod : n * size % 2 ^ 32 = n * size :=
      Nat.mod_eq_of_lt (lt_of_le_of_lt (Nat.mul_le_mul_right size hn) hskip)
    have hahead : size < (Pages.ahead size (s.sortedHistory custId serviceId) n).length ↔
        n < Pages.last size (s.sortedHistory custId serviceId) := Pages.lt_length_ahead_iff hsize
    rw [Pages.length_ahead, hlast, hperm.length_eq] at hahead
    have hflag : size < (s.history custId serviceId).length - n * size ↔ n ≠ last := by omega
    rw [sessionPullHandler_eq hsize hint (by omega), hmod]
    simp only [hflag, ne_eq, ite_not, Pages.page]
  · have hsorted : (s.sortedHistory custId serviceId).Pairwise fun rec rec' =>
        rec'.lastMsgTime ≤ rec.lastMsgTime := List.pairwise_insertionSort ..
    have hnodup : ((s.sortedHistory custId serviceId).map CCustBase.lastMsgTime).Nodup :=
      (hperm.map _).nodup_iff.mpr hdistinct
    exact (hsorted.and (List.pairwise_map.mp hnodup)).imp fun h => lt_of_le_of_ne h.1 h.2.symm
  · have hmap : ((List.range (last + 1)).map fun n =>
        (Pages.page size (s.sortedHistory custId serviceId) n).map (sessionItem getUserInfo)) =
        ((List.range (last + 1)).map (Pages.page size (s.sortedHistory custId serviceId))).map
          (List.map (sessionItem getUserInfo)) := (List.map_map ..).symm
    rw [hmap, ← List.map_flatten, ← hlast, Pages.flatten_all hsize]
  · rw [List.map_eq_nil_iff, ← hlast, Pages.page_last_eq_nil_iff hsize] at hnil
    exact ⟨hlast ▸ Pages.last_of_nil hsize hnil, List.nil_perm.mp (hnil ▸ hperm)⟩

theorem Paged.last_eq (h : s.Paged custId serviceId getUserInfo size last ack) (hsize : 0 < size)
    (hint : size < 2 ^ 31) (hindex : last + 1 < 2 ^ 31) :
    Pages.last size (s.sortedHistory custId serviceId) = last ∧ last * size < 2 ^ 32 := by
  have hanswer : ∀ n ≤ last, ack n = _ := fun n hn =>
    Option.some.inj ((h.answered n hn).symm.trans (sessionPullHandler_eq hsize hint (by omega)))
  have hperm : (s.sortedHistory custId serviceId).length = (s.history custId serviceId).length :=
    List.length_insertionSort ..
  have hlength : ∀ n ≤ last, (ack n).sessionList.length =
      min size ((s.history custId serviceId).length - n * size % 2 ^ 32) := by
    intro n hn
    rw [hanswer n hn, List.length_map, List.length_take, List.length_drop, hperm]
  have hmore : ∀ n ≤ last,
      size < (s.history custId serviceId).length - n * size % 2 ^ 32 ↔ n ≠ last := by
    intro n hn
    have hflag := h.flagged n hn
    rw [hanswer n hn] at hflag
    simp only [Nat.lt_sub_iff_add_lt] at hflag ⊢
    by_cases hsame : n = last
    · simpa [hsame] using hflag
    · simpa [hsame] using hflag
  have hfull : ((List.range last).map fun n => (ack n).sessionList.length) =
      List.replicate last size := by
    rw [List.eq_replicate_iff]
    refine ⟨by simp, fun length hmem => ?_⟩
    obtain ⟨n, hn, rfl⟩ := List.mem_map.mp hmem
    have hlt := List.mem_range.mp hn
    have hn := (hmore n hlt.le).mpr hlt.ne
    rw [hlength n hlt.le]
    omega
  have htotal : last * size + (ack last).sessionList.length =
      (s.history custId serviceId).length := by
    obtain ⟨recs, hrecs, -, hall⟩ := h.once
    have hcount := congrArg List.length hall
    rw [List.length_map, hrecs.length_eq, List.range_succ, List.map_append, List.flatten_append,
      List.length_append, List.length_flatten, List.map_map] at hcount
    rw [← hcount]
    simp only [Function.comp_def, hfull, List.sum_replicate_nat, List.map_cons,
      List.map_nil, List.flatten_cons, List.flatten_nil, List.append_nil]
  have hend : ¬size < (s.history custId serviceId).length - last * size % 2 ^ 32 := fun hlt =>
    (hmore last le_rfl).mp hlt rfl
  have hlastLength := hlength last le_rfl
  by_cases hnil : (ack last).sessionList = []
  · obtain ⟨hzero, hempty⟩ := h.filled hnil
    have hlen := congrArg List.length hempty
    rw [hzero]
    refine ⟨Pages.last_of_nil hsize (List.eq_nil_of_length_eq_zero (hperm.trans hlen)), by omega⟩
  · have hpos := List.length_pos_of_ne_nil hnil
    have hle : last * size ≤ last * size % 2 ^ 32 := by omega
    have hlt : last * size < 2 ^ 32 := lt_of_le_of_lt hle (Nat.mod_lt _ (by decide))
    refine ⟨Pages.last_eq hsize ?_ (.inl ?_), hlt⟩
    · rw [hperm, Nat.succ_mul]
      rw [Nat.mod_eq_of_lt hlt] at hend
      omega
    · omega

end Answers

/-- The pages partition the history if its last page can be asked for and no product on the way to
it wraps, and the store is asked for what the request says if no product wraps. -/
theorem history_paging_iff (getUserInfo : List UInt8 → UserInfo) {pageSize : ℤ}
    (hdistinct : ((s.history custId serviceId).map CCustBase.lastMsgTime).Nodup)
    (hsize : 1 ≤ pageSize) :
    ((∃ last ack, s.Paged custId serviceId getUserInfo pageSize last ack) ↔
      pageSize < 2 ^ 31 ∧
        ((s.history custId serviceId).length - 1) / pageSize.toNat + 1 < 2 ^ 31 ∧
        ((s.history custId serviceId).length - 1) / pageSize.toNat * pageSize.toNat < 2 ^ 32) ∧
    ∀ pageIndex pageSize : ℤ, NoWrap pageIndex pageSize ↔
      ((asInt pageIndex).isSome → (asInt pageSize).isSome →
        0 ≤ (pageIndex - 1) * pageSize ∧ (pageIndex - 1) * pageSize < 2 ^ 32 ∧ -1 ≤ pageSize) := by
  refine ⟨?_, noWrap_iff⟩
  obtain ⟨size, rfl⟩ := Int.eq_ofNat_of_zero_le (le_trans zero_le_one hsize)
  have hpos : 0 < size := by omega
  have hlast : Pages.last size (s.sortedHistory custId serviceId) =
      ((s.history custId serviceId).length - 1) / size := by
    rw [Pages.last, sortedHistory, List.length_insertionSort]
  rw [Int.toNat_natCast]
  constructor
  · rintro ⟨last, ack, h⟩
    have hanswer := h.answered last le_rfl
    simp only [sessionPullHandler, Option.bind_eq_bind, Option.bind_eq_some_iff] at hanswer
    obtain ⟨pageInDex, hindex, pageSize, hpageSize, -⟩ := hanswer
    obtain ⟨hindex, -⟩ := asInt_eq_some_iff.mp hindex
    obtain ⟨hint, -⟩ := asInt_eq_some_iff.mp hpageSize
    obtain ⟨heq, hskip⟩ := h.last_eq hpos (by omega) (by omega)
    rw [← hlast, heq]
    exact ⟨hint.2, by omega, hskip⟩
  · rintro ⟨hint, hindex, hskip⟩
    exact ⟨_, _, paged_of_le hpos (Int.ofNat_lt.mp hint) hdistinct hlast hindex hskip⟩

def twoProcessed : CustSessions where
  custProcessed :=
    [{ custId := textOf "a", userId := textOf "u", serviceId := textOf "s", lastMsgTime := 1 },
      { custId := textOf "a", userId := textOf "v", serviceId := textOf "s", lastMsgTime := 2 }]

/-- Two processed sessions, and a page for each of them. -/
theorem history_paging_iff_two : ∃ last ack, twoProcessed.Paged (textOf "a") (textOf "s")
    (fun userId => ⟨userId, []⟩) 1 last ack := by
  have htimes : (twoProcessed.history (textOf "a") (textOf "s")).map CCustBase.lastMsgTime =
      [1, 2] := by decide
  have hlength : (twoProcessed.history (textOf "a") (textOf "s")).length = 2 := by decide
  refine (history_paging_iff _ (textOf "a") (textOf "s") _ (htimes ▸ by decide) le_rfl).1.mpr ?_
  have hone : Int.toNat 1 = 1 := rfl
  rw [hlength, hone]
  omega

/-- Page zero wraps. -/
theorem not_history_paging :
    ¬((∀ (s : CustSessions) (custId serviceId : List UInt8) (getUserInfo : List UInt8 → UserInfo)
        (pageSize : ℤ), ((s.history custId serviceId).map CCustBase.lastMsgTime).Nodup →
        1 ≤ pageSize → ∃ last ack, s.Paged custId serviceId getUserInfo pageSize last ack) ∧
      ∀ pageIndex pageSize : ℤ, NoWrap pageIndex pageSize) := by
  rintro ⟨-, h⟩
  have hskip := (h 0 1 0 (by decide) 1 (by decide)).1
  exact absurd hskip (by decide)

end CustSessions

end ImServer
