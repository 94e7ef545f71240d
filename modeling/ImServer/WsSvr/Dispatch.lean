import ImServer.WsSvr.HistoryPages

/-!
# The quota of a dispatch

`dispatchCurrentSessions` and `dispatchQueueSessions` (wsSvr/custWebTask.cpp) hand a number of users
out to an agent. The first takes the users who wait for the agent himself and then, with what is left
of the number as the limit, users who wait for the service; the second takes users of the service. A
limit of zero is none, and the query for the agent's own users has no limit at all.

The users who are handed out go from one collection of the store to another, into a list of the cache
and into the answer to the agent.
-/

namespace ImServer

structure SessionInfo where
  userId : List UInt8
  nickName : List UInt8
  headPixel : List UInt8
  encrypt : Int
  lastMsgContent : List UInt8
  lastMsgTime : Int
  deriving DecidableEq, Repr

namespace CustSessions

def sessionInfo (getUserInfo : List UInt8 → UserInfo) (rec : CCustBase) : SessionInfo where
  userId := rec.userId
  nickName := (getUserInfo rec.userId).nickName
  headPixel := (getUserInfo rec.userId).headPixel
  encrypt := rec.encrypt
  lastMsgContent := rec.lastMsg
  lastMsgTime := rec.lastMsgTime

/-- What is left of the number behind the agent's own users. -/
def numLeft (num : UInt32) (custWaits : List CCustBase) : UInt32 :=
  num - UInt32.ofNat custWaits.length

variable (s : CustSessions) (getUserInfo : List UInt8 → UserInfo) (custId serviceId : List UInt8)
  (num : UInt32)

/-- `usersInfo` of `dispatchCurrentSessions`. -/
def currentUsersInfo : List SessionInfo :=
  let custWaits := s.getCustWaits custId serviceId
  (custWaits ++ s.getServiceWaits serviceId (numLeft num custWaits)).map (sessionInfo getUserInfo)

/-- `usersInfo` of `dispatchQueueSessions`. -/
def queueUsersInfo : List SessionInfo :=
  (s.getServiceWaits serviceId num).map (sessionInfo getUserInfo)

/-- All who wait for the service, in the order in which they are taken. -/
def sortedServiceWaits : List CCustBase :=
  (s.serviceWait.filter fun rec => rec.serviceId = serviceId).insertionSort fun rec rec' =>
    rec'.lastMsgTime ≤ rec.lastMsgTime

/-- A dispatch from `s` to `s'` hands out the users of `fromCust` and then those of `fromService`.
The documents go to the collection `docs`, and the ids to the list with the key `key`. The users in
`own` wait for the agent himself. -/
structure Dispatched (s s' : CustSessions) (docs : CustSessions → List CCustBase)
    (type : SessionType) (key : List UInt8) (own fromCust fromService : List CCustBase)
    (usersInfo : List SessionInfo) : Prop where
  quota : usersInfo.length ≤ num.toNat
  reported : usersInfo = (fromCust ++ fromService).map (sessionInfo getUserInfo)
  fromOwn : fromCust.Sublist own
  fromOthers : fromService.Sublist (s.sortedServiceWaits serviceId)
  ownFirst : fromService ≠ [] → fromCust = own
  added : docs s' =
    docs s ++ (fromCust ++ fromService).map fun rec => { rec with custId, serviceId }
  takenFromCust : ∀ rec ∈ s.custWait, rec ∉ s'.custWait ↔
    rec.custId = custId ∧ rec.serviceId = serviceId ∧ rec.userId ∈ fromCust.map CCustBase.userId
  takenFromService : ∀ rec ∈ s.serviceWait, rec ∉ s'.serviceWait ↔
    rec.serviceId = serviceId ∧ rec.userId ∈ fromService.map CCustBase.userId
  pushed : s'.lists type key = s.lists type key ++ usersInfo.map SessionInfo.userId

/-- The number is counted down once for each of the agent's own users, whatever the list has behind
its end. -/
def CurrentDispatched : Prop :=
  (((numLeft num (s.getCustWaits custId serviceId)).toNat : ℤ) =
    num.toNat - (s.getCustWaits custId serviceId).length) ∧
  ∀ pastEnd, ∃ fromCust fromService, Dispatched getUserInfo custId serviceId num s
    (s.dispatchCurrentSessions custId serviceId num pastEnd) custProcessed .current
    (SessionType.current.key custId) (s.getCustWaits custId serviceId) fromCust fromService
    (s.currentUsersInfo getUserInfo custId serviceId num)

/-- The dispatch to the queue of an agent. His own users are in it already, so that only users of
the service are handed out. -/
def QueueDispatched : Prop :=
  ∃ fromService, Dispatched getUserInfo custId serviceId num s
    (s.dispatchQueueSessions custId serviceId num) custWait .queue
    (SessionType.queue.key (CUST.packCustBind custId serviceId)) [] [] fromService
    (s.queueUsersInfo getUserInfo serviceId num)

section Queries

variable {s : CustSessions} {getUserInfo : List UInt8 → UserInfo} {custId serviceId : List UInt8}
  {num : UInt32}

theorem getServiceWaits_eq_nil_iff :
    s.getServiceWaits serviceId num = [] ↔ s.sortedServiceWaits serviceId = [] := by
  rw [getServiceWaits, limit]
  split
  · rfl
  · next hne =>
    have hpos : num.toNat ≠ 0 := fun h => hne (UInt32.toNat_inj.mp h)
    simp [sortedServiceWaits, List.take_eq_nil_iff, hpos]

theorem getServiceWaits_of_ne (hne : num ≠ 0) :
    s.getServiceWaits serviceId num = (s.sortedServiceWaits serviceId).take num.toNat :=
  if_neg hne

theorem getServiceWaits_sublist :
    (s.getServiceWaits serviceId num).Sublist (s.sortedServiceWaits serviceId) := by
  rw [getServiceWaits, limit]
  split
  · exact List.Sublist.refl _
  · exact List.take_sublist ..

/-- The limit is kept if it is none only when nobody waits. -/
theorem length_getServiceWaits_le_iff :
    (s.getServiceWaits serviceId num).length ≤ num.toNat ↔
      num ≠ 0 ∨ s.sortedServiceWaits serviceId = [] := by
  by_cases hzero : num = 0
  · subst hzero
    have hnil := @getServiceWaits_eq_nil_iff s serviceId 0
    rw [← hnil, ← List.length_eq_zero_iff]
    simp
  · rw [getServiceWaits_of_ne hzero, List.length_take]
    simp [hzero]

theorem mem_getCustWaits {rec : CCustBase} :
    rec ∈ s.getCustWaits custId serviceId ↔
      rec ∈ s.custWait ∧ rec.custId = custId ∧ rec.serviceId = serviceId := by
  rw [getCustWaits, List.mem_filter, decide_eq_true_eq]

/-- The counter wraps if more users wait for the agent than it has. -/
theorem numLeft_iff (custWaits : List CCustBase) :
    ((numLeft num custWaits).toNat : ℤ) = num.toNat - custWaits.length ↔
      custWaits.length ≤ num.toNat := by
  have hlt := UInt32.toNat_lt num
  rw [numLeft, UInt32.toNat_sub, UInt32.toNat_ofNat']
  omega

theorem map_cStr_eq_self_iff {recs : List CCustBase} :
    (recs.map CCustBase.userId).map CText.cStr = recs.map CCustBase.userId ↔
      ∀ rec ∈ recs, 0 ∉ rec.userId := by
  rw [List.map_map, List.map_inj_left]
  exact forall₂_congr fun rec _ => CText.cStr_eq_self_iff

end Queries

section Current

variable {s : CustSessions} {getUserInfo : List UInt8 → UserInfo} {custId serviceId : List UInt8}
  {num : UInt32}

theorem lists_dispatchCurrentSessions (pastEnd : List UInt8) :
    (s.dispatchCurrentSessions custId serviceId num pastEnd).lists .current
        (SessionType.current.key custId) =
      s.lists .current (SessionType.current.key custId) ++
        ((s.getCustWaits custId serviceId).map CCustBase.userId ++
          (s.getServiceWaits serviceId (numLeft num (s.getCustWaits custId serviceId))).map
            fun _ => pastEnd).map CText.cStr := by
  rw [dispatchCurrentSessions]
  split
  · next hnil =>
    obtain ⟨hcust, hservice⟩ := List.append_eq_nil_iff.mp hnil
    rw [List.map_eq_nil_iff] at hservice
    rw [numLeft, hservice, hcust]
    simp
  · simp only [usersToCust, foldl_setDispatchIn, deleteCustWaits, deleteServiceWaits, rpush,
      lists_setList, and_self, if_true, List.map_map, numLeft]
    rfl

theorem mem_custWait_dispatchCurrentSessions (pastEnd : List UInt8) {rec : CCustBase} :
    rec ∈ (s.dispatchCurrentSessions custId serviceId num pastEnd).custWait ↔
      rec ∈ s.custWait ∧ ¬(rec.custId = custId ∧ rec.serviceId = serviceId ∧
        rec.userId ∈ (s.getCustWaits custId serviceId).map CCustBase.userId) := by
  rw [dispatchCurrentSessions]
  split
  · next hnil =>
    rw [(List.append_eq_nil_iff.mp hnil).1]
    simp
  · simp only [usersToCust, foldl_setDispatchIn, deleteCustWaits, deleteServiceWaits, rpush,
      setList, List.mem_filter, decide_eq_true_eq]

theorem mem_serviceWait_dispatchCurrentSessions (pastEnd : List UInt8) {rec : CCustBase} :
    rec ∈ (s.dispatchCurrentSessions custId serviceId num pastEnd).serviceWait ↔
      rec ∈ s.serviceWait ∧ ¬(rec.serviceId = serviceId ∧ rec.userId ∈
        (s.getServiceWaits serviceId (numLeft num (s.getCustWaits custId serviceId))).map
          CCustBase.userId) := by
  rw [dispatchCurrentSessions]
  split
  · next hnil =>
    rw [numLeft, List.map_eq_nil_iff.mp (List.append_eq_nil_iff.mp hnil).2]
    simp
  · simp only [usersToCust, foldl_setDispatchIn, deleteCustWaits, deleteServiceWaits, rpush,
      setList, List.mem_filter, decide_eq_true_eq, List.map_map, numLeft]
    rfl

/-- With nobody waiting for the service the agent gets his own users. -/
theorem dispatched_of_nil (hnum : (s.getCustWaits custId serviceId).length ≤ num.toNat)
    (hservice : s.sortedServiceWaits serviceId = [])
    (hnul : ∀ rec ∈ s.getCustWaits custId serviceId, 0 ∉ rec.userId) (pastEnd : List UInt8) :
    Dispatched getUserInfo custId serviceId num s
      (s.dispatchCurrentSessions custId serviceId num pastEnd) custProcessed .current
      (SessionType.current.key custId) (s.getCustWaits custId serviceId)
      (s.getCustWaits custId serviceId) [] (s.currentUsersInfo getUserInfo custId serviceId num) := by
  have hwaits : s.getServiceWaits serviceId (numLeft num (s.getCustWaits custId serviceId)) = [] :=
    getServiceWaits_eq_nil_iff.mpr hservice
  have hinfo : s.currentUsersInfo getUserInfo custId serviceId num =
      (s.getCustWaits custId serviceId).map (sessionInfo getUserInfo) := by
    rw [currentUsersInfo, hwaits, List.append_nil]
  have hdocs : (s.getCustWaits custId serviceId).map (fun rec => { rec with custId, serviceId }) =
      s.getCustWaits custId serviceId := by
    refine (List.map_congr_left fun rec hrec => ?_).trans (List.map_id _)
    obtain ⟨-, rfl, rfl⟩ := mem_getCustWaits.mp hrec
    rfl
  have hlist := @lists_dispatchCurrentSessions s custId serviceId num pastEnd
  rw [hwaits, List.map_nil, List.append_nil, map_cStr_eq_self_iff.mpr hnul] at hlist
  refine
    { quota := ?_, reported := ?_, fromOwn := List.Sublist.refl _, fromOthers := List.nil_sublist _
      ownFirst := fun h => absurd rfl h, added := ?_, takenFromCust := ?_, takenFromService := ?_
      pushed := ?_ }
  · rw [hinfo, List.length_map]
    exact hnum
  · rw [hinfo, List.append_nil]
  · rw [List.append_nil, hdocs, dispatchCurrentSessions, ← numLeft, hwaits]
    split
    · next hnil =>
      rw [List.map_nil, List.append_nil] at hnil
      rw [hnil, List.append_nil]
    · simp only [usersToCust, foldl_setDispatchIn, deleteCustWaits, deleteServiceWaits, rpush,
        setList, List.map_nil, List.append_nil]
  · intro rec hrec
    rw [mem_custWait_dispatchCurrentSessions, and_iff_right hrec, not_not]
  · intro rec hrec
    rw [mem_serviceWait_dispatchCurrentSessions, hwaits, and_iff_right hrec, not_not]
  · rw [hlist, hinfo, List.map_map]
    rfl

/-- Behind the agent's own users a text is pushed that is no user's. -/
theorem currentDispatched_iff : s.CurrentDispatched getUserInfo custId serviceId num ↔
    (s.getCustWaits custId serviceId).length ≤ num.toNat ∧ s.sortedServiceWaits serviceId = [] ∧
      ∀ rec ∈ s.getCustWaits custId serviceId, 0 ∉ rec.userId := by
  rw [CurrentDispatched, numLeft_iff]
  constructor
  · rintro ⟨hnum, hall⟩
    have hpushed : ∀ pastEnd, ((s.getCustWaits custId serviceId).map CCustBase.userId).map
          CText.cStr = (s.getCustWaits custId serviceId).map CCustBase.userId ∧
        (s.getServiceWaits serviceId (numLeft num (s.getCustWaits custId serviceId))).map
            (fun _ => CText.cStr pastEnd) =
          (s.getServiceWaits serviceId (numLeft num (s.getCustWaits custId serviceId))).map
            CCustBase.userId := by
      intro pastEnd
      obtain ⟨_, _, h⟩ := hall pastEnd
      have hlist := h.pushed
      rw [lists_dispatchCurrentSessions, List.append_cancel_left_eq, currentUsersInfo,
        List.map_append, List.map_append, List.map_append, List.map_map, List.map_map, List.map_map,
        List.map_map] at hlist
      rw [List.map_map]
      exact List.append_inj hlist (by rw [List.length_map, List.length_map])
    have hnobody : s.getServiceWaits serviceId
        (numLeft num (s.getCustWaits custId serviceId)) = [] := by
      refine List.eq_nil_iff_forall_not_mem.mpr fun rec hrec => ?_
      have hsame := (hpushed []).2.trans (hpushed [1]).2.symm
      exact absurd (List.map_inj_left.mp hsame rec hrec) (by decide)
    exact ⟨hnum, getServiceWaits_eq_nil_iff.mp hnobody, map_cStr_eq_self_iff.mp (hpushed []).1⟩
  · rintro ⟨hnum, hservice, hnul⟩
    exact ⟨hnum, fun pastEnd => ⟨_, _, dispatched_of_nil hnum hservice hnul pastEnd⟩⟩

end Current

section Queue

variable {s : CustSessions} {getUserInfo : List UInt8 → UserInfo} {custId serviceId : List UInt8}
  {num : UInt32}

theorem lists_dispatchQueueSessions :
    (s.dispatchQueueSessions custId serviceId num).lists .queue
        (SessionType.queue.key (CUST.packCustBind custId serviceId)) =
      s.lists .queue (SessionType.queue.key (CUST.packCustBind custId serviceId)) ++
        ((s.getServiceWaits serviceId num).map CCustBase.userId).map CText.cStr := by
  by_cases hnil : s.getServiceWaits serviceId num = []
  · rw [dispatchQueueSessions, if_pos hnil, hnil]
    simp
  · rw [dispatchQueueSessions_of_ne hnil]
    simp only [rpush, lists_setList, and_self, if_true]
    rfl

/-- Users of the service go to the queue, as many as the number says. -/
theorem dispatched_of_take (hnum : num ≠ 0 ∨ s.sortedServiceWaits serviceId = [])
    (hnul : ∀ rec ∈ s.getServiceWaits serviceId num, 0 ∉ rec.userId) :
    Dispatched getUserInfo custId serviceId num s
      (s.dispatchQueueSessions custId serviceId num) custWait .queue
      (SessionType.queue.key (CUST.packCustBind custId serviceId)) [] []
      (s.getServiceWaits serviceId num) (s.queueUsersInfo getUserInfo serviceId num) := by
  have hlist := @lists_dispatchQueueSessions s custId serviceId num
  rw [map_cStr_eq_self_iff.mpr hnul] at hlist
  refine
    { quota := ?_, reported := rfl, fromOwn := List.Sublist.refl _
      fromOthers := getServiceWaits_sublist, ownFirst := fun _ => rfl, added := ?_
      takenFromCust := fun rec hrec => ?_, takenFromService := fun rec hrec => ?_, pushed := ?_ }
  · rw [queueUsersInfo, List.length_map]
    exact length_getServiceWaits_le_iff.mpr hnum
  · by_cases hnil : s.getServiceWaits serviceId num = []
    · rw [dispatchQueueSessions, if_pos hnil, hnil]
      simp
    · rw [dispatchQueueSessions_of_ne hnil]
      rfl
  · by_cases hnil : s.getServiceWaits serviceId num = []
    · rw [dispatchQueueSessions, if_pos hnil]
      simp [hrec]
    · rw [dispatchQueueSessions_of_ne hnil]
      simp [hrec]
  · by_cases hnil : s.getServiceWaits serviceId num = []
    · rw [dispatchQueueSessions, if_pos hnil, hnil]
      simp [hrec]
    · rw [dispatchQueueSessions_of_ne hnil]
      have hdelete := @List.mem_filter _ (fun rec => decide ¬(rec.serviceId = serviceId ∧
        rec.userId ∈ s.taken serviceId num)) s.serviceWait rec
      rw [decide_eq_true_eq, and_iff_right hrec] at hdelete
      exact (not_congr hdelete).trans not_not
  · rw [hlist, queueUsersInfo, List.map_map]
    rfl

theorem queueDispatched_iff : s.QueueDispatched getUserInfo custId serviceId num ↔
    (num ≠ 0 ∨ s.sortedServiceWaits serviceId = []) ∧
      ∀ rec ∈ (s.sortedServiceWaits serviceId).take num.toNat, 0 ∉ rec.userId := by
  have hwaits : num ≠ 0 ∨ s.sortedServiceWaits serviceId = [] →
      s.getServiceWaits serviceId num = (s.sortedServiceWaits serviceId).take num.toNat := by
    rintro (hne | hnil)
    · exact getServiceWaits_of_ne hne
    · rw [getServiceWaits_eq_nil_iff.mpr hnil, hnil, List.take_nil]
  constructor
  · rintro ⟨fromService, h⟩
    have hquota := h.quota
    rw [queueUsersInfo, List.length_map, length_getServiceWaits_le_iff] at hquota
    have hlist := h.pushed
    rw [lists_dispatchQueueSessions, List.append_cancel_left_eq, queueUsersInfo, List.map_map,
      List.map_map] at hlist
    rw [← List.map_map, hwaits hquota] at hlist
    exact ⟨hquota, map_cStr_eq_self_iff.mp hlist⟩
  · rintro ⟨hnum, hnul⟩
    rw [← hwaits hnum] at hnul
    exact ⟨_, dispatched_of_take hnum hnul⟩

end Queue

/-- A dispatch keeps its number, and reports, moves and pushes the same users, for the current
sessions if nobody waits for the service and not too many wait for the agent, and for the queue if
the number is not zero or nobody waits. -/
theorem dispatch_quota_iff :
    (s.CurrentDispatched getUserInfo custId serviceId num ↔
      (s.getCustWaits custId serviceId).length ≤ num.toNat ∧ s.sortedServiceWaits serviceId = [] ∧
        ∀ rec ∈ s.getCustWaits custId serviceId, 0 ∉ rec.userId) ∧
    (s.QueueDispatched getUserInfo custId serviceId num ↔
      (num ≠ 0 ∨ s.sortedServiceWaits serviceId = []) ∧
        ∀ rec ∈ (s.sortedServiceWaits serviceId).take num.toNat, 0 ∉ rec.userId) :=
  ⟨currentDispatched_iff, queueDispatched_iff⟩

def sixteenWaiting : CustSessions where
  custWait := (List.range 16).map fun n =>
    { custId := textOf "a", userId := [UInt8.ofNat (n + 1)], serviceId := textOf "s" }

/-- An agent who logs in gets more than fifteen users. -/
theorem not_dispatch_quota : ¬∀ (s : CustSessions) (getUserInfo : List UInt8 → UserInfo)
    (custId serviceId : List UInt8) (num : UInt32),
    s.CurrentDispatched getUserInfo custId serviceId num ∧
      s.QueueDispatched getUserInfo custId serviceId num := by
  intro h
  obtain ⟨-, hall⟩ := (h sixteenWaiting (fun _ => ⟨[], []⟩) (textOf "a") (textOf "s") 15).1
  obtain ⟨_, _, hdispatched⟩ := hall []
  have hquota := hdispatched.quota
  rw [currentUsersInfo, List.length_map, List.length_append] at hquota
  have hsixteen : (sixteenWaiting.getCustWaits (textOf "a") (textOf "s")).length = 16 := by decide
  have hfifteen : (15 : UInt32).toNat = 15 := rfl
  omega

end CustSessions

end ImServer
