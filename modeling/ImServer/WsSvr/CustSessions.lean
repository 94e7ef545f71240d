import ImServer.WsSvr.UserMgr

/-!
# Sessions of agents

A user who wants an agent of a service waits in a collection of the service. The handlers of
`CCustWebTask` (wsSvr/custWebTask.cpp) move him into the queue of an agent and from there to the
agent's current sessions. Where he is stands three times: in the collections of the document store
(wsSvr/mod_mongodb/custDataMgr.cpp), in the lists of the cache, and in a hash of the cache that names
the agent and the kind of session (wsSvr/mod_redis/redisMgr.cpp).

An agent is known to the store by his own id and the one of the service, and to the cache by a text
made of both. The kind of session is assigned to a string, which makes it a character; when it is
read back as a number, it is not that number.

A handler is one step, and the commands to the store and the cache succeed.
-/

namespace ImServer

inductive SessionType where
  | current
  | history
  | queue
  deriving DecidableEq, Repr

namespace SessionType

def num : SessionType → Int
  | current => 1
  | history => 2
  | queue => 3

/-- The text of the kind in the hash of a user. -/
def text : SessionType → List UInt8
  | current => [1]
  | history => [2]
  | queue => [3]

/-- The size that is left for the id in the buffer of a list's key. -/
def keySize : SessionType → Nat
  | current => 127 - 21
  | history => 127 - 21
  | queue => 127 - 19

/-- The key of an agent's list, behind its prefix. -/
def key (type : SessionType) (custId : List UInt8) : List UInt8 :=
  CText.snprintf type.keySize (CText.cStr custId)

end SessionType

/-- `CCustBase`, a document of each of the three collections, by the agent, the user and the
service. -/
structure CCustBase where
  custId : List UInt8 := []
  userId : List UInt8 := []
  serviceId : List UInt8 := []
  encrypt : Int := 0
  lastMsg : List UInt8 := []
  lastMsgTime : Int := 0
  deriving DecidableEq, Repr

namespace CCustBase

def isValid (rec : CCustBase) : Prop := rec.custId ≠ [] ∧ rec.userId ≠ [] ∧ rec.serviceId ≠ []

instance decidableIsValid (rec : CCustBase) : Decidable rec.isValid :=
  inferInstanceAs (Decidable (_ ∧ _ ∧ _))

def keyDoc (rec : CCustBase) : List UInt8 × List UInt8 × List UInt8 :=
  (rec.custId, rec.userId, rec.serviceId)

/-- A document takes the place of the first with its key. -/
def upsert (rec : CCustBase) : List CCustBase → List CCustBase
  | [] => [rec]
  | rec' :: rest => if rec'.keyDoc = rec.keyDoc then rec :: rest else rec' :: rec.upsert rest

end CCustBase

/-- The hash of a user. -/
structure DispatchIn where
  custId : List UInt8
  sessionType : List UInt8
  deriving DecidableEq, Repr

structure CustSessions where
  serviceWait : List CCustBase := []
  custWait : List CCustBase := []
  custProcessed : List CCustBase := []
  lists : SessionType → List UInt8 → List (List UInt8) := fun _ _ => []
  dispatchIn : List UInt8 → Option DispatchIn := fun _ => none
  -- the users whose session has been closed so far
  closed : List (List UInt8) := []

namespace CustSessions

variable (s : CustSessions)

/-- The key of a user's hash, behind its prefix. -/
def userKey (userId : List UInt8) : List UInt8 := CText.snprintf (127 - 17) (CText.cStr userId)

def setList (type : SessionType) (key : List UInt8) (values : List (List UInt8)) : CustSessions :=
  { s with lists := Function.update s.lists type (Function.update (s.lists type) key values) }

/-- `rmpush` sends one `RPUSH` for each value, which is taken to succeed. It reads the reply of the
first one only; the later commands on its connection are taken to get their own replies. -/
def rpush (type : SessionType) (key : List UInt8) (values : List (List UInt8)) : CustSessions :=
  s.setList type key (s.lists type key ++ values)

def setDispatchIn (userId : List UInt8) (entry : Option DispatchIn) : CustSessions :=
  { s with dispatchIn := Function.update s.dispatchIn (userKey userId) entry }

/-- What `hmset` writes into the hash of a user. -/
def dispatchEntry (type : SessionType) (custId : List UInt8) : DispatchIn where
  custId := CText.cStr custId
  sessionType := type.text

def string2int (text : List UInt8) : Int :=
  CText.atoi (String.ofList (text.map fun b => Char.ofNat b.toNat))

def userToCustCurrent (userId custId : List UInt8) : CustSessions :=
  if (s.dispatchIn (userKey userId)).any fun entry =>
      entry.custId = custId ∧ string2int entry.sessionType = SessionType.current.num then s
  else
    (s.rpush .current (SessionType.current.key custId) [CText.cStr userId]).setDispatchIn userId
      (some (dispatchEntry .current custId))

/-- `usersToCustCurrent` and `usersToCustQueue`. -/
def usersToCust (type : SessionType) (users : List (List UInt8)) (custId : List UInt8) :
    CustSessions :=
  users.foldl (fun s userId => s.setDispatchIn userId (some (dispatchEntry type custId)))
    (s.rpush type (type.key custId) (users.map CText.cStr))

/-- `LREM` with the count -1 removes the last one. -/
def lrem (values : List (List UInt8)) (value : List UInt8) : List (List UInt8) :=
  (values.reverse.erase value).reverse

/-- `delUserFromCustCurrent`, with the user who moves up. -/
def delUserFromCustCurrent (custId userId : List UInt8) : List UInt8 × CustSessions :=
  let key := SessionType.current.key custId
  if CText.cStr userId ∈ s.lists .current key then
    let s := s.setList .current key (lrem (s.lists .current key) (CText.cStr userId))
    let s := s.setDispatchIn userId none
    let keyQueue := SessionType.queue.key custId
    match s.lists .queue keyQueue with
    | [] => ([], s)
    | queueUser :: rest =>
      (queueUser, (s.setList .queue keyQueue rest).userToCustCurrent queueUser custId)
  else ([], s)

/-- A limit of zero is none. -/
def limit (num : UInt32) (recs : List CCustBase) : List CCustBase :=
  if num = 0 then recs else recs.take num.toNat

/-- `getServiceWaits`, the last message first. -/
def getServiceWaits (serviceId : List UInt8) (num : UInt32) : List CCustBase :=
  limit num ((s.serviceWait.filter fun rec => rec.serviceId = serviceId).insertionSort fun rec rec' =>
    rec'.lastMsgTime ≤ rec.lastMsgTime)

def deleteServiceWaits (serviceId : List UInt8) (users : List (List UInt8)) : CustSessions :=
  { s with serviceWait := s.serviceWait.filter fun rec =>
      ¬ (rec.serviceId = serviceId ∧ rec.userId ∈ users) }

/-- `getCustWaits` of an agent. It makes options for its query and does not pass them on. -/
def getCustWaits (custId serviceId : List UInt8) : List CCustBase :=
  s.custWait.filter fun rec => rec.custId = custId ∧ rec.serviceId = serviceId

/-- `getCustWaits` for a list of users. -/
def getCustWaitsOf (custId : List UInt8) (users : List (List UInt8)) (serviceId : List UInt8) :
    List CCustBase :=
  (s.getCustWaits custId serviceId).filter fun rec => rec.userId ∈ users

def getCustProcesseds (custId : List UInt8) (users : List (List UInt8)) (serviceId : List UInt8) :
    List CCustBase :=
  s.custProcessed.filter fun rec =>
    rec.custId = custId ∧ rec.serviceId = serviceId ∧ rec.userId ∈ users

/-- `deleteCustWait`, with the document if there was one. -/
def deleteCustWait (custId userId serviceId : List UInt8) : CCustBase × CustSessions :=
  match s.custWait.find? fun rec => rec.keyDoc = (custId, userId, serviceId) with
  | none => ({}, s)
  | some rec => (rec, { s with custWait := s.custWait.erase rec })

def deleteCustWaits (custId : List UInt8) (users : List (List UInt8)) (serviceId : List UInt8) :
    CustSessions :=
  { s with custWait := s.custWait.filter fun rec =>
      ¬ (rec.custId = custId ∧ rec.serviceId = serviceId ∧ rec.userId ∈ users) }

/-- `insertCustProcessed` refuses a document with an empty id. -/
def insertCustProcessed (rec : CCustBase) : Bool × CustSessions :=
  if rec.isValid then (true, { s with custProcessed := rec.upsert s.custProcessed }) else (false, s)

def getCustCurrentSessions (custId serviceId : List UInt8) : List CCustBase :=
  s.getCustProcesseds custId
    (s.lists .current (SessionType.current.key (CUST.packCustBind custId serviceId))) serviceId

def getCustQueueSessions (custId serviceId : List UInt8) : List CCustBase :=
  s.getCustWaitsOf custId
    (s.lists .queue (SessionType.queue.key (CUST.packCustBind custId serviceId))) serviceId

/-- `dispatchCurrentSessions`. For each user who waits for the service it reads a user behind the end
of the other list, which is not defined: `pastEnd` stands for what it finds there. -/
def dispatchCurrentSessions (custId serviceId : List UInt8) (num : UInt32) (pastEnd : List UInt8) :
    CustSessions :=
  let custWaits := s.getCustWaits custId serviceId
  let serviceWaits := (s.getServiceWaits serviceId (num - UInt32.ofNat custWaits.length)).map
    fun rec => { rec with custId }
  let usersCustWait := custWaits.map CCustBase.userId
  let usersServiceWait := serviceWaits.map CCustBase.userId
  let users := usersCustWait ++ serviceWaits.map fun _ => pastEnd
  let custProcesseds := custWaits ++ serviceWaits
  -- an insert of no documents fails
  if custProcesseds = [] then s
  else
    let s := { s with custProcessed := s.custProcessed ++ custProcesseds }
    ((s.usersToCust .current users custId).deleteCustWaits custId usersCustWait
      serviceId).deleteServiceWaits serviceId usersServiceWait

def dispatchQueueSessions (custId serviceId : List UInt8) (num : UInt32) : CustSessions :=
  let custServiceId := CUST.packCustBind custId serviceId
  let serviceWaits := s.getServiceWaits serviceId num
  let users := serviceWaits.map CCustBase.userId
  if serviceWaits = [] then s
  else
    let custWaits := serviceWaits.map fun rec => { rec with custId, serviceId }
    let s := { s with custWait := s.custWait ++ custWaits }
    (s.usersToCust .queue users custServiceId).deleteServiceWaits serviceId users

/-- `loginHandler`, as far as it is about sessions. -/
def loginHandler (custId serviceId pastEnd : List UInt8) : CustSessions :=
  let s :=
    if s.getCustCurrentSessions custId serviceId = [] then
      s.dispatchCurrentSessions custId serviceId 15 pastEnd
    else s
  if s.getCustQueueSessions custId serviceId = [] then s.dispatchQueueSessions custId serviceId 15
  else s

/-- `sessionClose`, for a current session. -/
def sessionClose (custId serviceId userId : List UInt8) : CustSessions :=
  let (queueUser, s) := s.delUserFromCustCurrent (CUST.packCustBind custId serviceId) userId
  let s :=
    if queueUser ≠ [] then
      let (custWaitRec, s) := s.deleteCustWait custId queueUser serviceId
      (s.insertCustProcessed custWaitRec).2
    else s
  s.dispatchQueueSessions custId serviceId 1

def sessionCloseHandler (custId serviceId userId : List UInt8) (sessionType : Int) : CustSessions :=
  if sessionType = SessionType.current.num then
    let key := SessionType.current.key (CUST.packCustBind custId serviceId)
    let s :=
      if CText.cStr userId ∈ s.lists .current key then
        { s with closed := CText.cStr userId :: s.closed }
      else s
    s.sessionClose custId serviceId userId
  else s

/-- What the agent gets who takes over a session. -/
def transferText (fromCustName : List UInt8) : List UInt8 :=
  CText.snprintf 256 (CText.cStr fromCustName ++ CText.bytes "转入一条会话")

/-- `sessionTransferHandler`, at the time `now`. -/
def sessionTransferHandler (fromCustId toCustId serviceId userId : List UInt8) (sessionType : Int)
    (now : Int) : CustSessions :=
  if sessionType = SessionType.current.num ∨ sessionType = SessionType.queue.num then
    let (fromCustWaitRec, s) :=
      if sessionType = SessionType.current.num then
        (({} : CCustBase), s.sessionClose fromCustId serviceId userId)
      else
        let (rec, s) := s.deleteCustWait fromCustId userId serviceId
        (rec, s.dispatchQueueSessions fromCustId serviceId 1)
    let (inserted, s) := s.insertCustProcessed { fromCustWaitRec with
      custId := toCustId
      encrypt := 0
      lastMsg := transferText fromCustId
      lastMsgTime := now }
    if inserted then s.userToCustCurrent userId toCustId else s
  else s

/-- `sessionActiveHander`. It asks for no kind of session. -/
def sessionActiveHander (custId serviceId userId : List UInt8) : CustSessions :=
  s.userToCustCurrent userId (CUST.packCustBind custId serviceId)

inductive Event where
  | login (custId pastEnd : List UInt8)
  | sessionClose (custId userId : List UInt8) (sessionType : Int)
  | sessionTransfer (fromCustId toCustId userId : List UInt8) (sessionType now : Int)
  | sessionActive (custId userId : List UInt8)
  deriving DecidableEq, Repr

/-- An event of the agents of a service. Each handler runs to its end before the next one begins. -/
def step (serviceId : List UInt8) : Event → CustSessions
  | .login custId pastEnd => s.loginHandler custId serviceId pastEnd
  | .sessionClose custId userId sessionType =>
    s.sessionCloseHandler custId serviceId userId sessionType
  | .sessionTransfer fromCustId toCustId userId sessionType now =>
    s.sessionTransferHandler fromCustId toCustId serviceId userId sessionType now
  | .sessionActive custId userId => s.sessionActiveHander custId serviceId userId

/-- Where a user is: with the service, in the queue of an agent, or in a session with one. -/
inductive Place where
  | service
  | queue (custId : List UInt8)
  | current (custId : List UInt8)
  deriving DecidableEq, Repr

/-- The store has the user in that place. -/
def InStore (serviceId userId : List UInt8) : Place → Prop
  | .service => ∃ rec ∈ s.serviceWait, rec.userId = userId ∧ rec.serviceId = serviceId
  | .queue custId => ∃ rec ∈ s.custWait, rec.keyDoc = (custId, userId, serviceId)
  | .current custId => ∃ rec ∈ s.custProcessed, rec.keyDoc = (custId, userId, serviceId)

/-- The list of the cache for a place, by its kind and key. -/
def Place.list (serviceId : List UInt8) : Place → Option (SessionType × List UInt8)
  | .service => none
  | .queue custId => some (.queue, SessionType.queue.key (CUST.packCustBind custId serviceId))
  | .current custId => some (.current, SessionType.current.key (CUST.packCustBind custId serviceId))

/-- The hash of a user in a place. -/
def Place.dispatchIn (serviceId : List UInt8) : Place → Option DispatchIn
  | .service => none
  | .queue custId => some (dispatchEntry .queue (CUST.packCustBind custId serviceId))
  | .current custId => some (dispatchEntry .current (CUST.packCustBind custId serviceId))

/-- The user is in that place and no other, in the store and in the cache. -/
structure At (serviceId userId : List UInt8) (place : Place) : Prop where
  store : ∀ place', s.InStore serviceId userId place' ↔ place' = place
  lists : ∀ type key, userId ∈ s.lists type key ↔ place.list serviceId = some (type, key)
  dispatchIn : s.dispatchIn (userKey userId) = place.dispatchIn serviceId

/-- Each of the users who waited is in one place until his session is closed, and nobody is in the
lists of two agents. -/
structure Conserved (serviceId : List UInt8) (users : List (List UInt8)) : Prop where
  one : ∀ userId ∈ users, userId ∉ s.closed → ∃ place, s.At serviceId userId place
  apart : ∀ userId type type' key key', userId ∈ s.lists type key → userId ∈ s.lists type' key' →
    key = key'

/-- The ids of an agent fit the keys of the cache. -/
structure CustFits (serviceId custId : List UInt8) : Prop where
  cust : custId ≠ [] ∧ 0 ∉ custId
  service : serviceId ≠ [] ∧ 0 ∉ serviceId
  length : custId.length + 1 + serviceId.length < 106

/-- The id of a user fits the key of his hash. -/
def UserFits (userId : List UInt8) : Prop := userId ≠ [] ∧ 0 ∉ userId ∧ userId.length < 110

/-- The agent has a current session that both sides know, or nobody waits for him or the service. -/
def LoginGood (serviceId custId : List UInt8) : Prop :=
  s.getCustCurrentSessions custId serviceId ≠ [] ∨
    s.getCustWaits custId serviceId = [] ∧ ∀ rec ∈ s.serviceWait, rec.serviceId ≠ serviceId

/-- The agent does not have the session that he wants to give away. -/
def TransferGood (serviceId custId userId : List UInt8) (sessionType : Int) : Prop :=
  (sessionType = SessionType.current.num → CText.cStr userId ∉
    s.lists .current (SessionType.current.key (CUST.packCustBind custId serviceId))) ∧
  (sessionType = SessionType.queue.num →
    ∀ rec ∈ s.custWait, rec.keyDoc ≠ (custId, userId, serviceId))

/-- The user neither waits nor is with another agent. -/
structure ActiveGood (serviceId custId userId : List UInt8) : Prop where
  service : ∀ rec ∈ s.serviceWait, rec.serviceId = serviceId → rec.userId ≠ userId
  cust : ∀ rec ∈ s.custWait, rec.serviceId = serviceId → rec.userId ≠ userId
  lists : ∀ type key, userId ∈ s.lists type key →
    type = .current ∧ key = SessionType.current.key (CUST.packCustBind custId serviceId)

def Good (serviceId : List UInt8) : Event → Prop
  | .login custId _ => CustFits serviceId custId ∧ s.LoginGood serviceId custId
  | .sessionClose custId userId _ => CustFits serviceId custId ∧ UserFits userId
  | .sessionTransfer fromCustId _ userId sessionType _ =>
    CustFits serviceId fromCustId ∧ s.TransferGood serviceId fromCustId userId sessionType
  | .sessionActive custId userId =>
    CustFits serviceId custId ∧ UserFits userId ∧ s.ActiveGood serviceId custId userId

/-- The users who wait at the start: one document for each, under ids that are not empty. -/
structure Waiting (serviceId : List UInt8) (recs : List CCustBase) : Prop where
  service : ∀ rec ∈ recs, rec.serviceId = serviceId
  fits : ∀ rec ∈ recs, UserFits rec.userId
  once : (recs.map CCustBase.userId).Nodup

def start (recs : List CCustBase) : CustSessions := { serviceWait := recs }

theorem UserFits.cStr {userId : List UInt8} (h : UserFits userId) : CText.cStr userId = userId :=
  CText.cStr_eq_self_iff.mpr h.2.1

theorem UserFits.userKey {userId : List UInt8} (h : UserFits userId) : userKey userId = userId := by
  rw [CustSessions.userKey, h.cStr, CText.snprintf_eq_self h.2.2]

section CustFits

variable {serviceId custId custId' : List UInt8}

theorem CustFits.packCustBind (h : CustFits serviceId custId) :
    CUST.packCustBind custId serviceId = custId ++ 95 :: serviceId := by
  have hlength := h.length
  rw [CUST.packCustBind, CUST.bindText, CText.cStr_eq_self_iff.mpr h.cust.2,
    CText.cStr_eq_self_iff.mpr h.service.2]
  refine CText.snprintf_eq_self ?_
  simp only [List.length_append, List.length_cons]
  omega

theorem CustFits.cStr_packCustBind (h : CustFits serviceId custId) :
    CText.cStr (CUST.packCustBind custId serviceId) = CUST.packCustBind custId serviceId := by
  rw [h.packCustBind, CText.cStr_eq_self_iff, List.mem_append, List.mem_cons, not_or, not_or]
  exact ⟨h.cust.2, by decide, h.service.2⟩

theorem CustFits.key (h : CustFits serviceId custId) (type : SessionType) :
    type.key (CUST.packCustBind custId serviceId) = CUST.packCustBind custId serviceId := by
  have hsize : 106 ≤ type.keySize := by cases type <;> decide
  have hlength := h.length
  rw [SessionType.key, h.cStr_packCustBind]
  refine CText.snprintf_eq_self ?_
  rw [h.packCustBind, List.length_append, List.length_cons]
  omega

theorem CustFits.eq_of_key (h : CustFits serviceId custId) (h' : CustFits serviceId custId')
    {type : SessionType} (hkey : type.key (CUST.packCustBind custId serviceId) =
      type.key (CUST.packCustBind custId' serviceId)) : custId = custId' := by
  rw [h.key, h'.key, h.packCustBind, h'.packCustBind] at hkey
  exact List.append_cancel_right hkey

end CustFits

theorem string2int_text (type : SessionType) : string2int type.text ≠ SessionType.current.num := by
  cases type <;> decide

/-- The users where `place` says they are, in the documents as well as in the lists of redis. -/
structure Agrees (serviceId : List UInt8) (users : List (List UInt8))
    (place : List UInt8 → Option Place) (s : CustSessions) : Prop where
  service : ∀ u, s.InStore serviceId u .service ↔ place u = some .service
  queue : ∀ u a, s.InStore serviceId u (.queue a) ↔ place u = some (.queue a)
  lists : ∀ u type key, u ∈ s.lists type key ↔
    ∃ p, place u = some p ∧ p.list serviceId = some (type, key)
  tracked : ∀ u ∈ users, u ∉ s.closed → ∃ p, place u = some p ∧
    s.dispatchIn (userKey u) = p.dispatchIn serviceId ∧
      ∀ a, s.InStore serviceId u (.current a) ↔ p = .current a
  waits : ∀ u, place u = some .service ∨ (∃ a, place u = some (.queue a)) → u ∈ users ∧ u ∉ s.closed
  cust : ∀ u a, place u = some (.queue a) ∨ place u = some (.current a) → CustFits serviceId a
  serviceOnce : ((s.serviceWait.filter fun rec => rec.serviceId = serviceId).map
    CCustBase.userId).Nodup
  custOnce : (s.custWait.map CCustBase.keyDoc).Nodup
  queueOnce : ∀ key, (s.lists .queue key).Nodup

variable {s} {serviceId custId userId : List UInt8} {users : List (List UInt8)}
variable {place : List UInt8 → Option Place}

theorem Agrees.conserved (h : Agrees serviceId users place s) : s.Conserved serviceId users where
  one userId husers hclosed := by
    obtain ⟨p, hp, hdispatch, hcurrent⟩ := h.tracked userId husers hclosed
    refine ⟨p, fun place' => ?_, fun type key => ?_, hdispatch⟩
    · cases place' with
      | service => rw [h.service, hp, Option.some.injEq, eq_comm]
      | queue a => rw [h.queue, hp, Option.some.injEq, eq_comm]
      | current a => rw [hcurrent, eq_comm]
    · rw [h.lists]
      simp [hp]
  apart userId type type' key key' hmem hmem' := by
    obtain ⟨p, hp, hlist⟩ := (h.lists userId type key).mp hmem
    obtain ⟨p', hp', hlist'⟩ := (h.lists userId type' key').mp hmem'
    obtain rfl : p = p' := Option.some.inj (hp.symm.trans hp')
    exact (Prod.mk.inj (Option.some.inj (hlist.symm.trans hlist'))).2

theorem Agrees.start {recs : List CCustBase} (h : Waiting serviceId recs) :
    Agrees serviceId (recs.map CCustBase.userId)
      (fun u => if u ∈ recs.map CCustBase.userId then some .service else none) (start recs) where
  service u := by
    simp only [InStore, CustSessions.start, List.mem_map, Option.ite_none_right_eq_some, and_true]
    exact exists_congr fun rec => ⟨fun ⟨hmem, hu, _⟩ => ⟨hmem, hu⟩, fun ⟨hmem, hu⟩ =>
      ⟨hmem, hu, h.service rec hmem⟩⟩
  queue u a := by simp [InStore, CustSessions.start]
  lists u type key := by
    simp only [CustSessions.start, List.not_mem_nil, Option.ite_none_right_eq_some, false_iff]
    rintro ⟨p, ⟨-, hp⟩, hlist⟩
    cases hp
    cases hlist
  tracked u hu _ := by
    refine ⟨.service, if_pos hu, rfl, fun a => ?_⟩
    simp [InStore, CustSessions.start]
  waits u hu := by
    refine ⟨?_, List.not_mem_nil⟩
    by_contra hmem
    simp [hmem] at hu
  cust u a hu := by simp at hu
  serviceOnce := by
    have hall : (recs.filter fun rec => rec.serviceId = serviceId) = recs :=
      List.filter_eq_self.mpr fun rec hrec => decide_eq_true (h.service rec hrec)
    simpa only [CustSessions.start, hall] using h.once
  custOnce := List.nodup_nil
  queueOnce _ := List.nodup_nil

theorem foldl_setDispatchIn (entry : DispatchIn) (values : List (List UInt8)) (s : CustSessions) :
    values.foldl (fun s userId => s.setDispatchIn userId (some entry)) s =
      { s with dispatchIn := fun key =>
          if key ∈ values.map userKey then some entry else s.dispatchIn key } := by
  induction values generalizing s with
  | nil => simp
  | cons value values ih =>
    rw [List.foldl_cons, ih]
    simp only [setDispatchIn, CustSessions.mk.injEq, and_true, true_and]
    funext key
    by_cases hkey : key = userKey value
    · simp [hkey]
    · simp [hkey]

/-- The users who are taken from the collection of the service. -/
def taken (s : CustSessions) (serviceId : List UInt8) (num : UInt32) : List (List UInt8) :=
  (s.getServiceWaits serviceId num).map CCustBase.userId

theorem mem_getServiceWaits {num : UInt32} {rec : CCustBase}
    (h : rec ∈ s.getServiceWaits serviceId num) :
    rec ∈ s.serviceWait ∧ rec.serviceId = serviceId := by
  have hsorted : rec ∈ (s.serviceWait.filter fun rec => rec.serviceId = serviceId).insertionSort
      fun rec rec' => rec'.lastMsgTime ≤ rec.lastMsgTime := by
    rw [getServiceWaits, limit] at h
    split at h
    · exact h
    · exact List.mem_of_mem_take h
  rw [List.mem_insertionSort, List.mem_filter, decide_eq_true_eq] at hsorted
  exact hsorted

theorem Agrees.place_of_mem_taken (h : Agrees serviceId users place s) {num : UInt32}
    (hmem : userId ∈ s.taken serviceId num) : place userId = some .service := by
  obtain ⟨rec, hrec, rfl⟩ := List.mem_map.mp hmem
  obtain ⟨hwait, hservice⟩ := mem_getServiceWaits hrec
  exact (h.service rec.userId).mp ⟨rec, hwait, rfl, hservice⟩

theorem Agrees.nodup_taken (h : Agrees serviceId users place s) (num : UInt32) :
    (s.taken serviceId num).Nodup := by
  have hsorted := List.perm_insertionSort (fun rec rec' : CCustBase =>
    rec'.lastMsgTime ≤ rec.lastMsgTime) (s.serviceWait.filter fun rec => rec.serviceId = serviceId)
  have hnodup := (hsorted.map CCustBase.userId).nodup_iff.mpr h.serviceOnce
  rw [taken, getServiceWaits, limit]
  split
  · exact hnodup
  · exact hnodup.sublist ((List.take_sublist ..).map _)

theorem lists_setList (type type' : SessionType) (key key' : List UInt8)
    (values : List (List UInt8)) : (s.setList type key values).lists type' key' =
      if type' = type ∧ key' = key then values else s.lists type' key' := by
  by_cases htype : type' = type
  · subst htype
    by_cases hkey : key' = key
    · subst hkey
      simp [setList]
    · simp [setList, hkey]
  · simp [setList, htype]

theorem dispatchQueueSessions_of_ne {num : UInt32} (hne : s.getServiceWaits serviceId num ≠ []) :
    s.dispatchQueueSessions custId serviceId num = { s with
      serviceWait := s.serviceWait.filter fun rec =>
        ¬ (rec.serviceId = serviceId ∧ rec.userId ∈ s.taken serviceId num)
      custWait := s.custWait ++
        (s.getServiceWaits serviceId num).map fun rec => { rec with custId, serviceId }
      lists := (s.rpush .queue (SessionType.queue.key (CUST.packCustBind custId serviceId))
        ((s.taken serviceId num).map CText.cStr)).lists
      dispatchIn := fun key =>
        if key ∈ (s.taken serviceId num).map userKey then
          some (dispatchEntry .queue (CUST.packCustBind custId serviceId))
        else s.dispatchIn key } := by
  simp only [dispatchQueueSessions, if_neg hne, usersToCust, foldl_setDispatchIn]
  rfl

theorem Agrees.dispatchQueueSessions (h : Agrees serviceId users place s)
    (husers : ∀ u ∈ users, UserFits u) (hcust : CustFits serviceId custId) (num : UInt32) :
    ∃ place', Agrees serviceId users place' (s.dispatchQueueSessions custId serviceId num) := by
  by_cases hne : s.getServiceWaits serviceId num = []
  · rw [CustSessions.dispatchQueueSessions, if_pos hne]
    exact ⟨place, h⟩
  have hplace : ∀ u ∈ s.taken serviceId num, place u = some .service := fun u =>
    h.place_of_mem_taken
  have hwaits : ∀ u ∈ s.taken serviceId num, u ∈ users ∧ u ∉ s.closed := fun u hu =>
    h.waits u (.inl (hplace u hu))
  have hfits : ∀ u ∈ s.taken serviceId num, UserFits u := fun u hu => husers u (hwaits u hu).1
  have hcStr : (s.taken serviceId num).map CText.cStr = s.taken serviceId num :=
    (List.map_congr_left fun u hu => (hfits u hu).cStr).trans (List.map_id _)
  have hunlisted : ∀ u ∈ s.taken serviceId num, ∀ type key, u ∉ s.lists type key := by
    intro u hu type key hmem
    obtain ⟨p, hp, hlist⟩ := (h.lists u type key).mp hmem
    obtain rfl : p = .service := Option.some.inj (hp.symm.trans (hplace u hu))
    cases hlist
  have hunqueued : ∀ u ∈ s.taken serviceId num, ∀ rec ∈ s.custWait, ∀ a,
      rec.keyDoc ≠ (a, u, serviceId) := by
    intro u hu rec hrec a hkey
    cases ((h.queue u a).mp ⟨rec, hrec, hkey⟩).symm.trans (hplace u hu)
  rw [dispatchQueueSessions_of_ne hne, hcStr]
  refine ⟨fun u => if u ∈ s.taken serviceId num then some (.queue custId) else place u, {
    service := fun u => ?_
    queue := fun u a => ?_
    lists := fun u type key => ?_
    tracked := fun u hu hclosed => ?_
    waits := fun u hu => ?_
    cust := fun u a hu => ?_
    serviceOnce := ?_
    custOnce := ?_
    queueOnce := fun key => ?_ }⟩
  · simp only [InStore, List.mem_filter, decide_eq_true_eq, not_and]
    by_cases hu : u ∈ s.taken serviceId num
    · simp only [hu, if_true, reduceCtorEq, Option.some.injEq, iff_false, not_exists]
      rintro rec ⟨⟨-, hleft⟩, rfl, hservice⟩
      exact hleft hservice hu
    · rw [if_neg hu, ← h.service]
      refine exists_congr fun rec => ⟨fun ⟨⟨hrec, _⟩, hkey⟩ => ⟨hrec, hkey⟩, fun ⟨hrec, hkey⟩ =>
        ⟨⟨hrec, fun _ hmem => hu (hkey.1 ▸ hmem)⟩, hkey⟩⟩
  · have hnew : (∃ rec ∈ (s.getServiceWaits serviceId num).map
        fun rec => { rec with custId, serviceId }, rec.keyDoc = (a, u, serviceId)) ↔
        custId = a ∧ u ∈ s.taken serviceId num := by
      simp only [List.mem_map, CCustBase.keyDoc, taken]
      constructor
      · rintro ⟨_, ⟨rec, hrec, rfl⟩, hkey⟩
        exact ⟨(Prod.mk.inj hkey).1, rec, hrec, (Prod.mk.inj (Prod.mk.inj hkey).2).1⟩
      · rintro ⟨rfl, rec, hrec, rfl⟩
        exact ⟨_, ⟨rec, hrec, rfl⟩, rfl⟩
    have hold : (∃ rec ∈ s.custWait, rec.keyDoc = (a, u, serviceId)) ↔ place u = some (.queue a) :=
      h.queue u a
    simp only [InStore, List.mem_append, or_and_right, exists_or, hnew, hold]
    by_cases hu : u ∈ s.taken serviceId num
    · simp [hu, hplace u hu]
    · simp [hu]
  · rw [rpush, lists_setList]
    by_cases hu : u ∈ s.taken serviceId num
    · have hno := hunlisted u hu
      simp only [hu, if_true, Option.some.injEq, exists_eq_left', Place.list, Prod.mk.injEq]
      split
      · next hkey => simp [hu, hkey.1, hkey.2]
      · next hkey =>
        simp only [hno, false_iff, not_and]
        exact fun htype hsame => hkey ⟨htype.symm, hsame.symm⟩
    · simp only [if_neg hu, ← h.lists]
      split
      · next hkey => simp [hu, hkey.1, hkey.2]
      · rfl
  · obtain ⟨p, hp, hdispatch, hcurrent⟩ := h.tracked u hu hclosed
    by_cases hmem : u ∈ s.taken serviceId num
    · obtain rfl : p = .service := Option.some.inj (hp.symm.trans (hplace u hmem))
      refine ⟨.queue custId, if_pos hmem, if_pos (List.mem_map_of_mem hmem), fun a => ?_⟩
      exact (hcurrent a).trans (by simp)
    · refine ⟨p, (if_neg hmem).trans hp, (if_neg fun hkey => ?_).trans hdispatch, hcurrent⟩
      obtain ⟨v, hv, hkey⟩ := List.mem_map.mp hkey
      rw [(hfits v hv).userKey, (husers u hu).userKey] at hkey
      exact hmem (hkey ▸ hv)
  · by_cases hmem : u ∈ s.taken serviceId num
    · exact hwaits u hmem
    · simp only [hmem, if_false] at hu
      exact h.waits u hu
  · by_cases hmem : u ∈ s.taken serviceId num
    · simp only [hmem, if_true, Option.some.injEq, Place.queue.injEq, reduceCtorEq, or_false] at hu
      exact hu ▸ hcust
    · simp only [hmem, if_false] at hu
      exact h.cust u a hu
  · exact h.serviceOnce.sublist ((List.filter_sublist.filter _).map _)
  · rw [List.map_append, List.nodup_append]
    refine ⟨h.custOnce, ?_, ?_⟩
    · have hkeys : ((s.getServiceWaits serviceId num).map
          fun rec => { rec with custId, serviceId }).map CCustBase.keyDoc =
            (s.taken serviceId num).map fun u => (custId, u, serviceId) := by
        simp only [taken, List.map_map]
        rfl
      rw [hkeys]
      exact (h.nodup_taken num).map fun u v huv => (Prod.mk.inj (Prod.mk.inj huv).2).1
    · intro key hkey key' hkey' heq
      obtain ⟨rec, hrec, rfl⟩ := List.mem_map.mp hkey
      obtain ⟨_, hnew, rfl⟩ := List.mem_map.mp hkey'
      obtain ⟨rec', hrec', rfl⟩ := List.mem_map.mp hnew
      exact hunqueued rec'.userId (List.mem_map_of_mem hrec') rec hrec custId heq
  · rw [rpush, lists_setList]
    split
    · refine List.nodup_append.mpr ⟨h.queueOnce _, h.nodup_taken num, ?_⟩
      rintro u hu _ hmem rfl
      exact hunlisted u hmem _ _ hu
    · exact h.queueOnce key

theorem mem_lrem_of_ne {values : List (List UInt8)} {u : List UInt8} (hu : u ≠ userId) :
    u ∈ lrem values userId ↔ u ∈ values := by
  rw [lrem, List.mem_reverse, List.mem_erase_of_ne hu, List.mem_reverse]

/-- A user in the current list of an agent is with him. -/
theorem Agrees.place_of_mem_current (h : Agrees serviceId users place s)
    (hcust : CustFits serviceId custId)
    (hmem : userId ∈ s.lists .current (SessionType.current.key (CUST.packCustBind custId serviceId))) :
    place userId = some (.current custId) := by
  obtain ⟨p, hp, hlist⟩ := (h.lists ..).mp hmem
  cases p with
  | service => cases hlist
  | queue a => cases (Prod.mk.inj (Option.some.inj hlist)).1
  | current a =>
    have hkey := (Prod.mk.inj (Option.some.inj hlist)).2
    rw [hp, (h.cust userId a (.inr hp)).eq_of_key hcust hkey]

theorem Agrees.place_of_mem_queue (h : Agrees serviceId users place s)
    (hcust : CustFits serviceId custId)
    (hmem : userId ∈ s.lists .queue (SessionType.queue.key (CUST.packCustBind custId serviceId))) :
    place userId = some (.queue custId) := by
  obtain ⟨p, hp, hlist⟩ := (h.lists ..).mp hmem
  cases p with
  | service => cases hlist
  | current a => cases (Prod.mk.inj (Option.some.inj hlist)).1
  | queue a =>
    have hkey := (Prod.mk.inj (Option.some.inj hlist)).2
    rw [hp, (h.cust userId a (.inl hp)).eq_of_key hcust hkey]

/-- What `delUserFromCustCurrent` does before it looks at the queue. -/
def removed (s : CustSessions) (custServiceId userId : List UInt8) : CustSessions :=
  (s.setList .current (SessionType.current.key custServiceId)
    (lrem (s.lists .current (SessionType.current.key custServiceId)) userId)).setDispatchIn userId none

theorem delUserFromCustCurrent_of_nil {custServiceId : List UInt8} (huser : UserFits userId)
    (hmem : userId ∈ s.lists .current (SessionType.current.key custServiceId))
    (hqueue : (s.removed custServiceId userId).lists .queue
      (SessionType.queue.key custServiceId) = []) :
    s.delUserFromCustCurrent custServiceId userId = ([], s.removed custServiceId userId) := by
  simp only [removed] at hqueue ⊢
  simp only [delUserFromCustCurrent, huser.cStr, if_pos hmem, hqueue]

theorem delUserFromCustCurrent_of_cons {custServiceId q : List UInt8} {rest : List (List UInt8)}
    (huser : UserFits userId)
    (hmem : userId ∈ s.lists .current (SessionType.current.key custServiceId))
    (hqueue : (s.removed custServiceId userId).lists .queue
      (SessionType.queue.key custServiceId) = q :: rest) :
    s.delUserFromCustCurrent custServiceId userId = (q, ((s.removed custServiceId userId).setList
      .queue (SessionType.queue.key custServiceId) rest).userToCustCurrent q custServiceId) := by
  simp only [removed] at hqueue ⊢
  simp only [delUserFromCustCurrent, huser.cStr, if_pos hmem, hqueue]

theorem delUserFromCustCurrent_of_not_mem {custServiceId : List UInt8}
    (hmem : CText.cStr userId ∉ s.lists .current (SessionType.current.key custServiceId)) :
    s.delUserFromCustCurrent custServiceId userId = ([], s) :=
  if_neg hmem

/-- The closed session leaves the current list. A user who stands there twice is still in it. -/
theorem Agrees.remove (h : Agrees serviceId users place s) (husers : ∀ u ∈ users, UserFits u)
    (hcust : CustFits serviceId custId) (huser : UserFits userId)
    (hmem : userId ∈ s.lists .current (SessionType.current.key (CUST.packCustBind custId serviceId))) :
    ∃ place', Agrees serviceId users place' ({ s with closed := userId :: s.closed }.removed
      (CUST.packCustBind custId serviceId) userId) := by
  have hplace := h.place_of_mem_current hcust hmem
  rw [removed]
  revert hmem
  generalize hkey : SessionType.current.key (CUST.packCustBind custId serviceId) = key
  intro hmem
  let place' : List UInt8 → Option Place := fun u =>
    if u = userId ∧ userId ∉ lrem (s.lists .current key) userId then none else place u
  have hother : ∀ u, u ≠ userId → place' u = place u := fun u hu => if_neg fun hcond => hu hcond.1
  have hself : ∀ p, place' userId = some p → p = .current custId := by
    intro p hp
    exact Option.some.inj ((Option.ite_none_left_eq_some.mp hp).2.symm.trans hplace)
  have hsame : ∀ u p, (∀ a, p ≠ Place.current a) → (place' u = some p ↔ place u = some p) := by
    intro u p hp
    by_cases hu : u = userId
    · subst hu
      refine ⟨fun heq => absurd (hself p heq) (hp custId), fun heq => ?_⟩
      exact absurd (Option.some.inj (heq.symm.trans hplace)) (hp custId)
    · rw [hother u hu]
  refine ⟨place', {
    service := fun u => (h.service u).trans (hsame u _ fun a => by simp).symm
    queue := fun u a => (h.queue u a).trans (hsame u _ fun a => by simp).symm
    lists := fun u type' key' => ?_
    tracked := fun u hu hclosed => ?_
    waits := fun u hu => ?_
    cust := fun u a hu => ?_
    serviceOnce := h.serviceOnce
    custOnce := h.custOnce
    queueOnce := fun key' => ?_ }⟩
  · show u ∈ (s.setList .current key (lrem (s.lists .current key) userId)).lists type' key' ↔ _
    rw [lists_setList]
    by_cases hu : u = userId
    · subst hu
      have hin : (type' = .current ∧ key' = key) ↔
          (Place.current custId).list serviceId = some (type', key') := by
        rw [Place.list, hkey, Option.some.injEq, Prod.mk.injEq, eq_comm, @eq_comm _ key']
      by_cases hlist : type' = .current ∧ key' = key
      · rw [if_pos hlist]
        by_cases hleft : u ∈ lrem (s.lists .current key) u
        · refine iff_of_true hleft ⟨.current custId, ?_, hin.mp hlist⟩
          exact (if_neg fun hcond => hcond.2 hleft).trans hplace
        · refine iff_of_false hleft ?_
          rintro ⟨p, hp, -⟩
          exact (Option.ite_none_left_eq_some.mp hp).1 ⟨rfl, hleft⟩
      · rw [if_neg hlist, h.lists]
        refine iff_of_false ?_ ?_
        · rintro ⟨p, hp, hplist⟩
          obtain rfl := Option.some.inj (hp.symm.trans hplace)
          exact hlist (hin.mpr hplist)
        · rintro ⟨p, hp, hplist⟩
          obtain rfl := hself p hp
          exact hlist (hin.mpr hplist)
    · rw [hother u hu, ← h.lists]
      split
      · next hlist => rw [mem_lrem_of_ne hu, hlist.1, hlist.2]
      · rfl
  · have hne : u ≠ userId := fun heq => hclosed (heq ▸ List.mem_cons_self)
    obtain ⟨p, hp, hdispatch, hcurrent⟩ := h.tracked u hu fun hmem =>
      hclosed (List.mem_cons_of_mem _ hmem)
    refine ⟨p, (hother u hne).trans hp, ?_, hcurrent⟩
    refine Eq.trans (Function.update_of_ne ?_ ..) hdispatch
    rw [(husers u hu).userKey, huser.userKey]
    exact hne
  · have hold : place u = some .service ∨ ∃ a, place u = some (.queue a) :=
      hu.imp (hsame u _ fun a => by simp).mp fun ⟨a, ha⟩ => ⟨a, (hsame u _ fun b => by simp).mp ha⟩
    obtain ⟨hmem', hclosed⟩ := h.waits u hold
    refine ⟨hmem', fun hin => ?_⟩
    obtain rfl | hin := List.mem_cons.mp hin
    · rw [hplace] at hold
      simp at hold
    · exact hclosed hin
  · exact h.cust u a (hu.imp (hsame u _ fun b => by simp).mp fun hcurrent =>
      (Option.ite_none_left_eq_some.mp hcurrent).2)
  · show ((s.setList .current key (lrem (s.lists .current key) userId)).lists .queue key').Nodup
    rw [lists_setList, if_neg fun hcond => by cases hcond.1]
    exact h.queueOnce key'

theorem exists_mem_upsert {rec : CCustBase} {recs : List CCustBase}
    {key : List UInt8 × List UInt8 × List UInt8} : (∃ rec' ∈ rec.upsert recs, rec'.keyDoc = key) ↔
      rec.keyDoc = key ∨ ∃ rec' ∈ recs, rec'.keyDoc = key := by
  induction recs with
  | nil => simp [CCustBase.upsert]
  | cons first recs ih =>
    rw [CCustBase.upsert]
    split
    · next hkey => simp [hkey]
    · simp only [List.exists_mem_cons_iff, ih]
      exact or_left_comm

/-- The first user of the queue becomes a current session in the cache. -/
theorem userToCustCurrent_of_queue {q : List UInt8} (huser : UserFits q)
    (hdispatch : s.dispatchIn (userKey q) = some (dispatchEntry .queue custId)) :
    s.userToCustCurrent q custId = (s.rpush .current (SessionType.current.key custId)
      [q]).setDispatchIn q (some (dispatchEntry .current custId)) := by
  rw [userToCustCurrent, hdispatch, huser.cStr]
  refine if_neg ?_
  rw [Option.any_some, decide_eq_true_eq, not_and]
  exact fun _ => string2int_text .queue

/-- The first user of the queue has moved up, in the store as well. -/
def movedUp (s : CustSessions) (custServiceId q : List UInt8) (rest : List (List UInt8))
    (rec : CCustBase) : CustSessions :=
  ((({ s with
    custWait := s.custWait.erase rec
    custProcessed := rec.upsert s.custProcessed }).setList .queue
      (SessionType.queue.key custServiceId) rest).rpush .current
        (SessionType.current.key custServiceId) [q]).setDispatchIn q
          (some (dispatchEntry .current custServiceId))

theorem lists_movedUp (custServiceId q : List UInt8) (rest : List (List UInt8)) (rec : CCustBase)
    (type : SessionType) (key : List UInt8) : (s.movedUp custServiceId q rest rec).lists type key =
      if type = .current ∧ key = SessionType.current.key custServiceId then s.lists type key ++ [q]
      else if type = .queue ∧ key = SessionType.queue.key custServiceId then rest
      else s.lists type key := by
  rw [movedUp, setDispatchIn, rpush, lists_setList, lists_setList, lists_setList]
  split
  · next hcurrent => simp [hcurrent.1, hcurrent.2]
  · rfl

theorem Agrees.movedUp (h : Agrees serviceId users place s) (husers : ∀ u ∈ users, UserFits u)
    (hcust : CustFits serviceId custId) {q : List UInt8} {rest : List (List UInt8)}
    (hqueue : s.lists .queue (SessionType.queue.key (CUST.packCustBind custId serviceId)) =
      q :: rest) {rec : CCustBase} (hrec : rec ∈ s.custWait)
    (hkey : rec.keyDoc = (custId, q, serviceId)) : Agrees serviceId users
      (Function.update place q (some (.current custId)))
      (s.movedUp (CUST.packCustBind custId serviceId) q rest rec) := by
  have hplace : place q = some (.queue custId) :=
    h.place_of_mem_queue hcust (hqueue ▸ List.mem_cons_self)
  obtain ⟨hq, hopen⟩ := h.waits q (.inr ⟨custId, hplace⟩)
  have hrest := h.queueOnce (SessionType.queue.key (CUST.packCustBind custId serviceId))
  rw [hqueue] at hrest
  have herase : ∀ rec', rec' ∈ s.custWait.erase rec ↔ rec' ≠ rec ∧ rec' ∈ s.custWait := fun rec' =>
    (List.Nodup.of_map _ h.custOnce).mem_erase_iff
  refine {
    service := fun u => ?_
    queue := fun u a => ?_
    lists := fun u type key => ?_
    tracked := fun u hu hclosed => ?_
    waits := fun u hu => ?_
    cust := fun u a hu => ?_
    serviceOnce := h.serviceOnce
    custOnce := h.custOnce.sublist (List.erase_sublist.map _)
    queueOnce := fun key => ?_ }
  · refine (h.service u).trans ?_
    by_cases hu : u = q
    · simp [hu, hplace]
    · simp [hu]
  · have hin : (s.movedUp (CUST.packCustBind custId serviceId) q rest rec).InStore serviceId u
        (.queue a) ↔ ∃ rec' ∈ s.custWait, rec' ≠ rec ∧ rec'.keyDoc = (a, u, serviceId) := by
      refine exists_congr fun rec' => ?_
      rw [← and_assoc, and_comm (b := rec' ≠ rec)]
      exact and_congr_left' (herase rec')
    rw [hin]
    by_cases hu : u = q
    · subst hu
      simp only [Function.update_self, Option.some.injEq, reduceCtorEq, iff_false]
      rintro ⟨rec', hrec', hne, hkey'⟩
      have ha := (h.queue u a).mp ⟨rec', hrec', hkey'⟩
      obtain rfl : a = custId := by simpa [hplace, eq_comm] using ha
      exact hne (List.inj_on_of_nodup_map h.custOnce hrec' hrec (hkey'.trans hkey.symm))
    · rw [Function.update_of_ne hu, ← h.queue]
      refine exists_congr fun rec' => ⟨fun ⟨hmem, _, hkey'⟩ => ⟨hmem, hkey'⟩, fun ⟨hmem, hkey'⟩ =>
        ⟨hmem, ?_, hkey'⟩⟩
      rintro rfl
      exact hu (Prod.mk.inj (Prod.mk.inj (hkey'.symm.trans hkey)).2).1
  · rw [lists_movedUp]
    by_cases hu : u = q
    · subst hu
      simp only [Function.update_self, Option.some.injEq, exists_eq_left', Place.list, Prod.mk.injEq]
      split
      · next hcurrent => simp [hcurrent.1, hcurrent.2]
      · next hcurrent =>
        refine iff_of_false ?_ fun hlist => hcurrent ⟨hlist.1.symm, hlist.2.symm⟩
        split
        · exact (List.nodup_cons.mp hrest).1
        · next hlist =>
          rw [h.lists]
          rintro ⟨p, hp, hplist⟩
          obtain rfl := Option.some.inj (hp.symm.trans hplace)
          obtain ⟨htype, hsame⟩ := Prod.mk.inj (Option.some.inj hplist)
          exact hlist ⟨htype.symm, hsame.symm⟩
    · rw [Function.update_of_ne hu, ← h.lists]
      split
      · rw [List.mem_append, List.mem_singleton, or_iff_left hu]
      · split
        · next hlist => rw [hlist.1, hlist.2, hqueue, List.mem_cons, or_iff_right hu]
        · rfl
  · have hupsert : ∀ a, (s.movedUp (CUST.packCustBind custId serviceId) q rest rec).InStore serviceId
        u (.current a) ↔ rec.keyDoc = (a, u, serviceId) ∨ s.InStore serviceId u (.current a) :=
      fun a => exists_mem_upsert
    obtain ⟨p, hp, hdispatch, hcurrent⟩ := h.tracked u hu hclosed
    by_cases hne : u = q
    · subst hne
      obtain rfl : p = .queue custId := Option.some.inj (hp.symm.trans hplace)
      refine ⟨.current custId, Function.update_self .., Function.update_self .., fun a => ?_⟩
      rw [hupsert, hcurrent, hkey]
      simp
    · refine ⟨p, (Function.update_of_ne hne ..).trans hp, ?_, fun a => ?_⟩
      · refine (Function.update_of_ne ?_ ..).trans hdispatch
        rw [(husers u hu).userKey, (husers q hq).userKey]
        exact hne
      · rw [hupsert, hcurrent, or_iff_right]
        intro hsame
        exact hne (Prod.mk.inj (Prod.mk.inj (hsame.symm.trans hkey)).2).1
  · by_cases hne : u = q
    · simp [hne] at hu
    · rw [Function.update_of_ne hne] at hu
      exact h.waits u hu
  · by_cases hne : u = q
    · have ha : custId = a := by simpa [hne] using hu
      exact ha ▸ hcust
    · rw [Function.update_of_ne hne] at hu
      exact h.cust u a hu
  · rw [lists_movedUp, if_neg fun hcond => by cases hcond.1]
    split
    · exact (List.nodup_cons.mp hrest).2
    · exact h.queueOnce key

theorem Agrees.moveUp (h : Agrees serviceId users place s) (husers : ∀ u ∈ users, UserFits u)
    (hcust : CustFits serviceId custId) {q : List UInt8} {rest : List (List UInt8)}
    (hqueue : s.lists .queue (SessionType.queue.key (CUST.packCustBind custId serviceId)) =
      q :: rest) {s' : CustSessions}
    (hs' : s' = (s.setList .queue (SessionType.queue.key (CUST.packCustBind custId serviceId))
      rest).userToCustCurrent q (CUST.packCustBind custId serviceId)) :
    q ≠ [] ∧ ∃ place', Agrees serviceId users place'
      ((s'.deleteCustWait custId q serviceId).2.insertCustProcessed
        (s'.deleteCustWait custId q serviceId).1).2 := by
  have hplace : place q = some (.queue custId) :=
    h.place_of_mem_queue hcust (hqueue ▸ List.mem_cons_self)
  obtain ⟨hq, hopen⟩ := h.waits q (.inr ⟨custId, hplace⟩)
  have huser := husers q hq
  obtain ⟨p, hp, hdispatch, -⟩ := h.tracked q hq hopen
  obtain rfl : p = .queue custId := Option.some.inj (hp.symm.trans hplace)
  obtain ⟨rec, hfind⟩ : ∃ rec, (s.custWait.find? fun rec =>
      rec.keyDoc = (custId, q, serviceId)) = some rec := by
    obtain ⟨rec, hrec, hkey⟩ := (h.queue q custId).mpr hplace
    exact Option.isSome_iff_exists.mp (List.find?_isSome.mpr ⟨rec, hrec, decide_eq_true hkey⟩)
  have hkey : rec.keyDoc = (custId, q, serviceId) := by simpa using List.find?_some hfind
  have hvalid : rec.isValid := by
    obtain ⟨hcustId, hkey⟩ := Prod.mk.inj hkey
    obtain ⟨huserId, hserviceId⟩ := Prod.mk.inj hkey
    exact ⟨hcustId ▸ hcust.cust.1, huserId ▸ huser.1, hserviceId ▸ hcust.service.1⟩
  have hmoved := h.movedUp husers hcust hqueue (List.mem_of_find?_eq_some hfind) hkey
  have hstate : ((s'.deleteCustWait custId q serviceId).2.insertCustProcessed
      (s'.deleteCustWait custId q serviceId).1).2 =
        s.movedUp (CUST.packCustBind custId serviceId) q rest rec := by
    have hup := userToCustCurrent_of_queue
      (s := s.setList .queue (SessionType.queue.key (CUST.packCustBind custId serviceId)) rest)
      huser hdispatch
    rw [hs', hup]
    simp only [deleteCustWait, rpush, setList, setDispatchIn, hfind, insertCustProcessed,
      if_pos hvalid]
    rfl
  exact ⟨huser.1, _, hstate ▸ hmoved⟩

/-- A session that is not there is not closed, but the agent gets a user for his queue. -/
theorem Agrees.sessionClose_of_not_mem (h : Agrees serviceId users place s)
    (husers : ∀ u ∈ users, UserFits u) (hcust : CustFits serviceId custId)
    (hmem : CText.cStr userId ∉
      s.lists .current (SessionType.current.key (CUST.packCustBind custId serviceId))) :
    ∃ place', Agrees serviceId users place' (s.sessionClose custId serviceId userId) := by
  simp only [sessionClose, delUserFromCustCurrent_of_not_mem hmem, ne_eq, not_true_eq_false,
    if_false]
  exact h.dispatchQueueSessions husers hcust 1

theorem Agrees.sessionCloseHandler (h : Agrees serviceId users place s)
    (husers : ∀ u ∈ users, UserFits u) (hcust : CustFits serviceId custId) (huser : UserFits userId)
    (sessionType : Int) : ∃ place', Agrees serviceId users place'
      (s.sessionCloseHandler custId serviceId userId sessionType) := by
  rw [CustSessions.sessionCloseHandler]
  split
  · simp only [huser.cStr]
    by_cases hmem : userId ∈
        s.lists .current (SessionType.current.key (CUST.packCustBind custId serviceId))
    · rw [if_pos hmem]
      obtain ⟨place₁, h₁⟩ := h.remove husers hcust huser hmem
      let before : CustSessions := { s with closed := userId :: s.closed }
      cases hqueue : (before.removed (CUST.packCustBind custId serviceId) userId).lists .queue
          (SessionType.queue.key (CUST.packCustBind custId serviceId)) with
      | nil =>
        have hdel := delUserFromCustCurrent_of_nil (s := before) huser hmem hqueue
        show ∃ place', Agrees serviceId users place' (before.sessionClose custId serviceId userId)
        simp only [sessionClose, hdel, ne_eq, not_true_eq_false, if_false]
        exact h₁.dispatchQueueSessions husers hcust 1
      | cons q rest =>
        have hdel := delUserFromCustCurrent_of_cons (s := before) huser hmem hqueue
        obtain ⟨hq, place₂, h₂⟩ := h₁.moveUp husers hcust hqueue rfl
        show ∃ place', Agrees serviceId users place' (before.sessionClose custId serviceId userId)
        simp only [sessionClose, hdel, ne_eq, hq, not_false_eq_true, if_true]
        exact h₂.dispatchQueueSessions husers hcust 1
    · rw [if_neg hmem]
      exact h.sessionClose_of_not_mem husers hcust (huser.cStr.symm ▸ hmem)
  · exact ⟨place, h⟩

theorem insertCustProcessed_of_no_user {rec : CCustBase} (hrec : rec.userId = []) :
    s.insertCustProcessed rec = (false, s) :=
  if_neg fun hvalid => hvalid.2.1 hrec

/-- The agent gives away a session that he does not have, and gets a user for his queue. -/
theorem Agrees.sessionTransferHandler (h : Agrees serviceId users place s)
    (husers : ∀ u ∈ users, UserFits u) (hcust : CustFits serviceId custId) {sessionType : Int}
    (hgood : s.TransferGood serviceId custId userId sessionType) (toCustId : List UInt8) (now : Int) :
    ∃ place', Agrees serviceId users place'
      (s.sessionTransferHandler custId toCustId serviceId userId sessionType now) := by
  rw [CustSessions.sessionTransferHandler]
  by_cases hcurrent : sessionType = SessionType.current.num
  · obtain ⟨place', h'⟩ := h.sessionClose_of_not_mem husers hcust (hgood.1 hcurrent)
    refine ⟨place', ?_⟩
    simp only [hcurrent, true_or, if_true, insertCustProcessed_of_no_user, Bool.false_eq_true,
      if_false]
    exact h'
  · by_cases hqueue : sessionType = SessionType.queue.num
    · have hnone : s.custWait.find? (fun rec => rec.keyDoc = (custId, userId, serviceId)) = none :=
        List.find?_eq_none.mpr fun rec hrec => by simpa using hgood.2 hqueue rec hrec
      have hdelete : s.deleteCustWait custId userId serviceId = ({}, s) := by
        simp only [deleteCustWait, hnone]
      have hdiff : SessionType.queue.num ≠ SessionType.current.num := by decide
      obtain ⟨place', h'⟩ := h.dispatchQueueSessions husers hcust 1
      refine ⟨place', ?_⟩
      simp only [hqueue, hdiff, or_true, if_true, if_false, hdelete,
        insertCustProcessed_of_no_user, Bool.false_eq_true]
      exact h'
    · simp only [hcurrent, hqueue, or_self, if_false]
      exact ⟨place, h⟩

theorem Agrees.loginHandler (h : Agrees serviceId users place s)
    (husers : ∀ u ∈ users, UserFits u) (hcust : CustFits serviceId custId)
    (hgood : s.LoginGood serviceId custId) (pastEnd : List UInt8) :
    ∃ place', Agrees serviceId users place' (s.loginHandler custId serviceId pastEnd) := by
  have hnobody : (if s.getCustCurrentSessions custId serviceId = [] then
      s.dispatchCurrentSessions custId serviceId 15 pastEnd else s) = s := by
    split
    · next hnone =>
      obtain ⟨hcustWait, hserviceWait⟩ := hgood.resolve_left (not_not.mpr hnone)
      have hwaits : ∀ num, s.getServiceWaits serviceId num = [] := fun num =>
        List.eq_nil_iff_forall_not_mem.mpr fun rec hrec =>
          hserviceWait rec (mem_getServiceWaits hrec).1 (mem_getServiceWaits hrec).2
      simp only [dispatchCurrentSessions, hcustWait, hwaits, List.map_nil, List.append_nil, if_true]
    · rfl
  rw [CustSessions.loginHandler, hnobody]
  split
  · exact h.dispatchQueueSessions husers hcust 15
  · exact ⟨place, h⟩

/-- The user comes to the agent, or stands in his list once more. -/
theorem Agrees.sessionActiveHander (h : Agrees serviceId users place s)
    (husers : ∀ u ∈ users, UserFits u) (hcust : CustFits serviceId custId) (huser : UserFits userId)
    (hgood : s.ActiveGood serviceId custId userId) :
    ∃ place', Agrees serviceId users place' (s.sessionActiveHander custId serviceId userId) := by
  rw [CustSessions.sessionActiveHander, userToCustCurrent]
  split
  · exact ⟨place, h⟩
  rw [huser.cStr]
  have hservice : place userId ≠ some .service := fun hplace => by
    obtain ⟨rec, hrec, huserId, hservice⟩ := (h.service userId).mpr hplace
    exact hgood.service rec hrec hservice huserId
  have hqueue : ∀ a, place userId ≠ some (.queue a) := fun a hplace => by
    obtain ⟨rec, hrec, hkey⟩ := (h.queue userId a).mpr hplace
    have hids := Prod.mk.inj (Prod.mk.inj hkey).2
    exact hgood.cust rec hrec hids.2 hids.1
  have hcurrent : ∀ p, place userId = some p → p = .current custId := by
    intro p hplace
    cases p with
    | service => exact absurd hplace hservice
    | queue a => exact absurd hplace (hqueue a)
    | current a =>
      have hlisted := (h.lists userId _ _).mpr ⟨.current a, hplace, rfl⟩
      have hkey := (hgood.lists _ _ hlisted).2
      rw [(h.cust userId a (.inr hplace)).eq_of_key hcust hkey]
  refine ⟨Function.update place userId (some (.current custId)), {
    service := fun u => (h.service u).trans ?_
    queue := fun u a => (h.queue u a).trans ?_
    lists := fun u type key => ?_
    tracked := fun u hu hclosed => ?_
    waits := fun u hu => ?_
    cust := fun u a hu => ?_
    serviceOnce := h.serviceOnce
    custOnce := h.custOnce
    queueOnce := fun key => ?_ }⟩
  · by_cases hu : u = userId
    · simp [hu, hservice]
    · simp [hu]
  · by_cases hu : u = userId
    · simp [hu, hqueue]
    · simp [hu]
  · rw [setDispatchIn, rpush, lists_setList]
    by_cases hu : u = userId
    · subst hu
      simp only [Function.update_self, Option.some.injEq, exists_eq_left', Place.list, Prod.mk.injEq]
      split
      · next hlist => simp [hlist.1, hlist.2]
      · next hlist =>
        refine iff_of_false (fun hmem => hlist (hgood.lists type key hmem)) fun hsame => ?_
        exact hlist ⟨hsame.1.symm, hsame.2.symm⟩
    · rw [Function.update_of_ne hu, ← h.lists]
      split
      · next hlist => rw [hlist.1, hlist.2, List.mem_append, List.mem_singleton, or_iff_left hu]
      · rfl
  · obtain ⟨p, hp, hdispatch, hstore⟩ := h.tracked u hu hclosed
    by_cases hne : u = userId
    · subst hne
      obtain rfl := hcurrent p hp
      exact ⟨.current custId, Function.update_self .., Function.update_self .., hstore⟩
    · refine ⟨p, (Function.update_of_ne hne ..).trans hp, ?_, hstore⟩
      refine (Function.update_of_ne ?_ ..).trans hdispatch
      rw [(husers u hu).userKey, huser.userKey]
      exact hne
  · by_cases hne : u = userId
    · simp [hne] at hu
    · rw [Function.update_of_ne hne] at hu
      exact h.waits u hu
  · by_cases hne : u = userId
    · have ha : custId = a := by simpa [hne] using hu
      exact ha ▸ hcust
    · rw [Function.update_of_ne hne] at hu
      exact h.cust u a hu
  · rw [setDispatchIn, rpush, lists_setList, if_neg fun hcond => by cases hcond.1]
    exact h.queueOnce key

theorem Agrees.step (h : Agrees serviceId users place s) (husers : ∀ u ∈ users, UserFits u)
    {e : Event} (hgood : s.Good serviceId e) :
    ∃ place', Agrees serviceId users place' (s.step serviceId e) := by
  cases e with
  | login custId pastEnd => exact h.loginHandler husers hgood.1 hgood.2 pastEnd
  | sessionClose custId userId sessionType =>
    exact h.sessionCloseHandler husers hgood.1 hgood.2 sessionType
  | sessionTransfer fromCustId toCustId userId sessionType now =>
    exact h.sessionTransferHandler husers hgood.1 hgood.2 toCustId now
  | sessionActive custId userId =>
    exact h.sessionActiveHander husers hgood.1 hgood.2.1 hgood.2.2

/-- In a run of good steps nobody who waited is lost or split. -/
theorem conserved_of_good {recs : List CCustBase} (hwaiting : Waiting serviceId recs)
    (h : Run.Reaches (fun s e => some (step s serviceId e)) (fun s e => s.Good serviceId e)
      (start recs) s) : s.Conserved serviceId (recs.map CCustBase.userId) := by
  have husers : ∀ u ∈ recs.map CCustBase.userId, UserFits u := by
    intro u hu
    obtain ⟨rec, hrec, rfl⟩ := List.mem_map.mp hu
    exact hwaiting.fits rec hrec
  obtain ⟨place, hagrees⟩ := h.invariant
    (fun s => ∃ place, Agrees serviceId (recs.map CCustBase.userId) place s)
    ⟨_, .start hwaiting⟩ fun s e s' hs hgood hstep => by
      cases hstep
      obtain ⟨place, hs⟩ := hs
      exact hs.step husers hgood
  exact hagrees.conserved

section Runs

def textOf (text : String) : List UInt8 := CText.bytes text

def twoUsers : List CCustBase :=
  [{ userId := textOf "u", serviceId := textOf "s", lastMsgTime := 1 },
    { userId := textOf "v", serviceId := textOf "s", lastMsgTime := 2 }]

theorem waiting_twoUsers : Waiting (textOf "s") twoUsers where
  service := by decide
  fits rec hrec := by
    obtain rfl | hrec := List.mem_cons.mp hrec
    · exact ⟨by decide, by decide, by decide⟩
    · cases List.mem_singleton.mp hrec
      exact ⟨by decide, by decide, by decide⟩
  once := by decide

/-- An agent with the session of `w` gets `v` for his queue, closes the session, so that `v` moves up
and `u` waits for him, logs in again, and gives away a session that he does not have. -/
def served : CustSessions :=
  ((((start twoUsers).step (textOf "s") (.sessionActive (textOf "a") (textOf "w"))).step (textOf "s")
    (.sessionClose (textOf "a") (textOf "x") 1)).step (textOf "s")
    (.sessionClose (textOf "a") (textOf "w") 1)).step (textOf "s")
    (.login (textOf "a") (textOf "u")) |>.step (textOf "s")
    (.sessionTransfer (textOf "a") (textOf "b") (textOf "x") 1 3)

theorem conserved_of_good_served :
    (served.custProcessed.map CCustBase.userId = [textOf "v"] ∧
        served.custWait.map CCustBase.userId = [textOf "u"] ∧ served.closed = [textOf "w"]) ∧
      served.Conserved (textOf "s") (twoUsers.map CCustBase.userId) := by
  have hcust : CustFits (textOf "s") (textOf "a") :=
    ⟨⟨by decide, by decide⟩, ⟨by decide, by decide⟩, by decide⟩
  have hactive : (start twoUsers).Good (textOf "s") (.sessionActive (textOf "a") (textOf "w")) :=
    ⟨hcust, ⟨by decide, by decide, by decide⟩, by decide, by decide,
      fun _ _ hmem => absurd hmem List.not_mem_nil⟩
  refine ⟨by decide, conserved_of_good waiting_twoUsers ?_⟩
  refine .next (.next (.next (.next (.next .refl hactive rfl) ?_ rfl) ?_ rfl) ?_ rfl) ?_ rfl
  · exact ⟨hcust, by decide, by decide, by decide⟩
  · exact ⟨hcust, by decide, by decide, by decide⟩
  · exact ⟨hcust, .inl (by decide)⟩
  · exact ⟨hcust, fun _ => by decide, fun htype => absurd htype (by decide)⟩

/-- An agent logs in, and the users who wait become his current sessions under another key. -/
theorem not_conserved :
    ¬ ((start twoUsers).step (textOf "s") (.login (textOf "a") (textOf "u"))).Conserved
      (textOf "s") (twoUsers.map CCustBase.userId) := by
  intro h
  obtain ⟨place, hplace⟩ := h.one (textOf "u") (by decide) (by decide)
  have hstore := (hplace.store (.current (textOf "a"))).mp
    ⟨{ custId := textOf "a", userId := textOf "u", serviceId := textOf "s", lastMsgTime := 1 },
      by decide, by decide⟩
  have hlist := (hplace.lists .current (textOf "a_s")).mpr (hstore ▸ by decide)
  exact absurd hlist (by decide)

end Runs

end CustSessions

end ImServer
