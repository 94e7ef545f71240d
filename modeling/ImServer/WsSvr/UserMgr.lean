import ImServer.Lib.CText
import ImServer.Lib.Run
import ImServer.Lib.Table
import Mathlib.Data.List.Sort

/-!
# Agents and their web connections

`CUserMgr` (wsSvr/userMgr.cpp) keeps for each agent and for each session the handle of a web
connection. A handle is a weak pointer: when the connection is lost, it is like an empty one. The
manager compares the pointers behind two handles, and so takes all lost connections for one.

`CCustWebProxy::on_message` lets a command pass when its session has the connection it comes from.
`CCustWebTask::loginHandler` kicks the agent out where he was, and issues a session for the
connection.
-/

namespace ImServer

namespace CUST

/-- An agent is known by his own id and the one of the service. -/
def bindText (custId serviceId : List UInt8) : List UInt8 :=
  CText.cStr custId ++ 95 :: CText.cStr serviceId

def packCustBind (custId serviceId : List UInt8) : List UInt8 :=
  CText.snprintf 128 (bindText custId serviceId)

def statusOnline : Nat := 1

def statusQuit : Nat := 4

def mesLogin : Int := 0x1001

end CUST

/-- The maps of `CUserMgr`. -/
structure CUserMgr where
  userConnMap : Table (List UInt8) Nat := ∅
  sessionConnMap : Table (List UInt8) Nat := ∅

/-- The web server. An agent who has logged in and has not been replaced or put out since has a
current login: the connection that it came on, and its session. -/
structure WebAgents where
  mgr : CUserMgr := {}
  custStatus : List UInt8 → Nat := fun _ => 0
  lost : Nat → Bool := fun _ => false
  -- what has happened so far
  issued : Nat := 0
  login : List UInt8 → Option (Nat × List UInt8) := fun _ => none

namespace WebAgents

variable (s : WebAgents)

/-- `hdl.lock().get()`. -/
def lock (hdl : Option Nat) : Option Nat := hdl.filter fun c => !s.lost c

/-- The keys whose handle has that pointer, in the order of the map. -/
def keysAt (connMap : Table (List UInt8) Nat) (pointer : Option Nat) : List (List UInt8) :=
  ((connMap.entries.filter fun row => s.lock (some row.2) = pointer).map Sigma.fst).insertionSort
    (· ≤ ·)

def usersAt (pointer : Option Nat) : List (List UInt8) := s.keysAt s.mgr.userConnMap pointer

def sessionsAt (pointer : Option Nat) : List (List UInt8) := s.keysAt s.mgr.sessionConnMap pointer

def getUserConn (userId : List UInt8) : Option Nat := s.mgr.userConnMap.lookup userId

def getSessionConn (session : List UInt8) : Option Nat := s.mgr.sessionConnMap.lookup session

/-- The key of an agent's status, behind its prefix. -/
def custInfoKey (custId : List UInt8) : List UInt8 := CText.snprintf 117 (CText.cStr custId)

def setCustStatus (custId : List UInt8) (status : Nat) : WebAgents :=
  { s with custStatus := Function.update s.custStatus (custInfoKey custId) status }

/-- The loop over the sessions that erases the first one with that pointer. -/
def eraseSessionAt (pointer : Option Nat) : WebAgents :=
  { s with mgr.sessionConnMap :=
      match (s.sessionsAt pointer).head? with
      | none => s.mgr.sessionConnMap
      | some session => s.mgr.sessionConnMap.erase session }

def delUserConn (userId : List UInt8) : WebAgents :=
  let hdl := s.getUserConn userId
  { s with mgr.userConnMap := s.mgr.userConnMap.erase userId }.eraseSessionAt (s.lock hdl)

/-- The login of the agent is no longer current. -/
def endLogin (userId : List UInt8) : WebAgents :=
  { s with login := Function.update s.login userId none }

def userOut (userId : List UInt8) : WebAgents :=
  let hdl := s.getUserConn userId
  (((s.setCustStatus userId CUST.statusQuit).delUserConn userId).eraseSessionAt (s.lock hdl)).endLogin
    userId

/-- `userKickOut`. What is sent to the agent has no effect here, and his connection stays open. -/
def userKickOut (userId : List UInt8) : WebAgents :=
  if s.custStatus (custInfoKey userId) ≠ CUST.statusQuit then (s.delUserConn userId).endLogin userId
  else s

def addUserConn (userId : List UInt8) (hdl : Nat) : WebAgents :=
  { s with mgr.userConnMap := s.mgr.userConnMap.insert userId hdl }

def addSessionConn (session : List UInt8) (hdl : Nat) : WebAgents :=
  { s with mgr.sessionConnMap := s.mgr.sessionConnMap.insert session hdl }

/-- `loginHandler`, with the sessions that `getuuid` makes. The status and the connection are kept
under an id from a shorter buffer than the one that is kicked out. -/
def loginHandler (uuid : Nat → List UInt8) (hdl : Nat) (custId serviceId : List UInt8) : WebAgents :=
  let custServiceId := CUST.packCustBind custId serviceId
  let custBind := CText.snprintf 47 (CUST.bindText custId serviceId)
  let sSessionId := uuid s.issued
  let s := (s.userKickOut custServiceId).setCustStatus custBind CUST.statusOnline
  let s := (s.addUserConn custBind hdl).addSessionConn sSessionId hdl
  { s with
    issued := s.issued + 1
    login := Function.update s.login custServiceId (some (hdl, sSessionId)) }

/-- `on_message` accepts the command. -/
def accepts (hdl : Nat) (cmd : Int) (sessionId : List UInt8) : Prop :=
  cmd = CUST.mesLogin ∨ s.lock (s.getSessionConn sessionId) = s.lock (some hdl)

def findUserByConn (hdl : Nat) : Option (List UInt8) := (s.usersAt (s.lock (some hdl))).head?

/-- `findUserBySession`, whose loop goes on to the last agent. -/
def findUserBySession (session : List UInt8) : Option (List UInt8) :=
  match s.getSessionConn session with
  | none => none
  | some hdl => (s.usersAt (s.lock (some hdl))).getLast?

inductive Event where
  | onOpen (hdl : Nat)
  | onClose (hdl : Nat)
  | login (hdl : Nat) (custId serviceId : List UInt8)
  | message (hdl : Nat) (cmd : Int) (sessionId : List UInt8)
  | userKickOut (userId : List UInt8)
  | userOut (userId : List UInt8)
  | findUserByConn (hdl : Nat)
  | findUserBySession (session : List UInt8)
  deriving DecidableEq, Repr

/-- What an event does to the connections and logins. A message with the command `STATUS_UPDATE`
also sets the status that `userKickOut` looks at; here it leaves the status as it is, so the runs are
those in which no agent sets his own status. -/
def step (uuid : Nat → List UInt8) : Event → WebAgents
  | .onClose hdl => { s with lost := Function.update s.lost hdl true }
  | .login hdl custId serviceId => s.loginHandler uuid hdl custId serviceId
  | .userKickOut userId => s.userKickOut userId
  | .userOut userId => s.userOut userId
  | .onOpen _ | .message .. | .findUserByConn _ | .findUserBySession _ => s

/-- The session was issued by the current login of the agent, not by one that another has
replaced. -/
def Own (userId session : List UInt8) : Prop := (s.login userId).map Prod.snd = some session

/-- The entries of the agent are gone, and those of the others are as they were. -/
structure Removed (s s' : WebAgents) (userId : List UInt8) : Prop where
  users : ∀ u, s'.getUserConn u = if u = userId then none else s.getUserConn u
  own : ∀ session, s.Own userId session → s'.getSessionConn session = none
  others : ∀ session, ¬ s.Own userId session → s'.getSessionConn session = s.getSessionConn session

/-- What an event may do: a message is accepted, and a look-up finds an agent, only for a login that
is there. -/
def Checked : Event → Prop
  | .message hdl cmd sessionId => cmd ≠ CUST.mesLogin → s.accepts hdl cmd sessionId →
      ∃ userId, s.login userId = some (hdl, sessionId)
  | .findUserByConn hdl => ∀ userId, s.findUserByConn hdl = some userId →
      ∃ session, s.login userId = some (hdl, session)
  | .findUserBySession session => ∀ userId, s.findUserBySession session = some userId →
      ∃ hdl session', s.getSessionConn session = some hdl ∧ s.login userId = some (hdl, session')
  | .userKickOut userId => Removed s (s.userKickOut userId) userId
  | .userOut userId => Removed s (s.userOut userId) userId
  | .login _ custId serviceId =>
    Removed s (s.userKickOut (CUST.packCustBind custId serviceId))
      (CUST.packCustBind custId serviceId)
  | .onOpen _ | .onClose _ => True

/-- The first session with the pointer of the agent is his own. -/
def KickGood (userId : List UInt8) : Prop :=
  s.custStatus (custInfoKey userId) = CUST.statusQuit ∨
    ∀ session ∈ (s.sessionsAt (s.lock (s.getUserConn userId))).head?, s.Own userId session

/-- A look-up with the handle does not take another lost connection for its own. -/
def FindGood (hdl : Nat) : Prop :=
  s.lost hdl = false ∨ ∀ userId ∈ s.usersAt none, s.getUserConn userId = some hdl

/-- The id of an agent fits the buffers, and nothing is taken for something else that is lost or on
the same connection. -/
def Good : Event → Prop
  | .message hdl _ sessionId => s.lost hdl = false ∨ s.lock (s.getSessionConn sessionId) ≠ none
  | .findUserByConn hdl => s.FindGood hdl
  | .findUserBySession session => ∀ hdl ∈ s.getSessionConn session, s.FindGood hdl
  | .userKickOut userId => s.KickGood userId
  | .userOut userId => (userId.length < 117 ∧ 0 ∉ userId) ∧
      ∀ session ∈ s.sessionsAt (s.lock (s.getUserConn userId)), s.Own userId session
  | .login _ custId serviceId => (CUST.bindText custId serviceId).length < 47 ∧
      s.KickGood (CUST.packCustBind custId serviceId)
  | .onOpen _ | .onClose _ => True

structure Inv (uuid : Nat → List UInt8) (s : WebAgents) : Prop where
  users : ∀ u c, s.getUserConn u = some c ↔ ∃ t, s.login u = some (c, t)
  sessions : ∀ t c, s.getSessionConn t = some c ↔ ∃ u, s.login u = some (c, t)
  issued : ∀ u c t, s.login u = some (c, t) → ∃ n < s.issued, t = uuid n
  unique : ∀ u v c c' t, s.login u = some (c, t) → s.login v = some (c', t) → u = v
  fits : ∀ u c t, s.login u = some (c, t) → u.length < 47 ∧ 0 ∉ u
  quit : ∀ u, u.length < 47 → 0 ∉ u → s.custStatus (custInfoKey u) = CUST.statusQuit →
    s.login u = none

variable {s} {s' : WebAgents} {uuid : Nat → List UInt8} {userId : List UInt8}

theorem own_iff {session : List UInt8} :
    s.Own userId session ↔ ∃ hdl, s.login userId = some (hdl, session) := by
  simp only [Own, Option.map_eq_some_iff, Prod.exists, exists_eq_right]

theorem mem_keysAt {connMap : Table (List UInt8) Nat} {pointer : Option Nat} {key : List UInt8} :
    key ∈ s.keysAt connMap pointer ↔ ∃ hdl, connMap.lookup key = some hdl ∧
      s.lock (some hdl) = pointer := by
  simp only [keysAt, List.mem_insertionSort, List.mem_map, List.mem_filter, decide_eq_true_eq]
  constructor
  · rintro ⟨⟨key', hdl⟩, ⟨hmem, hpointer⟩, rfl⟩
    exact ⟨hdl, AList.mem_lookup_iff.mpr hmem, hpointer⟩
  · rintro ⟨hdl, hlookup, hpointer⟩
    exact ⟨⟨key, hdl⟩, ⟨AList.mem_lookup_iff.mp hlookup, hpointer⟩, rfl⟩

theorem lock_eq_some {hdl : Option Nat} {c : Nat} :
    s.lock hdl = some c ↔ hdl = some c ∧ s.lost c = false := by
  simp [lock, Option.filter_eq_some_iff]

theorem custInfoKey_eq_self (hlength : userId.length < 117) (hzero : 0 ∉ userId) :
    custInfoKey userId = userId := by
  rw [custInfoKey, CText.cStr_eq_self_iff.mpr hzero, CText.snprintf_eq_self hlength]

theorem Inv.start : Inv uuid {} where
  users u c := by simp [getUserConn]
  sessions t c := by simp [getSessionConn]
  issued u c t h := by cases h
  unique u v c c' t h := by cases h
  fits u c t h := by cases h
  quit u _ _ _ := rfl

/-- The loop erases at most the first session of those with the pointer. -/
theorem getSessionConn_eraseSessionAt (pointer : Option Nat) (session : List UInt8) :
    (s.eraseSessionAt pointer).getSessionConn session =
      if (s.sessionsAt pointer).head? = some session then none else s.getSessionConn session := by
  rw [getSessionConn, eraseSessionAt]
  cases (s.sessionsAt pointer).head? with
  | none => rfl
  | some first =>
    by_cases hfirst : first = session
    · subst hfirst
      simp
    · simp [hfirst, AList.lookup_erase_ne (Ne.symm hfirst), getSessionConn]

theorem getUserConn_delUserConn (u : List UInt8) :
    (s.delUserConn userId).getUserConn u = if u = userId then none else s.getUserConn u := by
  by_cases hu : u = userId
  · subst hu
    simp [delUserConn, eraseSessionAt, getUserConn]
  · simp [delUserConn, eraseSessionAt, getUserConn, hu, AList.lookup_erase_ne hu]

/-- If the first session with the pointer of the agent is his own, it is the one that goes. -/
theorem Inv.getSessionConn_delUserConn (h : Inv uuid s)
    (hfirst : ∀ t ∈ (s.sessionsAt (s.lock (s.getUserConn userId))).head?, s.Own userId t)
    (session : List UInt8) : (s.Own userId session →
      (s.delUserConn userId).getSessionConn session = none) ∧ (¬ s.Own userId session →
      (s.delUserConn userId).getSessionConn session = s.getSessionConn session) := by
  have herase : (s.delUserConn userId).getSessionConn session =
      if (s.sessionsAt (s.lock (s.getUserConn userId))).head? = some session then none
      else s.getSessionConn session := getSessionConn_eraseSessionAt _ session
  rw [herase]
  refine ⟨fun hown => ?_, fun hother => ?_⟩
  · obtain ⟨hdl, hlogin⟩ := own_iff.mp hown
    have huser : s.getUserConn userId = some hdl := (h.users userId hdl).mpr ⟨session, hlogin⟩
    have hmem : session ∈ s.sessionsAt (s.lock (s.getUserConn userId)) :=
      mem_keysAt.mpr ⟨hdl, (h.sessions session hdl).mpr ⟨userId, hlogin⟩, by rw [huser]⟩
    obtain ⟨first, rest, hlist⟩ := List.exists_cons_of_ne_nil (List.ne_nil_of_mem hmem)
    rw [hlist] at hfirst ⊢
    have hsame := hfirst first rfl
    rw [Own, hlogin] at hsame
    exact if_pos hsame.symm
  · refine if_neg fun hhead => ?_
    exact hother (hfirst session hhead)

theorem Inv.remove (h : Inv uuid s) (hremoved : Removed s s' userId)
    (hlogin : s'.login = Function.update s.login userId none) (hissued : s'.issued = s.issued)
    (hquit : ∀ u, u ≠ userId → u.length < 47 → 0 ∉ u →
      s'.custStatus (custInfoKey u) = CUST.statusQuit →
        s.custStatus (custInfoKey u) = CUST.statusQuit) : Inv uuid s' := by
  have hkept : ∀ {u c t}, s'.login u = some (c, t) ↔ u ≠ userId ∧ s.login u = some (c, t) := by
    intro u c t
    rw [hlogin]
    by_cases hu : u = userId
    · simp [hu]
    · simp [hu]
  refine {
    users := fun u c => ?_
    sessions := fun t c => ?_
    issued := fun u c t hu => ?_
    unique := fun u v c c' t hu hv => h.unique u v c c' t (hkept.mp hu).2 (hkept.mp hv).2
    fits := fun u c t hu => h.fits u c t (hkept.mp hu).2
    quit := fun u hlength hzero hstatus => ?_ }
  · rw [hremoved.users]
    by_cases hu : u = userId
    · simp [hkept, hu]
    · simp [hkept, hu, h.users]
  · by_cases hown : s.Own userId t
    · rw [hremoved.own t hown]
      simp only [reduceCtorEq, hkept, ne_eq, false_iff, not_exists, not_and]
      intro u hu hlogin'
      obtain ⟨c', hmine⟩ := own_iff.mp hown
      exact hu (h.unique u userId c c' t hlogin' hmine)
    · rw [hremoved.others t hown, h.sessions]
      refine exists_congr fun u => ⟨fun hu => hkept.mpr ⟨?_, hu⟩, fun hu => (hkept.mp hu).2⟩
      rintro rfl
      exact hown (own_iff.mpr ⟨c, hu⟩)
  · rw [hissued]
    exact h.issued u c t (hkept.mp hu).2
  · by_cases hu : u = userId
    · rw [hlogin, hu, Function.update_self]
    · rw [hlogin, Function.update_of_ne hu]
      exact h.quit u hlength hzero (hquit u hu hlength hzero hstatus)

theorem Inv.login_eq_none (h : Inv uuid s)
    (hquit : s.custStatus (custInfoKey userId) = CUST.statusQuit) : s.login userId = none := by
  cases hlogin : s.login userId with
  | none => rfl
  | some entry =>
    obtain ⟨hlength, hzero⟩ := h.fits userId entry.1 entry.2 hlogin
    rw [h.quit userId hlength hzero hquit] at hlogin
    cases hlogin

theorem Inv.removed_userKickOut (h : Inv uuid s) (hgood : s.KickGood userId) :
    Removed s (s.userKickOut userId) userId := by
  rw [userKickOut]
  split
  · next hstatus =>
    have hsessions := h.getSessionConn_delUserConn (hgood.resolve_left hstatus)
    exact ⟨getUserConn_delUserConn, fun t => (hsessions t).1, fun t => (hsessions t).2⟩
  · next hstatus =>
    have hnone := h.login_eq_none (not_not.mp hstatus)
    refine ⟨fun u => ?_, fun t hown => ?_, fun t _ => rfl⟩
    · split
      · next hu =>
        subst hu
        refine Option.eq_none_iff_forall_ne_some.mpr fun c hc => ?_
        obtain ⟨t, hlogin⟩ := (h.users u c).mp hc
        cases hnone.symm.trans hlogin
      · rfl
    · obtain ⟨c, hlogin⟩ := own_iff.mp hown
      cases hnone.symm.trans hlogin

theorem Inv.login_userKickOut (h : Inv uuid s) :
    (s.userKickOut userId).login = Function.update s.login userId none := by
  rw [userKickOut]
  split
  · rfl
  · next hstatus => rw [← h.login_eq_none (not_not.mp hstatus), Function.update_eq_self]

theorem custStatus_userKickOut : (s.userKickOut userId).custStatus = s.custStatus := by
  rw [userKickOut]
  split <;> rfl

theorem issued_userKickOut : (s.userKickOut userId).issued = s.issued := by
  rw [userKickOut]
  split <;> rfl

theorem Inv.userKickOut (h : Inv uuid s) (hgood : s.KickGood userId) :
    Inv uuid (s.userKickOut userId) :=
  h.remove (h.removed_userKickOut hgood) h.login_userKickOut issued_userKickOut
    fun _ _ _ _ hstatus => (@custStatus_userKickOut s userId) ▸ hstatus

theorem Inv.removed_userOut (h : Inv uuid s)
    (hgood : ∀ t ∈ s.sessionsAt (s.lock (s.getUserConn userId)), s.Own userId t) :
    Removed s (s.userOut userId) userId := by
  let before := s.setCustStatus userId CUST.statusQuit
  have hsessions : ∀ t, (s.Own userId t → (before.delUserConn userId).getSessionConn t = none) ∧
      (¬ s.Own userId t → (before.delUserConn userId).getSessionConn t = s.getSessionConn t) :=
    h.getSessionConn_delUserConn fun t ht => hgood t (List.mem_of_mem_head? ht)
  have hnone : (before.delUserConn userId).sessionsAt (s.lock (s.getUserConn userId)) = [] := by
    refine List.eq_nil_iff_forall_not_mem.mpr fun t ht => ?_
    obtain ⟨c, hlookup, hpointer⟩ := mem_keysAt.mp ht
    by_cases hown : s.Own userId t
    · cases ((hsessions t).1 hown).symm.trans hlookup
    · have hlookup' : s.getSessionConn t = some c := ((hsessions t).2 hown).symm.trans hlookup
      exact hown (hgood t (mem_keysAt.mpr ⟨c, hlookup', hpointer⟩))
  have hsecond : ∀ t, (s.userOut userId).getSessionConn t =
      (before.delUserConn userId).getSessionConn t := fun t => by
    refine (getSessionConn_eraseSessionAt _ t).trans ?_
    rw [hnone]
    rfl
  refine ⟨getUserConn_delUserConn (s := before), fun t hown => ?_, fun t hother => ?_⟩
  · rw [hsecond, (hsessions t).1 hown]
  · rw [hsecond, (hsessions t).2 hother]

theorem Inv.userOut (h : Inv uuid s) (hgood : Good s (.userOut userId)) :
    Inv uuid (s.userOut userId) := by
  obtain ⟨⟨hlength, hzero⟩, hown⟩ := hgood
  refine h.remove (h.removed_userOut hown) rfl rfl fun u hu hlength' hzero' hstatus => ?_
  have hkey : custInfoKey u ≠ custInfoKey userId := by
    rw [custInfoKey_eq_self (Nat.lt_of_lt_of_le hlength' (by decide)) hzero',
      custInfoKey_eq_self hlength hzero]
    exact hu
  refine Eq.trans ?_ hstatus
  exact (Function.update_of_ne hkey ..).symm

theorem zero_not_mem_bindText (custId serviceId : List UInt8) :
    0 ∉ CUST.bindText custId serviceId := by
  have hcStr : ∀ text : List UInt8, (0 : UInt8) ∉ CText.cStr text := fun text hmem => by
    have hzero := List.mem_takeWhile_imp hmem
    simp at hzero
  rw [CUST.bindText, List.mem_append, List.mem_cons, not_or, not_or]
  exact ⟨hcStr custId, by decide, hcStr serviceId⟩

/-- A login with a new session of an agent who has none. -/
theorem Inv.addLogin (h : Inv uuid s) (huuid : Function.Injective uuid) {hdl : Nat}
    (hlength : userId.length < 47) (hzero : 0 ∉ userId) (hnone : s.login userId = none) :
    Inv uuid { ((s.setCustStatus userId CUST.statusOnline).addUserConn userId hdl).addSessionConn
      (uuid s.issued) hdl with
      issued := s.issued + 1
      login := Function.update s.login userId (some (hdl, uuid s.issued)) } := by
  have hfresh : ∀ {v c}, s.login v ≠ some (c, uuid s.issued) := by
    intro v c hlogin
    obtain ⟨n, hn, heq⟩ := h.issued v c _ hlogin
    exact Nat.lt_irrefl n (huuid heq ▸ hn)
  have hlogin : ∀ {v c t},
      Function.update s.login userId (some (hdl, uuid s.issued)) v = some (c, t) ↔
      (v = userId ∧ c = hdl ∧ t = uuid s.issued) ∨ (v ≠ userId ∧ s.login v = some (c, t)) := by
    intro v c t
    by_cases hv : v = userId
    · simp [hv, eq_comm]
    · simp [hv]
  refine {
    users := fun v c => ?_
    sessions := fun t c => ?_
    issued := fun v c t hv => ?_
    unique := fun v w c c' t hv hw => ?_
    fits := fun v c t hv => ?_
    quit := fun v hlength' hzero' hstatus => ?_ }
  · by_cases hv : v = userId
    · subst hv
      simp [getUserConn, addSessionConn, addUserConn]
    · have hsame := h.users v c
      simp only [getUserConn] at hsame
      simp [getUserConn, addSessionConn, addUserConn, setCustStatus, hv, hsame]
  · by_cases ht : t = uuid s.issued
    · subst ht
      have hold : ¬ ∃ v, v ≠ userId ∧ s.login v = some (c, uuid s.issued) := fun ⟨v, _, hv⟩ =>
        hfresh hv
      simp only [hlogin, getSessionConn, addSessionConn, AList.lookup_insert, Option.some.injEq]
      constructor
      · rintro rfl
        exact ⟨userId, .inl ⟨rfl, rfl, trivial⟩⟩
      · rintro ⟨v, ⟨-, rfl, -⟩ | hv⟩
        · rfl
        · exact absurd ⟨v, hv⟩ hold
    · have hsame := h.sessions t c
      simp only [getSessionConn] at hsame
      simp only [hlogin, getSessionConn, addSessionConn, addUserConn, setCustStatus,
        AList.lookup_insert_ne ht, hsame, ht, and_false, false_or]
      refine exists_congr fun v => ⟨fun hv => ⟨?_, hv⟩, And.right⟩
      rintro rfl
      cases hnone.symm.trans hv
  · obtain ⟨-, -, rfl⟩ | ⟨-, hv⟩ := hlogin.mp hv
    · exact ⟨s.issued, Nat.lt_succ_self _, rfl⟩
    · obtain ⟨n, hn, heq⟩ := h.issued v c t hv
      exact ⟨n, Nat.lt_succ_of_lt hn, heq⟩
  · obtain ⟨rfl, -, rfl⟩ | ⟨-, hvOld⟩ := hlogin.mp hv
    · obtain ⟨rfl, -, -⟩ | ⟨-, hwOld⟩ := hlogin.mp hw
      · rfl
      · exact absurd hwOld hfresh
    · obtain ⟨-, -, rfl⟩ | ⟨-, hwOld⟩ := hlogin.mp hw
      · exact absurd hvOld hfresh
      · exact h.unique v w c c' t hvOld hwOld
  · obtain ⟨rfl, -, -⟩ | ⟨-, hv⟩ := hlogin.mp hv
    · exact ⟨hlength, hzero⟩
    · exact h.fits v c t hv
  · have hkey : ∀ u : List UInt8, u.length < 47 → u.length < 117 := fun u hu =>
      Nat.lt_of_lt_of_le hu (by decide)
    have hstatus' : Function.update s.custStatus (custInfoKey userId) CUST.statusOnline
        (custInfoKey v) = CUST.statusQuit := hstatus
    rw [custInfoKey_eq_self (hkey userId hlength) hzero, custInfoKey_eq_self (hkey v hlength') hzero']
      at hstatus'
    have hv : v ≠ userId := by
      rintro rfl
      rw [Function.update_self] at hstatus'
      exact absurd hstatus' (by decide)
    rw [Function.update_of_ne hv] at hstatus'
    refine (Function.update_of_ne hv ..).trans (h.quit v hlength' hzero' ?_)
    rwa [custInfoKey_eq_self (hkey v hlength') hzero']

theorem Inv.loginHandler (h : Inv uuid s) (huuid : Function.Injective uuid) {hdl : Nat}
    {custId serviceId : List UInt8} (hgood : Good s (.login hdl custId serviceId)) :
    Inv uuid (s.loginHandler uuid hdl custId serviceId) := by
  obtain ⟨hlength, hkick⟩ := hgood
  have hid : CUST.packCustBind custId serviceId = CUST.bindText custId serviceId :=
    CText.snprintf_eq_self (Nat.lt_of_lt_of_le hlength (by decide))
  have hbind : CText.snprintf 47 (CUST.bindText custId serviceId) =
      CUST.packCustBind custId serviceId := by
    rw [hid, CText.snprintf_eq_self hlength]
  have hnone : (s.userKickOut (CUST.packCustBind custId serviceId)).login
      (CUST.packCustBind custId serviceId) = none := by
    rw [h.login_userKickOut, Function.update_self]
  have hadd := @Inv.addLogin _ _ _ (h.userKickOut hkick) huuid hdl (hid ▸ hlength)
    (hid ▸ zero_not_mem_bindText custId serviceId) hnone
  have hissued : (s.userKickOut (CUST.packCustBind custId serviceId)).issued = s.issued :=
    issued_userKickOut
  rw [WebAgents.loginHandler, hbind, ← hissued]
  exact hadd

theorem Inv.step (h : Inv uuid s) (huuid : Function.Injective uuid) {e : Event}
    (hgood : Good s e) : Inv uuid (s.step uuid e) := by
  cases e with
  | onOpen | message | findUserByConn | findUserBySession => exact h
  | onClose hdl => exact ⟨h.users, h.sessions, h.issued, h.unique, h.fits, h.quit⟩
  | login hdl custId serviceId => exact h.loginHandler huuid hgood
  | userKickOut userId => exact h.userKickOut hgood
  | userOut userId => exact h.userOut hgood

/-- An agent whose handle looks like that of a connection is logged in there. -/
theorem Inv.login_of_mem_usersAt (h : Inv uuid s) {hdl : Nat} (hgood : s.FindGood hdl)
    (hmem : userId ∈ s.usersAt (s.lock (some hdl))) :
    ∃ session, s.login userId = some (hdl, session) := by
  refine (h.users userId hdl).mp ?_
  cases hlost : s.lost hdl with
  | false =>
    obtain ⟨c, hlookup, hpointer⟩ := mem_keysAt.mp hmem
    rw [lock_eq_some.mpr ⟨rfl, hlost⟩, lock_eq_some] at hpointer
    exact hpointer.1 ▸ hlookup
  | true =>
    refine hgood.resolve_left (by rw [hlost]; decide) userId ?_
    have hnull : s.lock (some hdl) = none := by simp [lock, hlost]
    rwa [hnull] at hmem

theorem Inv.checked (h : Inv uuid s) {e : Event} (hgood : Good s e) : Checked s e := by
  cases e with
  | onOpen | onClose => trivial
  | message hdl cmd sessionId =>
    intro hcmd haccepts
    have hsame := haccepts.resolve_left hcmd
    suffices hconn : s.getSessionConn sessionId = some hdl from (h.sessions sessionId hdl).mp hconn
    cases hlost : s.lost hdl with
    | false =>
      rw [lock_eq_some.mpr ⟨rfl, hlost⟩] at hsame
      exact (lock_eq_some.mp hsame).1
    | true =>
      have hnull : s.lock (some hdl) = none := by simp [lock, hlost]
      exact absurd (hsame.trans hnull) (hgood.resolve_left (by rw [hlost]; decide))
  | findUserByConn hdl =>
    intro userId hfind
    exact h.login_of_mem_usersAt hgood (List.mem_of_mem_head? hfind)
  | findUserBySession session =>
    intro userId hfind
    rw [findUserBySession] at hfind
    split at hfind
    · cases hfind
    · next hdl hconn =>
      obtain ⟨session', hlogin⟩ :=
        h.login_of_mem_usersAt (hgood hdl hconn) (List.mem_of_mem_getLast? hfind)
      exact ⟨hdl, session', hconn, hlogin⟩
  | userKickOut userId => exact h.removed_userKickOut hgood
  | userOut userId => exact h.removed_userOut hgood.2
  | login hdl custId serviceId => exact h.removed_userKickOut hgood.2

/-- While nothing is mixed up, a command passes only with the session of the current login on its
connection, look-ups find the agents who are logged in there, and who goes takes nobody with him. -/
theorem checked_of_good (huuid : Function.Injective uuid)
    (h : Run.Reaches (fun s e => some (step s uuid e)) Good {} s) {e : Event} (hgood : Good s e) :
    Checked s e := by
  refine (h.invariant (Inv uuid) .start ?_).checked hgood
  intro s e s' hinv hgood hstep
  cases hstep
  exact hinv.step huuid hgood

section Runs

instance decidableOwn (s : WebAgents) (userId session : List UInt8) :
    Decidable (s.Own userId session) :=
  inferInstanceAs (Decidable (_ = _))

instance decidableFindGood (s : WebAgents) (hdl : Nat) : Decidable (s.FindGood hdl) :=
  inferInstanceAs (Decidable (_ ∨ ∀ userId ∈ s.usersAt none, _))

instance decidableKickGood (s : WebAgents) (userId : List UInt8) : Decidable (s.KickGood userId) :=
  inferInstanceAs (Decidable (_ ∨ ∀ session ∈ List.head? _, _))

instance decidableGood (s : WebAgents) : (e : Event) → Decidable (Good s e)
  | .onOpen _ | .onClose _ => inferInstanceAs (Decidable True)
  | .message .. => inferInstanceAs (Decidable (_ ∨ _))
  | .findUserByConn hdl => inferInstanceAs (Decidable (s.FindGood hdl))
  | .findUserBySession _ => inferInstanceAs (Decidable (∀ hdl ∈ s.getSessionConn _, _))
  | .userKickOut userId => inferInstanceAs (Decidable (s.KickGood userId))
  | .userOut _ => inferInstanceAs (Decidable ((_ ∧ _) ∧ ∀ session ∈ s.sessionsAt _, _))
  | .login .. => inferInstanceAs (Decidable (_ ∧ _))

def uuidText (n : Nat) : List UInt8 := List.replicate n 97

/-- Two agents of a service log in. -/
def twoAgents : List Event :=
  [.login 1 (CText.bytes "a") (CText.bytes "s"), .login 2 (CText.bytes "b") (CText.bytes "s")]

theorem checked_of_good_twoAgents : ∃ s,
    Run.runGood (fun s e => some (step s uuidText e)) Good {} twoAgents = some s ∧
      Checked s (.userOut (CText.bytes "b_s")) := by
  have huuid : Function.Injective uuidText := List.replicate_left_injective 97
  obtain ⟨s, hrun⟩ : ∃ s, Run.runGood (fun s e => some (step s uuidText e)) Good {} twoAgents =
      some s := ⟨_, rfl⟩
  have hgood : ∀ s ∈ Run.runGood (fun s e => some (step s uuidText e)) Good {} twoAgents,
      Good s (.userOut (CText.bytes "b_s")) := by decide
  exact ⟨s, hrun, checked_of_good huuid (Run.reaches_of_runGood hrun) (hgood s hrun)⟩

/-- An agent logs in for the first time after another one has lost his connection. -/
theorem not_checked :
    ¬ Checked ([Event.login 1 (CText.bytes "a") (CText.bytes "s"), .onClose 1].foldl
      (fun s e => step s uuidText e) {}) (.login 2 (CText.bytes "b") (CText.bytes "s")) := by
  intro h
  exact absurd (h.others (uuidText 0) (by decide)) (by decide)

end Runs

end WebAgents

end ImServer
