import ImServer.Base.Zookeeper
import ImServer.Lib.Run
import ImServer.Lib.Watch

/-!
# Finding the other servers

Every server registers a node that lasts as long as its session with ZooKeeper, reads the nodes of
the services it is associated with, and leaves a watch on each list that it reads
(`CZookeeper`, base/zookeeper.cpp). Its own thread connects and registers again and again, and the
thread of the client library delivers the events of the session; both may be in `RegistService` at
the same time.

ZooKeeper behaves as its header says: the watch on a list fires once, for the first change of the
list, and the nodes of a session go when the session ends. A call in a session that is not
established fails, any call may fail, and the creation of a node may succeed and be reported as
failed. Calls of the library are atomic; the lock that keeps pulls apart is left out, which only
allows more orders of the reads. What `ConnectAssocSvr` makes of the names that were read is
not repeated here.
-/

namespace ImServer

namespace Discovery

/-- A process, and how many sessions it had opened before. -/
abbrev Session := ℕ × ℕ

structure Config where
  host : Host
  servicePath : String
  assocPaths : List String

/-- A node of a server. -/
structure Node where
  name : String
  owner : Session
  deriving DecidableEq, Repr

inductive Status where
  | connecting
  | established
  | ended
  deriving DecidableEq, Repr

/-- The thread of the class, and the one that delivers events. -/
inductive Thread where
  | main
  | event
  deriving DecidableEq, Repr

/-- Where a thread is in `RegistService`: before the call that creates the node, or in
`PullAssocSvr` before the reads of these paths. -/
inductive Place where
  | idle
  | create
  | pull (paths : List String)
  deriving DecidableEq, Repr

/-- A server. `lastRead` holds the names that `RefreshAssocSvr` was given last for a path, with the
session in which they were read. A read that fails leaves them there: `UpdateAssocSvr` returns
before `RefreshAssocSvr`, and `PullAssocSvr` goes on to the next path. -/
structure Server where
  zHandle : Option ℕ := none
  opened : ℕ := 0
  bConnect : Bool := false
  bRegist : Bool := false
  place : Thread → Place := fun _ => .idle
  lastRead : String → Option (ℕ × List String) := fun _ => none

/-- All servers, each with its thread and session, and ZooKeeper with the nodes and the watches that
are set. -/
structure State where
  server : ℕ → Server
  status : Session → Status
  exist : String → Bool
  store : Watch.Store String (List Node) Session

def init : State where
  server _ := {}
  status _ := .connecting
  exist _ := false
  store := { content := fun _ => [], watched := fun _ _ => false, notices := fun _ => [] }

/-- What is reported of the creation of a node. -/
inductive Outcome where
  | created
  | lost
  | failed
  deriving DecidableEq, Repr

inductive Event where
  | connectZookeeper (a : ℕ)
  | establish (a n : ℕ)
  | connected (a : ℕ) (made : Bool)
  | registService (a : ℕ) (made : Bool)
  | createNode (a : ℕ) (t : Thread) (outcome : Outcome)
  | pull (a : ℕ) (t : Thread) (names : Option (List String))
  | pulled (a : ℕ) (t : Thread)
  | child (a : ℕ) (names : Option (List String))
  | endSession (a n : ℕ)
  | expired (a : ℕ)

namespace State

section Calls

variable (cfg : ℕ → Config) (s : State)

def setServer (a : ℕ) (v : Server) : State := { s with server := Function.update s.server a v }

def setPlace (a : ℕ) (t : Thread) (place : Place) : State :=
  s.setServer a { s.server a with place := Function.update (s.server a).place t place }

/-- The established session that calls of the server are made in. -/
def session (a : ℕ) : Option Session :=
  (s.server a).zHandle.bind fun n => if s.status (a, n) = .established then some (a, n) else none

/-- The names of the nodes under a path. -/
def children (path : String) : List String := (s.store.content path).map Node.name

/-- `ConnectZookeeper`, if there is no handle. -/
def connectZookeeper (a : ℕ) : State :=
  s.setServer a
    { s.server a with zHandle := some (s.server a).opened, opened := (s.server a).opened + 1 }

def establish (session : Session) : State :=
  { s with status := Function.update s.status session .established }

def finalize (a : ℕ) : State :=
  s.setServer a { s.server a with zHandle := none, bConnect := false }

/-- The path of a service is there, or the call makes it. -/
def makePath (path : String) (made : Bool) : State :=
  { s with exist := Function.update s.exist path (s.exist path || made) }

/-- `RegistService` up to the creation of the node; `made` says whether it made the path. -/
def registService (a : ℕ) (t : Thread) (made : Bool) : State :=
  if (s.server a).zHandle = none ∨ (s.server a).bConnect = false ∨ (s.server a).bRegist = true then
    s
  else
    (s.makePath (cfg a).servicePath (made && (s.session a).isSome)).setPlace a t .create

def addNode (session : Session) : State :=
  let path := (cfg session.1).servicePath
  let node := ⟨CZookeeper.nodeName (cfg session.1).host, session⟩
  { s with store := s.store.change path (s.store.content path ++ [node]) }

/-- `SetConnect(true)`, without the call of `RegistService`. -/
def setConnect (a : ℕ) : State := s.setServer a { s.server a with bConnect := true }

def setRegist (a : ℕ) (flag : Bool) : State := s.setServer a { s.server a with bRegist := flag }

/-- Whether ZooKeeper can create the node of the session. -/
def CanCreate (session : Session) : Prop :=
  s.exist (cfg session.1).servicePath = true ∧
    CZookeeper.nodeName (cfg session.1).host ∉ s.children (cfg session.1).servicePath

instance (session : Session) : Decidable (s.CanCreate cfg session) :=
  inferInstanceAs (Decidable (_ ∧ _))

/-- The node was created, and `PullAssocSvr` begins. -/
def registered (a : ℕ) (t : Thread) : State :=
  (s.setRegist a true).setPlace a t (.pull (cfg a).assocPaths)

/-- `RegistService` from the creation of the node on. -/
def createNode (a : ℕ) (t : Thread) (outcome : Outcome) : State :=
  match s.session a with
  | none => (s.finalize a).setPlace a t .idle
  | some session =>
    if outcome ≠ .failed ∧ s.CanCreate cfg session then
      if outcome = .created then (s.addNode cfg session).registered cfg a t
      else ((s.addNode cfg session).finalize a).setPlace a t .idle
    else (s.finalize a).setPlace a t .idle

/-- What a read of a path may return: nothing, or the names in some order. -/
def Answer (a : ℕ) (path : String) : Option (List String) → Prop
  | none => True
  | some names =>
    (s.session a).isSome = true ∧ s.exist path = true ∧ names.Perm (s.children path)

instance (a : ℕ) (path : String) (names : Option (List String)) :
    Decidable (s.Answer a path names) := by
  cases names <;> unfold Answer <;> infer_instance

def setLastRead (a : ℕ) (path : String) (read : ℕ × List String) : State :=
  s.setServer a
    { s.server a with lastRead := Function.update (s.server a).lastRead path (some read) }

/-- A read of a path with `zoo_wget_children`, and `RefreshAssocSvr`. A read that fails leaves
no watch, and nothing is refreshed. -/
def readPath (a : ℕ) (path : String) (names : Option (List String)) : State :=
  match names, s.session a with
  | some names, some session =>
    { s with store := s.store.read session path }.setLastRead a path (session.2, names)
  | _, _ => s

def updateAssocSvr (a : ℕ) (path : String) (names : Option (List String)) : State :=
  if path ∈ (cfg a).assocPaths then s.readPath a path names else s

/-- The session ends, and its nodes go. -/
def endSession (session : Session) : State :=
  let path := (cfg session.1).servicePath
  let nodes := (s.store.content path).filter fun node => node.owner ≠ session
  let store := if nodes = s.store.content path then s.store else s.store.change path nodes
  { s with
    status := Function.update s.status session .ended
    store := store.leave session }

/-- `ResetConnect`. Its `zoo_delete` fails, since the session has ended. -/
def resetConnect (a : ℕ) : State :=
  if (s.server a).bConnect then (s.setRegist a false).finalize a else s

end Calls

def Idle (s : State) (a : ℕ) (t : Thread) : Prop := (s.server a).place t = .idle

instance (s : State) (a : ℕ) (t : Thread) : Decidable (s.Idle a t) :=
  inferInstanceAs (Decidable (_ = _))

/-- After `ConnectZookeeper` the own thread calls `RegistService`; the other one does when the
connection is reported. Events come in the session of the handle. -/
def step (cfg : ℕ → Config) (s : State) : Event → Option State
  | .connectZookeeper a =>
    if s.Idle a .main ∧ (s.server a).zHandle = none then some (s.connectZookeeper a) else none
  | .establish a n =>
    if n < (s.server a).opened ∧ s.status (a, n) = .connecting then some (s.establish (a, n))
    else none
  | .connected a made =>
    if s.Idle a .event ∧ ∃ n ∈ (s.server a).zHandle, s.status (a, n) ≠ .connecting then
      some ((s.setConnect a).registService cfg a .event made)
    else none
  | .registService a made =>
    if s.Idle a .main then some (s.registService cfg a .main made) else none
  | .createNode a t outcome =>
    if (s.server a).place t = .create then some (s.createNode cfg a t outcome) else none
  | .pull a t names =>
    match (s.server a).place t with
    | .pull (path :: paths) =>
      if s.Answer a path names then some ((s.readPath a path names).setPlace a t (.pull paths))
      else none
    | _ => none
  | .pulled a t => if (s.server a).place t = .pull [] then some (s.setPlace a t .idle) else none
  | .child a names =>
    match (s.server a).zHandle.map fun n => ((a, n), s.store.notices (a, n)) with
    | some (session, path :: _) =>
      if s.Idle a .event ∧ s.Answer a path names then
        some ({ s with store := s.store.arrive session }.updateAssocSvr cfg a path names)
      else none
    | _ => none
  | .endSession a n =>
    if n < (s.server a).opened ∧ s.status (a, n) ≠ .ended then some (s.endSession cfg (a, n))
    else none
  | .expired a =>
    if s.Idle a .event ∧ ∃ n ∈ (s.server a).zHandle, s.status (a, n) = .ended then
      some (s.resetConnect a)
    else none

/-- What each event can do. -/
inductive Moves (cfg : ℕ → Config) (s : State) : Event → State → Prop where
  | connectZookeeper {a : ℕ} (hhandle : (s.server a).zHandle = none) :
      Moves cfg s (.connectZookeeper a) (s.connectZookeeper a)
  | establish {a n : ℕ} (hopened : n < (s.server a).opened)
      (hstatus : s.status (a, n) = .connecting) :
      Moves cfg s (.establish a n) (s.establish (a, n))
  | connected {a : ℕ} {made : Bool} (hidle : s.Idle a .event) :
      Moves cfg s (.connected a made) ((s.setConnect a).registService cfg a .event made)
  | registService {a : ℕ} {made : Bool} (hidle : s.Idle a .main) :
      Moves cfg s (.registService a made) (s.registService cfg a .main made)
  | createNode {a : ℕ} {t : Thread} {outcome : Outcome} (hplace : (s.server a).place t = .create) :
      Moves cfg s (.createNode a t outcome) (s.createNode cfg a t outcome)
  | pulled {a : ℕ} {t : Thread} (hplace : (s.server a).place t = .pull []) :
      Moves cfg s (.pulled a t) (s.setPlace a t .idle)
  | pull {a : ℕ} {t : Thread} {names : Option (List String)} {path : String} {paths : List String}
      (hplace : (s.server a).place t = .pull (path :: paths)) (hanswer : s.Answer a path names) :
      Moves cfg s (.pull a t names) ((s.readPath a path names).setPlace a t (.pull paths))
  | child {a n : ℕ} {names : Option (List String)} {path : String} {rest : List String}
      (hhandle : (s.server a).zHandle = some n)
      (hnotices : s.store.notices (a, n) = path :: rest) (hanswer : s.Answer a path names) :
      Moves cfg s (.child a names)
        ({ s with store := s.store.arrive (a, n) }.updateAssocSvr cfg a path names)
  | endSession {a n : ℕ} (hopened : n < (s.server a).opened) :
      Moves cfg s (.endSession a n) (s.endSession cfg (a, n))
  | expired {a n : ℕ} (hhandle : (s.server a).zHandle = some n) :
      Moves cfg s (.expired a) (s.resetConnect a)

/-- The read that a notice asks for fails only outside an established session. A server that
does not get its answer keeps the old list and has no watch any more. -/
def NoticeAnswered (s : State) : Event → Prop
  | .child a none => s.session a = none
  | _ => True

/-- A read fails only outside an established session. What the read of a lost session returns is
left open. -/
def Answered (s : State) : Event → Prop
  | .pull a _ none | .child a none => s.session a = none
  | _ => True

instance (s : State) (e : Event) : Decidable (s.Answered e) := by
  unfold Answered
  split <;> infer_instance

theorem Answered.notice {s : State} {e : Event} (h : s.Answered e) : s.NoticeAnswered e := by
  unfold NoticeAnswered
  split
  · exact h
  · trivial

variable {cfg : ℕ → Config} {s s' : State} {a n : ℕ} {t : Thread} {path : String}
  {names : Option (List String)}

theorem session_eq_some {session : Session} :
    s.session a = some session ↔
      (s.server a).zHandle = some session.2 ∧ s.status session = .established ∧ session.1 = a := by
  obtain ⟨a', n⟩ := session
  simp only [session, Option.bind_eq_some_iff, Option.ite_none_right_eq_some, Option.some.injEq,
    Prod.mk.injEq]
  constructor
  · rintro ⟨n, hhandle, hstatus, rfl, rfl⟩
    exact ⟨hhandle, hstatus, rfl⟩
  · rintro ⟨hhandle, hstatus, rfl⟩
    exact ⟨n, hhandle, hstatus, rfl, rfl⟩

/-- A node belongs to an established session of the server that it names, no two nodes under a path
have one name, and what a server has read in an established session is current. -/
structure Sound (cfg : ℕ → Config) (s : State) : Prop where
  fresh : ∀ a n, (s.server a).opened ≤ n → s.status (a, n) = .connecting
  node : ∀ path, ∀ node ∈ s.store.content path, s.status node.owner = .established ∧
    path = (cfg node.owner.1).servicePath ∧
    node.name = CZookeeper.nodeName (cfg node.owner.1).host
  nodup : ∀ path, (s.children path).Nodup
  place : ∀ a t paths, (s.server a).place t = .pull paths → paths ⊆ (cfg a).assocPaths
  read : ∀ a path n names, (s.server a).lastRead path = some (n, names) →
    path ∈ (cfg a).assocPaths ∧ s.status (a, n) ≠ .connecting
  current : ∀ a path n names, (s.server a).lastRead path = some (n, names) →
    s.status (a, n) = .established →
      ∃ nodes, names.Perm (nodes.map Node.name) ∧ s.store.Current (a, n) path nodes

theorem sound_init : init.Sound cfg where
  fresh _ _ _ := rfl
  node _ _ hnode := absurd hnode List.not_mem_nil
  nodup _ := List.nodup_nil
  place _ _ _ hplace := nomatch hplace
  read _ _ _ _ hread := nomatch hread
  current _ _ _ _ hread := nomatch hread

section Servers

variable {v : Server}

@[simp] theorem setServer_self : (s.setServer a v).server a = v := Function.update_self ..

theorem setServer_of_ne {a' : ℕ} (h : a' ≠ a) : (s.setServer a v).server a' = s.server a' :=
  Function.update_of_ne h ..

theorem Sound.setServer (h : s.Sound cfg) (hopened : (s.server a).opened ≤ v.opened)
    (hread : v.lastRead = (s.server a).lastRead)
    (hplace : ∀ t paths, v.place t = .pull paths → paths ⊆ (cfg a).assocPaths) :
    (s.setServer a v).Sound cfg := by
  have hserver : ∀ a', (s.server a').opened ≤ ((s.setServer a v).server a').opened ∧
      ((s.setServer a v).server a').lastRead = (s.server a').lastRead := by
    intro a'
    by_cases ha : a' = a
    · subst ha
      rw [setServer_self]
      exact ⟨hopened, hread⟩
    · rw [setServer_of_ne ha]
      exact ⟨Nat.le_refl _, rfl⟩
  refine ⟨?_, h.node, h.nodup, ?_, ?_, ?_⟩
  · intro a' n hn
    exact h.fresh a' n (Nat.le_trans (hserver a').1 hn)
  · intro a' t paths hplaced
    by_cases ha : a' = a
    · subst ha
      rw [setServer_self] at hplaced
      exact hplace t paths hplaced
    · rw [setServer_of_ne ha] at hplaced
      exact h.place a' t paths hplaced
  · intro a' path n names hlast
    rw [(hserver a').2] at hlast
    exact h.read a' path n names hlast
  · intro a' path n names hlast
    rw [(hserver a').2] at hlast
    exact h.current a' path n names hlast

theorem Sound.setPlace (h : s.Sound cfg) {place : Place}
    (hplace : ∀ paths, place = .pull paths → paths ⊆ (cfg a).assocPaths) :
    (s.setPlace a t place).Sound cfg := by
  refine h.setServer (Nat.le_refl _) rfl ?_
  intro t' paths hplaced
  by_cases ht : t' = t
  · subst ht
    simp only [Function.update_self] at hplaced
    exact hplace paths hplaced
  · simp only [Function.update_of_ne ht] at hplaced
    exact h.place a t' paths hplaced

theorem Sound.finalize (h : s.Sound cfg) : (s.finalize a).Sound cfg :=
  h.setServer (Nat.le_refl _) rfl (h.place a)

theorem Sound.connectZookeeper (h : s.Sound cfg) : (s.connectZookeeper a).Sound cfg :=
  h.setServer (Nat.le_succ _) rfl (h.place a)

theorem Sound.setConnect (h : s.Sound cfg) : (s.setConnect a).Sound cfg :=
  h.setServer (Nat.le_refl _) rfl (h.place a)

theorem Sound.setRegist (h : s.Sound cfg) {flag : Bool} : (s.setRegist a flag).Sound cfg :=
  h.setServer (Nat.le_refl _) rfl (h.place a)

theorem Sound.resetConnect (h : s.Sound cfg) : (s.resetConnect a).Sound cfg := by
  unfold State.resetConnect
  split
  · exact h.setRegist.finalize
  · exact h

theorem Sound.makePath (h : s.Sound cfg) (path : String) (made : Bool) :
    (s.makePath path made).Sound cfg :=
  ⟨h.fresh, h.node, h.nodup, h.place, h.read, h.current⟩

theorem Sound.registService (h : s.Sound cfg) {made : Bool} :
    (s.registService cfg a t made).Sound cfg := by
  unfold State.registService
  split
  · exact h
  · refine (h.makePath _ _).setPlace ?_
    rintro paths ⟨⟩

theorem Sound.registered (h : s.Sound cfg) : (s.registered cfg a t).Sound cfg := by
  refine h.setRegist.setPlace ?_
  rintro paths ⟨rfl⟩
  exact List.Subset.refl _

end Servers

theorem Sound.addNode (h : s.Sound cfg) {session : Session}
    (hsession : s.status session = .established) (hcreate : s.CanCreate cfg session) :
    (s.addNode cfg session).Sound cfg := by
  refine ⟨h.fresh, ?_, ?_, h.place, h.read, ?_⟩
  · intro path node hnode
    simp only [State.addNode, Watch.Store.change_content] at hnode
    by_cases hpath : path = (cfg session.1).servicePath
    · subst hpath
      rw [Function.update_self] at hnode
      obtain hold | hnew := List.mem_append.mp hnode
      · exact h.node _ node hold
      · obtain rfl := List.mem_singleton.mp hnew
        exact ⟨hsession, rfl, rfl⟩
    · rw [Function.update_of_ne hpath] at hnode
      exact h.node path node hnode
  · intro path
    simp only [State.children, State.addNode, Watch.Store.change_content]
    by_cases hpath : path = (cfg session.1).servicePath
    · subst hpath
      rw [Function.update_self, List.map_append, List.nodup_append]
      refine ⟨h.nodup _, List.nodup_singleton _, ?_⟩
      intro name hname name' hname'
      obtain rfl := List.mem_singleton.mp hname'
      rintro rfl
      exact hcreate.2 hname
    · rw [Function.update_of_ne hpath]
      exact h.nodup path
  · intro a path n names hread hstatus
    obtain ⟨nodes, hnames, hcurrent⟩ := h.current a path n names hread hstatus
    exact ⟨nodes, hnames, hcurrent.change _ _⟩

theorem Sound.createNode (h : s.Sound cfg) {outcome : Outcome} :
    (s.createNode cfg a t outcome).Sound cfg := by
  have hidle : ∀ paths : List String, Place.idle = .pull paths → paths ⊆ (cfg a).assocPaths := by
    rintro paths ⟨⟩
  unfold State.createNode
  split
  · exact h.finalize.setPlace hidle
  · next session hsession =>
    have hstatus := (session_eq_some.mp hsession).2.1
    split
    · next hcan =>
      have hadd := h.addNode hstatus hcan.2
      split
      · exact hadd.registered
      · exact hadd.finalize.setPlace hidle
    · exact h.finalize.setPlace hidle

/-- A session becomes established before anything is read or created in it. -/
theorem Sound.establish (h : s.Sound cfg) (hopened : n < (s.server a).opened)
    (hconnecting : s.status (a, n) = .connecting) : (s.establish (a, n)).Sound cfg := by
  have hother : ∀ session, s.status session ≠ .connecting →
      (s.establish (a, n)).status session = s.status session := by
    intro session hne
    refine Function.update_of_ne ?_ ..
    rintro rfl
    exact hne hconnecting
  refine ⟨?_, ?_, h.nodup, h.place, ?_, ?_⟩
  · intro a' n' hn'
    simp only [State.establish]
    rw [Function.update_of_ne]
    · exact h.fresh a' n' hn'
    · rintro ⟨rfl, rfl⟩
      exact absurd hn' (Nat.not_le.mpr hopened)
  · intro path node hnode
    obtain ⟨hstatus, hrest⟩ := h.node path node hnode
    rw [hother _ (by rw [hstatus]; decide)]
    exact ⟨hstatus, hrest⟩
  · intro a' path n' names hread
    obtain ⟨hpath, hne⟩ := h.read a' path n' names hread
    rw [hother _ hne]
    exact ⟨hpath, hne⟩
  · intro a' path n' names hread hstatus
    rw [hother _ (h.read a' path n' names hread).2] at hstatus
    exact h.current a' path n' names hread hstatus

/-- The nodes of a session that ends are all under the path of its server. -/
theorem Sound.endSession (h : s.Sound cfg) (hopened : n < (s.server a).opened) :
    (s.endSession cfg (a, n)).Sound cfg := by
  have hcontent : ∀ path, (s.endSession cfg (a, n)).store.content path =
      (s.store.content path).filter fun node => node.owner ≠ (a, n) := by
    intro path
    simp only [State.endSession, Watch.Store.leave_content]
    by_cases hpath : path = (cfg a).servicePath
    · subst hpath
      split
      · next hsame => exact hsame.symm
      · rw [Watch.Store.change_content, Function.update_self]
    · have hall : (s.store.content path).filter (fun node => node.owner ≠ (a, n)) =
          s.store.content path := by
        refine List.filter_eq_self.mpr fun node hnode => decide_eq_true ?_
        intro howner
        refine hpath ?_
        rw [(h.node path node hnode).2.1, howner]
      rw [hall]
      split
      · rfl
      · rw [Watch.Store.change_content, Function.update_of_ne hpath]
  have hother : ∀ session, session ≠ (a, n) →
      (s.endSession cfg (a, n)).status session = s.status session :=
    fun session hne => Function.update_of_ne hne ..
  have hself : (s.endSession cfg (a, n)).status (a, n) = .ended := Function.update_self ..
  refine ⟨?_, ?_, ?_, h.place, ?_, ?_⟩
  · intro a' n' hn'
    rw [hother]
    · exact h.fresh a' n' hn'
    · rintro ⟨rfl, rfl⟩
      exact absurd hn' (Nat.not_le.mpr hopened)
  · intro path node hnode
    rw [hcontent] at hnode
    obtain ⟨hold, howner⟩ := List.mem_filter.mp hnode
    rw [hother _ (of_decide_eq_true howner)]
    exact h.node path node hold
  · intro path
    rw [State.children, hcontent]
    exact (h.nodup path).sublist (List.filter_sublist.map _)
  · intro a' path n' names hread
    obtain ⟨hpath, hne⟩ := h.read a' path n' names hread
    refine ⟨hpath, ?_⟩
    by_cases hsession : (a', n') = (a, n)
    · rw [hsession, hself]
      decide
    · rw [hother _ hsession]
      exact hne
  · intro a' path n' names hread hstatus
    by_cases hsession : (a', n') = (a, n)
    · rw [hsession, hself] at hstatus
      cases hstatus
    · rw [hother _ hsession] at hstatus
      obtain ⟨nodes, hnames, hcurrent⟩ := h.current a' path n' names hread hstatus
      refine ⟨nodes, hnames, ?_⟩
      simp only [State.endSession]
      refine Watch.Store.Current.leave ?_ hsession
      split
      · exact hcurrent
      · exact hcurrent.change _ _

section Reads

variable {store : Watch.Store String (List Node) Session} {names : List String}

/-- The last read of one path is replaced, and what was read of the others stays current. -/
theorem Sound.setLastRead (h : s.Sound cfg) (hcontent : store.content = s.store.content)
    (hkeep : ∀ session path' nodes, (session.1 = a → path' ≠ path) →
      s.store.Current session path' nodes → store.Current session path' nodes)
    (hpath : path ∈ (cfg a).assocPaths) (hstatus : s.status (a, n) = .established)
    (hread : ∃ nodes, names.Perm (nodes.map Node.name) ∧ store.Current (a, n) path nodes) :
    ({ s with store := store }.setLastRead a path (n, names)).Sound cfg := by
  have hlast : ∀ a' path', ¬ (a' = a ∧ path' = path) →
      (({ s with store := store }.setLastRead a path (n, names)).server a').lastRead path' =
        (s.server a').lastRead path' := by
    intro a' path' hne
    by_cases ha : a' = a
    · subst ha
      simp only [State.setLastRead, setServer_self]
      exact Function.update_of_ne (fun hpath => hne ⟨rfl, hpath⟩) ..
    · simp only [State.setLastRead, setServer_of_ne ha]
  have hself : (({ s with store := store }.setLastRead a path (n, names)).server a).lastRead
      path = some (n, names) := by
    simp only [State.setLastRead, setServer_self, Function.update_self]
  have hopened : ∀ a', (({ s with store := store }.setLastRead a path (n, names)).server
      a').opened = (s.server a').opened := by
    intro a'
    by_cases ha : a' = a
    · subst ha
      simp only [State.setLastRead, setServer_self]
    · simp only [State.setLastRead, setServer_of_ne ha]
  refine ⟨?_, ?_, ?_, ?_, ?_, ?_⟩
  · intro a' n hn
    rw [hopened] at hn
    exact h.fresh a' n hn
  · intro path node hnode
    refine h.node path node ?_
    rw [← hcontent]
    exact hnode
  · intro path
    change ((store.content path).map Node.name).Nodup
    rw [hcontent]
    exact h.nodup path
  · intro a' t paths hplace
    refine h.place a' t paths ?_
    by_cases ha : a' = a
    · subst ha
      simp only [State.setLastRead, setServer_self] at hplace
      exact hplace
    · simp only [State.setLastRead, setServer_of_ne ha] at hplace
      exact hplace
  · intro a' path' n' names' hread'
    by_cases hsame : a' = a ∧ path' = path
    · obtain ⟨rfl, rfl⟩ := hsame
      rw [hself] at hread'
      cases hread'
      refine ⟨hpath, ?_⟩
      change s.status _ ≠ _
      rw [hstatus]
      decide
    · rw [hlast a' path' hsame] at hread'
      exact h.read a' path' n' names' hread'
  · intro a' path' n' names' hread' hstatus'
    by_cases hsame : a' = a ∧ path' = path
    · obtain ⟨rfl, rfl⟩ := hsame
      rw [hself] at hread'
      cases hread'
      exact hread
    · rw [hlast a' path' hsame] at hread'
      obtain ⟨nodes, hnames, hcurrent⟩ := h.current a' path' n' names' hread' hstatus'
      refine ⟨nodes, hnames, hkeep _ _ _ ?_ hcurrent⟩
      intro ha hpath
      exact hsame ⟨ha, hpath⟩

/-- A read of a path that is answered, in a store in which nothing else that was read got out of
date. -/
theorem Sound.readPath (h : s.Sound cfg) (hcontent : store.content = s.store.content)
    (hkeep : ∀ session path' nodes, (session.1 = a → path' ≠ path) →
      s.store.Current session path' nodes → store.Current session path' nodes)
    (hpath : path ∈ (cfg a).assocPaths) (hanswer : s.Answer a path (some names)) :
    ({ s with store := store }.readPath a path (some names)).Sound cfg := by
  obtain ⟨session, hsession⟩ := Option.isSome_iff_exists.mp hanswer.1
  obtain ⟨-, hstatus, ha⟩ := session_eq_some.mp hsession
  obtain ⟨a', n⟩ := session
  simp only at ha
  subst ha
  have hsession' : ({ s with store := store } : State).session a' = some (a', n) := hsession
  have hread : (store.read (a', n) path).content = s.store.content := hcontent
  simp only [State.readPath, hsession']
  refine Sound.setLastRead (s := s) h hread ?_ hpath hstatus ⟨s.store.content path, hanswer.2.2, ?_⟩
  · intro session path' nodes hne hcurrent
    exact (hkeep session path' nodes hne hcurrent).read _ _
  · rw [← hcontent]
    exact Watch.Store.current_read

theorem readPath_none : s.readPath a path none = s := rfl

/-- A pull that fails leaves what was read before, with its watch. -/
theorem Sound.pull {names : Option (List String)} (h : s.Sound cfg)
    (hpath : path ∈ (cfg a).assocPaths) (hanswer : s.Answer a path names) :
    (s.readPath a path names).Sound cfg := by
  cases names with
  | none =>
    rw [readPath_none]
    exact h
  | some names => exact h.readPath rfl (fun _ _ _ _ hcurrent => hcurrent) hpath hanswer

/-- A notice arrives, and nothing that is current is about its path and its session. -/
theorem Sound.arrive {rest : List String} (h : s.Sound cfg)
    (hnotices : s.store.notices (a, n) = path :: rest)
    (hother : s.status (a, n) = .established → path ∉ (cfg a).assocPaths) :
    ({ s with store := s.store.arrive (a, n) } : State).Sound cfg := by
  refine ⟨h.fresh, h.node, h.nodup, h.place, h.read, ?_⟩
  intro a' path' n' names hread hstatus
  obtain ⟨nodes, hnames, hcurrent⟩ := h.current a' path' n' names hread hstatus
  refine ⟨nodes, hnames, hcurrent.arrive hnotices ?_⟩
  rintro hsession rfl
  cases hsession
  exact hother hstatus (h.read _ _ _ _ hread).1

/-- The read that a notice asks for makes up for the notice. -/
theorem Sound.child {names : Option (List String)} {rest : List String} (h : s.Sound cfg)
    (hhandle : (s.server a).zHandle = some n) (hnotices : s.store.notices (a, n) = path :: rest)
    (hanswer : s.Answer a path names) (hanswered : s.NoticeAnswered (.child a names)) :
    ({ s with store := s.store.arrive (a, n) }.updateAssocSvr cfg a path names).Sound cfg := by
  unfold State.updateAssocSvr
  split
  · next hpath =>
    cases names with
    | none =>
      -- the session of the notice is over, and with it what was read in it
      rw [readPath_none]
      refine h.arrive hnotices ?_
      intro hstatus
      have hsession := session_eq_some.mpr ⟨hhandle, hstatus, rfl⟩
      rw [show s.session a = none from hanswered] at hsession
      cases hsession
    | some names =>
      refine h.readPath rfl ?_ hpath hanswer
      intro session path' nodes hne hcurrent
      refine hcurrent.arrive hnotices ?_
      rintro rfl
      exact hne rfl
  · -- a watch is only left on an associated path
    next hpath => exact h.arrive hnotices fun _ => hpath

end Reads

theorem moves_of_step {e : Event} (h : step cfg s e = some s') : Moves cfg s e s' := by
  cases e with
  | connectZookeeper a =>
    obtain ⟨⟨-, hhandle⟩, h⟩ := Option.ite_none_right_eq_some.mp h
    cases h
    exact .connectZookeeper hhandle
  | establish a n =>
    obtain ⟨⟨hopened, hstatus⟩, h⟩ := Option.ite_none_right_eq_some.mp h
    cases h
    exact .establish hopened hstatus
  | connected a made =>
    obtain ⟨⟨hidle, -⟩, h⟩ := Option.ite_none_right_eq_some.mp h
    cases h
    exact .connected hidle
  | registService a made =>
    obtain ⟨hidle, h⟩ := Option.ite_none_right_eq_some.mp h
    cases h
    exact .registService hidle
  | createNode a t outcome =>
    obtain ⟨hplace, h⟩ := Option.ite_none_right_eq_some.mp h
    cases h
    exact .createNode hplace
  | pull a t names =>
    simp only [step] at h
    split at h
    · next hplace =>
      obtain ⟨hanswer, h⟩ := Option.ite_none_right_eq_some.mp h
      cases h
      exact .pull hplace hanswer
    · cases h
  | pulled a t =>
    obtain ⟨hplace, h⟩ := Option.ite_none_right_eq_some.mp h
    cases h
    exact .pulled hplace
  | child a names =>
    simp only [step] at h
    split at h
    · next session path rest hnext =>
      obtain ⟨⟨-, hanswer⟩, h⟩ := Option.ite_none_right_eq_some.mp h
      obtain ⟨n, hhandle, heq⟩ := Option.map_eq_some_iff.mp hnext
      obtain ⟨rfl, hnotices⟩ := Prod.mk.inj heq
      cases h
      exact .child hhandle hnotices hanswer
    · cases h
  | endSession a n =>
    obtain ⟨⟨hopened, -⟩, h⟩ := Option.ite_none_right_eq_some.mp h
    cases h
    exact .endSession hopened
  | expired a =>
    obtain ⟨⟨-, n, hhandle, -⟩, h⟩ := Option.ite_none_right_eq_some.mp h
    cases h
    exact .expired hhandle

theorem Sound.step (h : s.Sound cfg) {e : Event} (hanswered : s.NoticeAnswered e)
    (hstep : Moves cfg s e s') : s'.Sound cfg := by
  cases hstep with
  | connectZookeeper => exact h.connectZookeeper
  | establish hopened hstatus => exact h.establish hopened hstatus
  | connected => exact h.setConnect.registService
  | registService => exact h.registService
  | createNode => exact h.createNode
  | pulled => exact h.setPlace fun _ hplace => nomatch hplace
  | pull hplace hanswer =>
    have hpaths := h.place _ _ _ hplace
    refine (h.pull (hpaths List.mem_cons_self) hanswer).setPlace ?_
    rintro paths ⟨rfl⟩
    exact fun path hpath => hpaths (List.mem_cons_of_mem _ hpath)
  | child hhandle hnotices hanswer => exact h.child hhandle hnotices hanswer hanswered
  | endSession hopened => exact h.endSession hopened
  | expired => exact h.resetConnect

theorem sound_of_reaches (h : Run.Reaches (State.step cfg) NoticeAnswered init s) :
    s.Sound cfg :=
  h.invariant _ sound_init fun _ _ _ hs hanswered hstep => hs.step hanswered (moves_of_step hstep)

theorem reaches_noticeAnswered (h : Run.Reaches (State.step cfg) Answered init s) :
    Run.Reaches (State.step cfg) NoticeAnswered init s :=
  h.invariant _ .refl fun _ _ _ hs hanswered hstep => hs.next hanswered.notice hstep

/-- The servers that are registered under a path, told by the configurations of the owners of its
nodes. -/
def hosts (cfg : ℕ → Config) (s : State) (path : String) : List Host :=
  (s.store.content path).map fun node => (cfg node.owner.1).host

theorem Sound.children_eq (h : s.Sound cfg) :
    s.children path = (s.hosts cfg path).map CZookeeper.nodeName := by
  rw [children, hosts, List.map_map]
  exact List.map_congr_left fun node hnode => (h.node path node hnode).2.2

/-- From the names of the nodes, in any order, the hosts of the servers are entered. -/
theorem Sound.heldHosts_perm (h : s.Sound cfg) (hips : ∀ a, ':' ∉ (cfg a).host.1.toList)
    {names : List String} (hnames : names.Perm (s.children path)) (l : AssocSvrList)
    (port : UInt16) : (l.refreshAssocSvr port names).heldHosts.Perm (s.hosts cfg path) := by
  have hnodup := h.nodup path
  rw [h.children_eq] at hnames hnodup
  obtain ⟨read, rfl, hread⟩ :=
    AssocSvrList.exists_map_nodeName fun name hname => hnames.mem_iff.mp hname
  have hhosts : ∀ host ∈ s.hosts cfg path, ':' ∉ host.1.toList := by
    intro host hhost
    obtain ⟨node, -, rfl⟩ := List.mem_map.mp hhost
    exact hips _
  have hitems : l.refreshAssocSvr port (read.map CZookeeper.nodeName) = l.refreshItems read :=
    AssocSvrList.foldl_refreshName _ _ fun host hhost => hhosts host (hread host hhost)
  have hreadNodup : read.Nodup := List.Nodup.of_map _ (hnames.nodup_iff.mpr hnodup)
  have hheld := (AssocSvrList.holds_refreshItems l read).perm_dedup
  rw [hreadNodup.dedup] at hheld
  rw [hitems]
  refine hheld.trans ?_
  refine (List.perm_ext_iff_of_nodup hreadNodup (List.Nodup.of_map _ hnodup)).mpr ?_
  intro host
  have hinj : Function.Injective CZookeeper.nodeName := fun _ _ => CZookeeper.nodeName_injective
  rw [← List.mem_map_of_injective hinj, hnames.mem_iff, List.mem_map_of_injective hinj]

theorem Sound.lastRead_perm (h : s.Sound cfg) (hips : ∀ a, ':' ∉ (cfg a).host.1.toList)
    {names : List String} (hread : (s.server a).lastRead path = some (n, names))
    (hstatus : s.status (a, n) = .established) (hquiet : path ∉ s.store.notices (a, n))
    (l : AssocSvrList) (port : UInt16) :
    (l.refreshAssocSvr port names).heldHosts.Perm (s.hosts cfg path) := by
  obtain ⟨nodes, hnames, hcurrent⟩ := h.current a path n names hread hstatus
  have hcontent : s.store.content path = nodes := hcurrent.eq hquiet
  refine h.heldHosts_perm hips ?_ l port
  rw [children, hcontent]
  exact hnames

/-- Two connection managers, and a message server that is associated with them. -/
def threeServers (a : ℕ) : Config :=
  if a = 1 then ⟨("10.0.0.2", 9000), "/usmsg", ["/uscm"]⟩
  else if a = 0 then ⟨("10.0.0.1", 8000), "/uscm", []⟩
  else ⟨("10.0.0.3", 8000), "/uscm", []⟩

/-- A server connects and registers. -/
def registers (a : ℕ) : List Event :=
  [.connectZookeeper a, .establish a 0, .connected a true, .createNode a .event .created]

/-- The second manager registers after the message server has read the first. -/
def managerJoins : List Event :=
  registers 0 ++ registers 1 ++ [.pull 1 .event (some ["node_10.0.0.1:1f40"]), .pulled 1 .event] ++
    registers 2 ++ [.child 1 (some ["node_10.0.0.3:1f40", "node_10.0.0.1:1f40"])]

theorem threeServers_ips (a : ℕ) : ':' ∉ (threeServers a).host.1.toList := by
  unfold threeServers
  split
  · decide
  · split <;> decide

theorem managerJoins_reaches :
    ∃ s, Run.runGood (step threeServers) Answered init managerJoins = some s ∧
      (s.server 1).zHandle = some 0 ∧ s.status (1, 0) = .established ∧
      s.store.notices (1, 0) = [] ∧ (∀ t, s.Idle 1 t) ∧
      (s.server 1).lastRead "/uscm" = some (0, ["node_10.0.0.3:1f40", "node_10.0.0.1:1f40"]) ∧
      (∃ node ∈ s.store.content "/usmsg", node.owner = (1, 0)) ∧
      s.hosts threeServers "/uscm" = [("10.0.0.1", 8000), ("10.0.0.3", 8000)] := by
  refine ⟨_, rfl, by decide +kernel, by decide, by decide +kernel, ?_, by decide +kernel,
    by decide +kernel, by decide +kernel⟩
  rintro (_ | _) <;> decide +kernel

/-- As long as the reads that notices ask for are answered in established sessions, what a server
has read of a path in a session that still exists is the list of the servers that are registered
there, each once, unless a notice about the path is on its way. -/
theorem lastRead_registered (hips : ∀ a, ':' ∉ (cfg a).host.1.toList)
    (h : Run.Reaches (State.step cfg) NoticeAnswered init s) {names : List String}
    (hread : (s.server a).lastRead path = some (n, names))
    (hstatus : s.status (a, n) = .established) (hquiet : path ∉ s.store.notices (a, n))
    (l : AssocSvrList) (port : UInt16) :
    (l.refreshAssocSvr port names).heldHosts.Perm (s.hosts cfg path) :=
  (sound_of_reaches h).lastRead_perm hips hread hstatus hquiet l port

/-- The message server has read both managers. -/
theorem lastRead_registered_joins :
    ∃ s, Run.runGood (step threeServers) Answered init managerJoins = some s ∧
      ((AssocSvrList.mk false 1 ∅).refreshAssocSvr 0
          ["node_10.0.0.3:1f40", "node_10.0.0.1:1f40"]).heldHosts.Perm
        [("10.0.0.1", 8000), ("10.0.0.3", 8000)] := by
  obtain ⟨s, hrun, -, hstatus, hquiet, -, hread, -, hhosts⟩ := managerJoins_reaches
  refine ⟨s, hrun, ?_⟩
  rw [← hhosts]
  refine lastRead_registered threeServers_ips
    (reaches_noticeAnswered (Run.reaches_of_runGood hrun)) hread hstatus ?_ _ 0
  rw [hquiet]
  exact List.not_mem_nil

end State

end Discovery

end ImServer
