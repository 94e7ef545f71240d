import ImServer.Base.Discovery

/-!
# What a registered server has read

A server that has created its node goes on to read all associated paths in the same session, unless
the session is closed meanwhile. So a server whose present session has a node has read every path
in this session, or a thread of it is about to. Both threads may be in `RegistService`: the second
one then finds the node of the first, and closes the session.
-/

namespace ImServer

namespace Discovery

namespace State

variable {cfg : ℕ → Config} {s s' : State} {a n : ℕ} {t : Thread} {path : String}
  {names : Option (List String)}

/-- A server with a node in its present session has read each associated path in this session, or
is going to. -/
def Reading (cfg : ℕ → Config) (s : State) (a : ℕ) : Prop :=
  ∀ n, (s.server a).zHandle = some n → s.status (a, n) = .established →
    (∃ node ∈ s.store.content (cfg a).servicePath, node.owner = (a, n)) →
    ∀ path ∈ (cfg a).assocPaths,
      (∃ t paths, (s.server a).place t = .pull paths ∧ path ∈ paths) ∨
        ∃ names, (s.server a).lastRead path = some (n, names)

theorem reading_of_none (h : (s.server a).zHandle = none) : s.Reading cfg a := by
  intro n hhandle
  rw [h] at hhandle
  cases hhandle

/-- A step of the server that changes neither its handle nor what it reads. -/
theorem Reading.setServer {v : Server} (h : s.Reading cfg a)
    (hhandle : v.zHandle = (s.server a).zHandle) (hread : v.lastRead = (s.server a).lastRead)
    (hplace : ∀ t path paths, (s.server a).place t = .pull (path :: paths) →
      v.place t = .pull (path :: paths)) : (s.setServer a v).Reading cfg a := by
  intro n hhandle' hestablished hnodes path hpath
  rw [setServer_self] at hhandle' ⊢
  rw [hhandle] at hhandle'
  obtain ⟨t, paths, hplaced, hmem⟩ | hlast := h n hhandle' hestablished hnodes path hpath
  · refine .inl ⟨t, paths, ?_, hmem⟩
    cases paths with
    | nil => cases hmem
    | cons path' paths => exact hplace t path' paths hplaced
  · rw [hread]
    exact .inr hlast

theorem Reading.setPlace {place : Place} (h : s.Reading cfg a)
    (hplace : ∀ path paths, (s.server a).place t ≠ .pull (path :: paths)) :
    (s.setPlace a t place).Reading cfg a := by
  refine h.setServer rfl rfl ?_
  intro t' path paths hplaced
  have hne : t' ≠ t := by
    rintro rfl
    exact hplace path paths hplaced
  simp only [Function.update_of_ne hne, hplaced]

theorem Reading.registService {made : Bool} (h : s.Reading cfg a) (hidle : s.Idle a t) :
    (s.registService cfg a t made).Reading cfg a := by
  unfold State.registService
  split
  · exact h
  · refine Reading.setPlace (s := s.makePath _ _) h ?_
    intro path paths hplaced
    change (s.server a).place t = _ at hplaced
    rw [hidle] at hplaced
    cases hplaced

theorem reading_finalize : (s.finalize a).Reading cfg a := by
  refine reading_of_none ?_
  rw [State.finalize, setServer_self]

theorem reading_registered : (s.registered cfg a t).Reading cfg a := by
  intro n _ _ _ path hpath
  refine .inl ⟨t, (cfg a).assocPaths, ?_, hpath⟩
  simp only [State.registered, State.setPlace, setServer_self, Function.update_self]

theorem reading_createNode {outcome : Outcome} : (s.createNode cfg a t outcome).Reading cfg a := by
  have hfinal : ∀ s : State, ((s.finalize a).setPlace a t .idle).Reading cfg a := by
    intro s
    refine reading_of_none ?_
    simp only [State.setPlace, State.finalize, setServer_self]
  unfold State.createNode
  split
  · exact hfinal s
  · split
    · split
      · exact reading_registered
      · exact hfinal _
    · exact hfinal s

section Read

theorem setLastRead_self {read : ℕ × List String} :
    (s.setLastRead a path read).server a =
      { s.server a with lastRead := Function.update (s.server a).lastRead path (some read) } :=
  setServer_self

/-- A read is a matter of the watches and of what was read last of the path. -/
theorem readPath_eq (s : State) (a : ℕ) (path : String) (names : Option (List String)) :
    s.readPath a path names = s ∨
      ∃ store read, store.content = s.store.content ∧
        s.readPath a path names = { s with store := store }.setLastRead a path read := by
  unfold readPath
  split
  · next names session _ =>
    exact .inr ⟨s.store.read session path, (session.2, names), rfl, rfl⟩
  · exact .inl rfl

theorem readPath_handle : ((s.readPath a path names).server a).zHandle = (s.server a).zHandle := by
  obtain hs | ⟨store, read, -, hs⟩ := readPath_eq s a path names
  · rw [hs]
  · rw [hs, setLastRead_self]

theorem readPath_place : ((s.readPath a path names).server a).place = (s.server a).place := by
  obtain hs | ⟨store, read, -, hs⟩ := readPath_eq s a path names
  · rw [hs]
  · rw [hs, setLastRead_self]

theorem readPath_status : (s.readPath a path names).status = s.status := by
  obtain hs | ⟨store, read, -, hs⟩ := readPath_eq s a path names
  · rw [hs]
  · rw [hs]
    rfl

theorem readPath_content : (s.readPath a path names).store.content = s.store.content := by
  obtain hs | ⟨store, read, hcontent, hs⟩ := readPath_eq s a path names
  · rw [hs]
  · rw [hs]
    exact hcontent

theorem readPath_lastRead_of_ne {path' : String} (h : path' ≠ path) :
    ((s.readPath a path names).server a).lastRead path' = (s.server a).lastRead path' := by
  obtain hs | ⟨store, read, -, hs⟩ := readPath_eq s a path names
  · rw [hs]
  · rw [hs, setLastRead_self]
    exact Function.update_of_ne h ..

theorem readPath_lastRead (hhandle : (s.server a).zHandle = some n)
    (hstatus : s.status (a, n) = .established) (hanswered : names = none → s.session a = none) :
    ∃ read, ((s.readPath a path names).server a).lastRead path = some (n, read) := by
  have hsession : s.session a = some (a, n) := session_eq_some.mpr ⟨hhandle, hstatus, rfl⟩
  cases names with
  | none =>
    rw [hanswered rfl] at hsession
    cases hsession
  | some names =>
    refine ⟨names, ?_⟩
    simp only [readPath, hsession, setLastRead_self, Function.update_self]

end Read

/-- A read of one path, after which a thread has only to do the reads that it had left. -/
theorem Reading.readPath (h : s.Reading cfg a) (hanswered : names = none → s.session a = none) :
    (s.readPath a path names).Reading cfg a := by
  intro n hhandle hstatus hnodes path' hpath
  rw [readPath_handle] at hhandle
  rw [readPath_status] at hstatus
  rw [readPath_content] at hnodes
  rw [readPath_place]
  by_cases hsame : path' = path
  · subst hsame
    exact .inr (readPath_lastRead hhandle hstatus hanswered)
  · rw [readPath_lastRead_of_ne hsame]
    exact h n hhandle hstatus hnodes path' hpath

theorem Reading.pull {paths : List String} (h : s.Reading cfg a)
    (hplace : (s.server a).place t = .pull (path :: paths))
    (hanswered : names = none → s.session a = none) :
    ((s.readPath a path names).setPlace a t (.pull paths)).Reading cfg a := by
  intro n hhandle hstatus hnodes path' hpath
  simp only [State.setPlace, setServer_self] at hhandle ⊢
  rw [readPath_handle] at hhandle
  change (s.readPath a path names).status _ = _ at hstatus
  rw [readPath_status] at hstatus
  change ∃ node ∈ (s.readPath a path names).store.content _, _ at hnodes
  rw [readPath_content] at hnodes
  rw [readPath_place]
  by_cases hsame : path' = path
  · subst hsame
    exact .inr (readPath_lastRead hhandle hstatus hanswered)
  · rw [readPath_lastRead_of_ne hsame]
    obtain ⟨t', paths', hplaced, hmem⟩ | hlast := h n hhandle hstatus hnodes path' hpath
    · by_cases ht : t' = t
      · subst ht
        obtain rfl : path :: paths = paths' := Place.pull.inj (hplace.symm.trans hplaced)
        refine .inl ⟨t', paths, Function.update_self .., ?_⟩
        exact (List.mem_cons.mp hmem).resolve_left hsame
      · refine .inl ⟨t', paths', ?_, hmem⟩
        rw [Function.update_of_ne ht, hplaced]
    · exact .inr hlast

theorem Reading.child (h : s.Reading cfg a) {store : Watch.Store String (List Node) Session}
    (hcontent : store.content = s.store.content)
    (hanswered : names = none → s.session a = none) :
    ({ s with store := store }.updateAssocSvr cfg a path names).Reading cfg a := by
  have hstore : ({ s with store := store } : State).Reading cfg a := by
    intro n hhandle hstatus hnodes
    change ∃ node ∈ store.content _, _ at hnodes
    rw [hcontent] at hnodes
    exact h n hhandle hstatus hnodes
  unfold State.updateAssocSvr
  split
  · exact hstore.readPath hanswered
  · exact hstore

/-- What a step leaves alone for a server that does not take it. -/
structure SameServer (s s' : State) (a : ℕ) : Prop where
  server : s'.server a = s.server a
  status : ∀ n, s'.status (a, n) = .established → s.status (a, n) = .established
  node : ∀ path n, ∀ node ∈ s'.store.content path, node.owner = (a, n) →
    node ∈ s.store.content path

theorem Reading.same (h : s.Reading cfg a) (hsame : SameServer s s' a) : s'.Reading cfg a := by
  intro n hhandle hestablished hnodes path hpath
  obtain ⟨node, hmem, howner⟩ := hnodes
  rw [hsame.server] at hhandle ⊢
  exact h n hhandle (hsame.status n hestablished) ⟨node, hsame.node _ n node hmem howner, howner⟩
    path hpath

theorem SameServer.refl : SameServer s s a := ⟨rfl, fun _ h => h, fun _ _ _ h _ => h⟩

theorem SameServer.setServer {a' : ℕ} {v : Server} (h : SameServer s s' a) (ha : a ≠ a') :
    SameServer s (s'.setServer a' v) a :=
  ⟨(setServer_of_ne ha).trans h.server, h.status, h.node⟩

theorem SameServer.store {store : Watch.Store String (List Node) Session}
    (h : SameServer s s' a) (hcontent : store.content = s'.store.content) :
    SameServer s { s' with store := store } a := by
  refine ⟨h.server, h.status, ?_⟩
  intro path n node hnode
  change node ∈ store.content path at hnode
  rw [hcontent] at hnode
  exact h.node path n node hnode

theorem SameServer.registService {a' : ℕ} {made : Bool} (h : SameServer s s' a) (ha : a ≠ a') :
    SameServer s (s'.registService cfg a' t made) a := by
  unfold State.registService
  split
  · exact h
  · have hpath (path : String) (made : Bool) : SameServer s (s'.makePath path made) a :=
      ⟨h.server, h.status, h.node⟩
    exact (hpath _ _).setServer ha

theorem SameServer.addNode {session : Session} (ha : a ≠ session.1) :
    SameServer s (s.addNode cfg session) a := by
  refine ⟨rfl, fun _ h => h, ?_⟩
  intro path n node hnode howner
  simp only [State.addNode, Watch.Store.change_content] at hnode
  by_cases hpath : path = (cfg session.1).servicePath
  · subst hpath
    rw [Function.update_self] at hnode
    refine (List.mem_append.mp hnode).resolve_right ?_
    intro hnew
    obtain rfl := List.mem_singleton.mp hnew
    exact ha (congrArg Prod.fst howner).symm
  · rwa [Function.update_of_ne hpath] at hnode

theorem sameServer_createNode {a' : ℕ} {outcome : Outcome} (ha : a ≠ a') :
    SameServer s (s.createNode cfg a' t outcome) a := by
  unfold State.createNode
  split
  · exact (SameServer.refl.setServer ha).setServer ha
  · next session hsession =>
    have hadd : SameServer s (s.addNode cfg session) a := by
      refine .addNode ?_
      rw [(session_eq_some.mp hsession).2.2]
      exact ha
    split
    · split
      · exact (hadd.setServer ha).setServer ha
      · exact (hadd.setServer ha).setServer ha
    · exact (SameServer.refl.setServer ha).setServer ha

theorem SameServer.readPath {a' : ℕ} (h : SameServer s s' a) (ha : a ≠ a') :
    SameServer s (s'.readPath a' path names) a := by
  obtain hs | ⟨store, read, hcontent, hs⟩ := readPath_eq s' a' path names
  · rw [hs]
    exact h
  · rw [hs]
    exact (h.store hcontent).setServer ha

theorem sameServer_updateAssocSvr {a' : ℕ} {store : Watch.Store String (List Node) Session}
    (hcontent : store.content = s.store.content) (ha : a ≠ a') :
    SameServer s ({ s with store := store }.updateAssocSvr cfg a' path names) a := by
  have hstore : SameServer s { s with store := store } a := SameServer.refl.store hcontent
  unfold State.updateAssocSvr
  split
  · exact hstore.readPath ha
  · exact hstore

theorem sameServer_endSession {session : Session} : SameServer s (s.endSession cfg session) a := by
  refine ⟨rfl, ?_, ?_⟩
  · intro n hstatus
    by_cases hsession : (a, n) = session
    · simp only [State.endSession, hsession, Function.update_self] at hstatus
      cases hstatus
    · simp only [State.endSession, Function.update_of_ne hsession] at hstatus
      exact hstatus
  · intro path n node hnode _
    simp only [State.endSession, Watch.Store.leave_content] at hnode
    split at hnode
    · exact hnode
    · simp only [Watch.Store.change_content] at hnode
      by_cases hpath : path = (cfg session.1).servicePath
      · subst hpath
        rw [Function.update_self] at hnode
        exact (List.mem_filter.mp hnode).1
      · rwa [Function.update_of_ne hpath] at hnode

/-- The server that takes a step. -/
def actor : Event → ℕ
  | .connectZookeeper a | .establish a _ | .connected a _ | .registService a _
  | .createNode a _ _ | .pull a _ _ | .pulled a _ | .child a _ | .endSession a _ | .expired a => a

theorem sameServer_of_moves {e : Event} (h : Moves cfg s e s') (ha : a ≠ actor e) :
    SameServer s s' a := by
  cases h with
  | connectZookeeper => exact SameServer.refl.setServer ha
  | establish =>
    refine ⟨rfl, fun n hstatus => ?_, fun _ _ _ hnode _ => hnode⟩
    simp only [State.establish] at hstatus
    rwa [Function.update_of_ne] at hstatus
    rintro ⟨rfl, rfl⟩
    exact ha rfl
  | connected => exact (SameServer.refl.setServer ha).registService ha
  | registService => exact SameServer.refl.registService ha
  | createNode => exact sameServer_createNode ha
  | pulled => exact SameServer.refl.setServer ha
  | pull => exact (SameServer.refl.readPath ha).setServer ha
  | child => exact sameServer_updateAssocSvr rfl ha
  | endSession => exact sameServer_endSession
  | expired =>
    unfold State.resetConnect
    split
    · exact (SameServer.refl.setServer ha).setServer ha
    · exact .refl

theorem Reading.step {e : Event} (hread : s.Reading cfg a) (hsound : s.Sound cfg)
    (hanswered : s.Answered e) (h : Moves cfg s e s') : s'.Reading cfg a := by
  by_cases ha : a ≠ actor e
  · exact hread.same (sameServer_of_moves h ha)
  · obtain rfl := not_not.mp ha
    cases h with
    | connectZookeeper =>
      -- the session is new
      intro n hhandle hstatus
      simp only [actor, State.connectZookeeper, setServer_self] at hhandle hstatus
      cases hhandle
      rw [show (s.setServer _ _).status = s.status from rfl,
        hsound.fresh _ _ (Nat.le_refl _)] at hstatus
      cases hstatus
    | establish hopened hconnecting =>
      -- it has no nodes yet
      intro n hhandle hstatus hnodes
      obtain ⟨node, hnode, howner⟩ := hnodes
      have hold := (hsound.node _ node hnode).1
      rw [howner] at hold
      exact hread n hhandle hold ⟨node, hnode, howner⟩
    | connected hidle =>
      refine Reading.registService ?_ ?_
      · exact hread.setServer rfl rfl fun _ _ _ hplace => hplace
      · simp only [State.Idle, State.setConnect, setServer_self]
        exact hidle
    | registService hidle => exact hread.registService hidle
    | createNode => exact reading_createNode
    | pulled hplace =>
      refine hread.setPlace ?_
      intro path paths hplaced
      cases hplace.symm.trans hplaced
    | pull hplace hanswer =>
      refine hread.pull hplace ?_
      rintro rfl
      exact hanswered
    | child _ _ hanswer =>
      refine hread.child rfl ?_
      rintro rfl
      exact hanswered
    | endSession => exact hread.same sameServer_endSession
    | expired =>
      unfold State.resetConnect
      split
      · exact reading_finalize
      · exact hread

theorem reading_of_reaches (h : Run.Reaches (State.step cfg) Answered init s) :
    s.Reading cfg a := by
  have hinv : s.Sound cfg ∧ s.Reading cfg a := by
    refine h.invariant (fun s => s.Sound cfg ∧ s.Reading cfg a)
      ⟨sound_init, reading_of_none rfl⟩ ?_
    intro s e s' hs hanswered hstep
    have hmoves := moves_of_step hstep
    exact ⟨hs.1.step hanswered.notice hmoves, hs.2.step hs.1 hanswered hmoves⟩
  exact hinv.2

/-- As long as reads in established sessions are answered: a server that has a node in its present
session, while none of its threads is on its way and no notice is, has read from each associated
path exactly the servers that are registered there. -/
theorem reads_registered (hips : ∀ a, ':' ∉ (cfg a).host.1.toList)
    (h : Run.Reaches (State.step cfg) Answered init s) (hhandle : (s.server a).zHandle = some n)
    (hstatus : s.status (a, n) = .established)
    (hnode : ∃ node ∈ s.store.content (cfg a).servicePath, node.owner = (a, n))
    (hidle : ∀ t, s.Idle a t) (hquiet : s.store.notices (a, n) = [])
    (hpath : path ∈ (cfg a).assocPaths) :
    ∃ names, (s.server a).lastRead path = some (n, names) ∧
      ∀ (l : AssocSvrList) (port : UInt16),
        (l.refreshAssocSvr port names).heldHosts.Perm (s.hosts cfg path) := by
  obtain ⟨t, paths, hplace, -⟩ | ⟨names, hread⟩ :=
    reading_of_reaches h n hhandle hstatus hnode path hpath
  · rw [hidle t] at hplace
    cases hplace
  · have hsound := sound_of_reaches (reaches_noticeAnswered h)
    refine ⟨names, hread, hsound.lastRead_perm hips hread hstatus ?_⟩
    rw [hquiet]
    exact List.not_mem_nil

/-- The message server has read both managers, and nothing is left to do. -/
theorem reads_registered_joins :
    ∃ s, Run.runGood (step threeServers) Answered init managerJoins = some s ∧
      ∃ names, (s.server 1).lastRead "/uscm" = some (0, names) ∧
        ((AssocSvrList.mk false 1 ∅).refreshAssocSvr 0 names).heldHosts.Perm
          [("10.0.0.1", 8000), ("10.0.0.3", 8000)] := by
  obtain ⟨s, hrun, hhandle, hstatus, hquiet, hidle, -, hnode, hhosts⟩ := managerJoins_reaches
  obtain ⟨names, hread, hheld⟩ := reads_registered threeServers_ips (Run.reaches_of_runGood hrun)
    hhandle hstatus hnode hidle hquiet List.mem_cons_self
  refine ⟨s, hrun, names, hread, ?_⟩
  rw [← hhosts]
  exact hheld _ 0

end State

end Discovery

end ImServer
