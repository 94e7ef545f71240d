import ImServer.Base.BaseSocket
import ImServer.Lib.Run

/-!
# Dispatching a batch of socket events

`CEventDispatch::OnThreadRun` (base/eventdispatch.cpp) takes a batch of events from
`epoll_wait`, looks each descriptor up when its turn comes, and runs up to four handlers
of the socket it finds. Each handler sends at most one message, and the callback that
receives it may close and open any connections before the next handler runs; so may
workers and timers at any other time.

Events carry the socket they were reported for, and every message that reaches a
connection is recorded with that socket. The code reads neither.
-/

namespace ImServer

namespace CEventDispatch

structure EpollFlags where
  rdhup : Bool := false
  epollIn : Bool := false
  out : Bool := false
  pri : Bool := false
  err : Bool := false
  hup : Bool := false
  deriving DecidableEq, Repr

inductive Handler where
  | onClose
  | onRead
  | onWrite
  deriving DecidableEq, Repr

/-- The handlers that `OnThreadRun` calls for an event, in its order. -/
def EpollFlags.handlers (flags : EpollFlags) : List Handler :=
  (if flags.rdhup then [.onClose] else []) ++ (if flags.epollIn then [.onRead] else []) ++
    (if flags.out then [.onWrite] else []) ++
    (if flags.pri || flags.err || flags.hup then [.onClose] else [])

/-- An event of a batch, with the socket that had the descriptor when it was collected. -/
structure EpollEvent where
  fd : Fd
  flags : EpollFlags
  socket : SocketId
  deriving DecidableEq, Repr

inductive Msg where
  | confirm
  | read
  | write
  | close
  deriving DecidableEq, Repr

/-- A message that reached the connection `receiver` while an event of the socket `reported` was
handled, and whether that socket was still open. -/
structure Delivery where
  reported : SocketId
  msg : Msg
  receiver : SocketId
  isOpen : Bool
  deriving DecidableEq, Repr

/-- The event in progress: the socket that was found for it, and the handlers to come. -/
structure Current where
  event : EpollEvent
  socket : SocketId
  handlers : List Handler
  deriving DecidableEq, Repr

structure State where
  net : Netlib := {}
  waiting : List EpollEvent := []
  current : Option Current := none
  /-- The listening socket whose accept loop runs. -/
  accepting : Option SocketId := none
  delivered : List Delivery := []

/-- What the system reports to a handler: whether there is anything to read, and whether
a connection attempt failed. -/
structure Outcome where
  avail : Bool
  error : Bool
  deriving DecidableEq, Repr

inductive Event where
  | listen (fd : Fd)
  | connect (fd : Fd)
  | accept (fd : Fd)
  | closeLink (c : SocketId)
  | epollWait (events : List EpollEvent)
  | findSocket
  | handle (outcome : Outcome)
  | releaseSocket

def setState (n : Netlib) (k : SocketId) (state : SocketState) : Netlib :=
  n.modify k fun s => { s with state }

/-- `OnRead`: a listening socket accepts, the others tell their connection that there are bytes or
that the peer has closed. -/
def onRead (n : Netlib) (k : SocketId) (outcome : Outcome) : Netlib × Option Msg :=
  if (n.sockets k).state = .listening then (n, none)
  else (n, some (if outcome.avail then .read else .close))

def onWrite (n : Netlib) (k : SocketId) (outcome : Outcome) : Netlib × Option Msg :=
  if (n.sockets k).state = .connecting then
    if outcome.error then (n, some .close) else (setState n k .connected, some .confirm)
  else (n, some .write)

def onClose (n : Netlib) (k : SocketId) : Netlib × Option Msg :=
  (setState n k .closing, some .close)

def Handler.run (n : Netlib) (k : SocketId) (outcome : Outcome) : Handler → Netlib × Option Msg
  | .onClose => CEventDispatch.onClose n k
  | .onRead => CEventDispatch.onRead n k outcome
  | .onWrite => CEventDispatch.onWrite n k outcome

/-- What the callback does with a message of the socket `k`. -/
def deliver (n : Netlib) (k reported : SocketId) : Option Msg → List Delivery
  | none => []
  | some msg =>
    match n.receiver k with
    | none => []
    | some receiver => [{ reported, msg, receiver, isOpen := n.IsOpen reported }]

def step (s : State) : Event → Option State
  | .listen fd =>
    if s.net.socketMap fd = none then some { s with net := s.net.listen fd } else none
  | .connect fd =>
    if s.net.socketMap fd = none then some { s with net := s.net.connect fd } else none
  | .accept fd =>
    match s.accepting with
    | none => none
    | some listener =>
      if s.net.socketMap fd = none then
        some { s with net := s.net.acceptNewSocket listener fd }
      else none
  | .closeLink c =>
    match s.net.links c with
    | none => none
    | some link => some { s with net := s.net.closeLink link }
  | .epollWait events =>
    -- The events are those of registered descriptors.
    if s.waiting = [] ∧ s.current = none ∧
        ∀ e ∈ events, s.net.socketMap e.fd = some e.socket then
      some { s with waiting := events }
    else none
  | .findSocket =>
    match s.current, s.waiting with
    | none, e :: waiting =>
      let (net, k) := s.net.findBaseSocket e.fd
      some { s with net, waiting, current := k.map fun k => ⟨e, k, e.flags.handlers⟩ }
    | _, _ => none
  | .handle outcome =>
    match s.current with
    | some ⟨e, k, h :: handlers⟩ =>
      let (net, msg) := h.run s.net k outcome
      some { s with
        net
        current := some ⟨e, k, handlers⟩
        accepting := if h = .onRead ∧ msg = none then some k else none
        delivered := deliver net k e.socket msg ++ s.delivered }
    | _ => none
  | .releaseSocket =>
    match s.current with
    | some ⟨_, k, []⟩ =>
      some { s with net := s.net.releaseRef k, current := none, accepting := none }
    | _ => none

/-- Every message reached the connection registered for the socket that the event in
progress was reported for, and that socket was open. -/
def DeliveredToOwn (s : State) : Prop :=
  ∀ d ∈ s.delivered, d.receiver = d.reported ∧ d.isOpen = true

/-- A number that is given out while a batch is processed is not that of an event that
waits, nor that of the event in progress for the same callback, if it has handlers to come. -/
def FreshFor (s : State) (fd : Fd) (callback : Callback) : Prop :=
  (∀ e ∈ s.waiting, e.fd ≠ fd) ∧
    ∀ c ∈ s.current, c.handlers ≠ [] → s.net.route c.socket ≠ (fd, callback)

/-- The number of a link that is closed does not belong to a connection of the other map. -/
def ClosesOwn (s : State) (link : PhysicalLink) : Prop :=
  ∀ k ∈ s.net.socketMap link.handle, (s.net.sockets k).callback = .imconnCallback link.map

def Good (s : State) : Event → Prop
  | .listen fd => FreshFor s fd .clientLinkListener
  | .connect fd => FreshFor s fd (.imconnCallback .server)
  | .accept fd => ∀ listener ∈ s.accepting, FreshFor s fd (s.net.acceptedCallback listener)
  | .closeLink c => ∀ link ∈ s.net.links c, ClosesOwn s link
  | _ => True

instance (s : State) (fd : Fd) (callback : Callback) : Decidable (FreshFor s fd callback) :=
  inferInstanceAs (Decidable (_ ∧ _))

instance (s : State) (link : PhysicalLink) : Decidable (ClosesOwn s link) :=
  inferInstanceAs (Decidable (∀ _ ∈ _, _))

instance (s : State) : (e : Event) → Decidable (Good s e)
  | .listen _ | .connect _ => inferInstanceAs (Decidable (FreshFor ..))
  | .accept _ | .closeLink _ => inferInstanceAs (Decidable (∀ _ ∈ _, _))
  | .epollWait _ | .findSocket | .handle _ | .releaseSocket => .isTrue trivial

/-- Events are for the socket that their descriptor finds, if it finds one. -/
structure DispatchInv (s : State) : Prop where
  net : s.net.Registered
  waiting : ∀ e ∈ s.waiting, ∀ k, s.net.socketMap e.fd = some k → k = e.socket
  held : ∀ c ∈ s.current, c.socket < s.net.next
  current : ∀ c ∈ s.current, c.handlers ≠ [] → c.socket = c.event.socket ∧
    ∀ fd k, s.net.socketMap fd = some k → s.net.route k = s.net.route c.socket → k = c.socket
  delivered : DeliveredToOwn s

variable {s s' : State} {n n' : Netlib} {e : Event} {fd : Fd} {callback : Callback}
  {k : SocketId}

theorem keeps_setState (state : SocketState) : Netlib.Keeps n (setState n k state) := by
  unfold setState
  exact Netlib.keeps_modify rfl rfl

theorem keeps_run (h : Handler) (outcome : Outcome) :
    Netlib.Keeps n (h.run n k outcome).1 := by
  have hsame : Netlib.Keeps n n := ⟨rfl, rfl, rfl, rfl⟩
  cases h with
  | onClose => exact keeps_setState .closing
  | onRead =>
    simp only [Handler.run, onRead]
    split <;> exact hsame
  | onWrite =>
    simp only [Handler.run, onWrite]
    split
    · split
      · exact hsame
      · exact keeps_setState .connected
    · exact hsame

/-- A receiver that is found uses the route of the socket that sends. -/
theorem receiver_spec (h : n.Registered) {c : SocketId} (hc : n.receiver k = some c) :
    n.socketMap (n.route k).1 = some c ∧ n.route c = n.route k := by
  unfold Netlib.receiver at hc
  split at hc
  · cases hc
  · next fd map hroute =>
    rw [hroute]
    exact h.link map fd c hc

/-- Messages of a socket that nobody else has the route of reach its own connection. -/
theorem deliver_own (h : n.Registered)
    (hown : ∀ fd c, n.socketMap fd = some c → n.route c = n.route k → c = k) (msg : Option Msg) :
    ∀ d ∈ deliver n k k msg, d.receiver = d.reported ∧ d.isOpen = true := by
  intro d hd
  cases msg with
  | none => cases hd
  | some msg =>
    simp only [deliver] at hd
    split at hd
    · cases hd
    · next c hc =>
      obtain ⟨hsocket, hroute⟩ := receiver_spec h hc
      have heq := hown _ c hsocket hroute
      subst heq
      obtain rfl := List.mem_singleton.mp hd
      exact ⟨rfl, decide_eq_true hsocket⟩

theorem DispatchInv.keeps (h : DispatchInv s) (hkeeps : Netlib.Keeps s.net n') :
    DispatchInv { s with net := n' } where
  net := h.net.keeps hkeeps
  waiting := by
    simp only [hkeeps.socketMap]
    exact h.waiting
  held := by
    simp only [hkeeps.next]
    exact h.held
  current := by
    simp only [hkeeps.socketMap, hkeeps.route]
    exact h.current
  delivered := h.delivered

theorem DispatchInv.opens (h : DispatchInv s) (hfree : s.net.socketMap fd = none)
    (hfresh : FreshFor s fd callback) (hopens : Netlib.Opens s.net n' fd callback) :
    DispatchInv { s with net := n' } where
  net := h.net.opens hfree hopens
  waiting := by
    intro e he k hk
    simp only [hopens.socketMap, Function.update_of_ne (hfresh.1 e he)] at hk
    exact h.waiting e he k hk
  held := by
    intro c hc
    simp only [hopens.next]
    exact Nat.lt_succ_of_lt (h.held c hc)
  current := by
    intro c hc hhandlers
    obtain ⟨hsocket, hown⟩ := h.current c hc hhandlers
    refine ⟨hsocket, ?_⟩
    intro fd' k hk hroute
    simp only [hopens.socketMap] at hk
    simp only [hopens.route, Function.update_of_ne (Nat.ne_of_lt (h.held c hc))] at hroute
    rcases Index.update_some_eq_some.mp hk with ⟨-, rfl⟩ | ⟨-, hk⟩
    · rw [Function.update_self] at hroute
      exact absurd hroute.symm (hfresh.2 c hc hhandlers)
    · rw [Function.update_of_ne (Nat.ne_of_lt (h.net.socket fd' k hk).2)] at hroute
      exact hown fd' k hk hroute
  delivered := h.delivered

theorem DispatchInv.closes (h : DispatchInv s) (hcloses : Netlib.Closes s.net n' fd) :
    DispatchInv { s with net := n' } where
  net := h.net.closes hcloses
  waiting := by
    intro e he k hk
    simp only [hcloses.socketMap] at hk
    exact h.waiting e he k (Index.update_none_eq_some.mp hk).2
  held := by
    intro c hc
    simp only [hcloses.next]
    exact h.held c hc
  current := by
    intro c hc hhandlers
    obtain ⟨hsocket, hown⟩ := h.current c hc hhandlers
    refine ⟨hsocket, ?_⟩
    intro fd' k hk hroute
    simp only [hcloses.socketMap] at hk
    simp only [hcloses.route] at hroute
    exact hown fd' k (Index.update_none_eq_some.mp hk).2 hroute
  delivered := h.delivered

/-- The event that is taken from the batch finds the socket it was reported for. -/
theorem DispatchInv.findSocket (h : DispatchInv s) {e : EpollEvent} {waiting : List EpollEvent}
    (hwaiting : s.waiting = e :: waiting) :
    DispatchInv { s with
      net := (s.net.findBaseSocket e.fd).1
      waiting
      current := (s.net.findBaseSocket e.fd).2.map fun k => ⟨e, k, e.flags.handlers⟩ } := by
  have hrest : ∀ e' ∈ waiting, ∀ k, s.net.socketMap e'.fd = some k → k = e'.socket := by
    intro e' he'
    exact h.waiting e' (hwaiting ▸ List.mem_cons_of_mem e he')
  cases hk : s.net.socketMap e.fd with
  | none =>
    rw [Netlib.findBaseSocket_of_none hk]
    exact ⟨h.net, hrest, nofun, nofun, h.delivered⟩
  | some k =>
    rw [Netlib.findBaseSocket_of_some hk]
    have heq : k = e.socket := h.waiting e (hwaiting ▸ List.mem_cons_self) k hk
    have hinv : DispatchInv { s with
        waiting, current := some ⟨e, k, e.flags.handlers⟩ } := by
      refine ⟨h.net, hrest, ?_, ?_, h.delivered⟩
      · rintro c ⟨⟩
        exact (h.net.socket _ _ hk).2
      · rintro c ⟨⟩ -
        exact ⟨heq, fun fd' k' hk' => h.net.eq_of_route hk hk'⟩
    exact hinv.keeps Netlib.keeps_addRef

theorem DispatchInv.handle (h : DispatchInv s) {e : EpollEvent} {handler : Handler}
    {handlers : List Handler} (hcurrent : s.current = some ⟨e, k, handler :: handlers⟩)
    (outcome : Outcome) (accepting : Option SocketId) :
    DispatchInv { s with
      net := (handler.run s.net k outcome).1
      current := some ⟨e, k, handlers⟩
      accepting
      delivered := deliver (handler.run s.net k outcome).1 k e.socket
        (handler.run s.net k outcome).2 ++ s.delivered } := by
  have hkept := h.keeps (keeps_run (k := k) handler outcome)
  obtain ⟨hsocket, hown⟩ := hkept.current _ hcurrent (List.cons_ne_nil _ _)
  refine ⟨hkept.net, hkept.waiting, ?_, ?_, ?_⟩
  · rintro c ⟨⟩
    exact hkept.held ⟨e, k, handler :: handlers⟩ hcurrent
  · rintro c ⟨⟩ -
    exact ⟨hsocket, hown⟩
  · intro d hd
    rcases List.mem_append.mp hd with hd | hd
    · simp only at hsocket
      rw [← hsocket] at hd
      exact deliver_own hkept.net hown _ d hd
    · exact h.delivered d hd

/-- Every good event keeps the batch on the sockets it was reported for. -/
theorem DispatchInv.step (h : DispatchInv s) (hgood : Good s e) (hstep : step s e = some s') :
    DispatchInv s' := by
  cases e with
  | listen fd =>
    obtain ⟨hfree, hstep⟩ := Option.ite_none_right_eq_some.mp hstep
    cases hstep
    exact h.opens hfree hgood (Netlib.listen_opens hfree)
  | connect fd =>
    obtain ⟨hfree, hstep⟩ := Option.ite_none_right_eq_some.mp hstep
    cases hstep
    exact h.opens hfree hgood (Netlib.connect_opens hfree)
  | accept fd =>
    simp only [CEventDispatch.step] at hstep
    split at hstep
    · cases hstep
    · next listener haccepting =>
      obtain ⟨hfree, hstep⟩ := Option.ite_none_right_eq_some.mp hstep
      cases hstep
      exact h.opens hfree (hgood listener haccepting)
        (Netlib.acceptNewSocket_opens hfree listener)
  | closeLink c =>
    simp only [CEventDispatch.step] at hstep
    split at hstep
    · cases hstep
    · next link hlink =>
      cases hstep
      exact h.closes (h.net.closeLink (hgood link hlink))
  | epollWait events =>
    obtain ⟨⟨-, hcurrent, hevents⟩, hstep⟩ := Option.ite_none_right_eq_some.mp hstep
    cases hstep
    refine ⟨h.net, ?_, h.held, h.current, h.delivered⟩
    intro e he k hk
    rw [hevents e he] at hk
    exact (Option.some.inj hk).symm
  | findSocket =>
    simp only [CEventDispatch.step] at hstep
    split at hstep
    · next hwaiting =>
      cases hstep
      exact h.findSocket hwaiting
    · cases hstep
  | handle outcome =>
    simp only [CEventDispatch.step] at hstep
    split at hstep
    · next hcurrent =>
      cases hstep
      exact h.handle hcurrent outcome _
    · cases hstep
  | releaseSocket =>
    simp only [CEventDispatch.step] at hstep
    split at hstep
    · next e k hcurrent =>
      cases hstep
      have hkept := h.keeps (Netlib.keeps_releaseRef (k := k))
      exact ⟨hkept.net, hkept.waiting, nofun, nofun, hkept.delivered⟩
    · cases hstep

/-- In every run in which numbers are given out that no event of the batch still refers
to, and links are closed whose numbers do not belong to the other map, every message
reaches the connection registered for the socket of its event, while it is open. -/
theorem delivered_to_own (h : Run.Reaches step Good {} s) : DeliveredToOwn s := by
  have hinv : DispatchInv s := by
    refine h.invariant DispatchInv ?_ ?_
    · refine ⟨⟨nofun, nofun⟩, nofun, nofun, nofun, nofun⟩
    · intro s e s' hinv hgood hstep
      exact hinv.step hgood hstep
  exact hinv.delivered

/-- A listening socket on descriptor 3 accepts two clients, on 5 and 6. -/
def twoClients : List Event :=
  [.listen 3, .epollWait [⟨3, { epollIn := true }, 0⟩], .findSocket, .handle ⟨true, false⟩,
    .accept 5, .accept 6, .releaseSocket]

/-- The second client sends something, and the callback closes the link of the first, for
which an event with two flags waits. -/
theorem delivered_to_own_two_clients :
    ∃ s, Run.runGood step Good {} (twoClients ++
        [.epollWait [⟨6, { epollIn := true }, 2⟩, ⟨5, { rdhup := true, epollIn := true }, 1⟩],
          .findSocket, .handle ⟨true, false⟩, .closeLink 1, .connect 7, .releaseSocket,
          .findSocket]) = some s ∧
      s.delivered = [⟨2, .read, 2, true⟩] ∧ DeliveredToOwn s := by
  have hrun : ∃ s, Run.runGood step Good {} (twoClients ++
      [.epollWait [⟨6, { epollIn := true }, 2⟩, ⟨5, { rdhup := true, epollIn := true }, 1⟩],
        .findSocket, .handle ⟨true, false⟩, .closeLink 1, .connect 7, .releaseSocket,
        .findSocket]) = some s ∧ s.delivered = [⟨2, .read, 2, true⟩] := ⟨_, rfl, by decide⟩
  obtain ⟨s, hs, hdelivered⟩ := hrun
  exact ⟨s, hs, hdelivered, delivered_to_own (Run.reaches_of_runGood hs)⟩

/-- The link of the first client is closed while its event waits, and a third client gets
descriptor 5 within the batch. It is told to close in place of the first one. -/
theorem delivered_to_reused_descriptor :
    ∃ s, Run.run step {} (twoClients ++
        [.epollWait [⟨6, { epollIn := true }, 2⟩, ⟨3, { epollIn := true }, 0⟩,
            ⟨5, { rdhup := true }, 1⟩],
          .findSocket, .handle ⟨true, false⟩, .closeLink 1, .releaseSocket,
          .findSocket, .handle ⟨true, false⟩, .accept 5, .releaseSocket,
          .findSocket, .handle ⟨true, false⟩]) = some s ∧
      ¬ DeliveredToOwn s := by
  refine ⟨_, rfl, fun hown => ?_⟩
  have hlast := (hown ⟨1, .close, 3, false⟩ (by decide)).1
  cases hlast

end CEventDispatch

end ImServer
