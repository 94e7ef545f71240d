import Mathlib.Logic.Function.Basic
import ImServer.Lib.Index

/-!
# Sockets and physical links

`CBaseSocket` objects (base/basesocket.cpp) are found by descriptor number in
`g_socket_map`, and the connections that own them by the same number in one of the
physical link maps (base/clientlinkmgr.cpp, base/serverlinkmgr.cpp). The system may hand
out a number again as soon as it is closed.

Objects are named by numbers that are never used twice, and a connection has the name
of the socket it was registered for. Descriptor numbers are what the code itself sees.
Calls of the system that fail before a socket is registered leave nothing behind and
are not modelled.
-/

namespace ImServer

abbrev Fd := Nat

/-- The name of a socket, and of the connection that was registered for it. -/
abbrev SocketId := Nat

inductive SocketState where
  | idle
  | listening
  | connecting
  | connected
  | closing
  deriving DecidableEq, Repr

/-- `g_ClientPhysicalLinkMap` and `g_ServerPhysicalLinkMap`. -/
inductive PhysicalLinkMap where
  | client
  | server
  deriving DecidableEq, Repr

/-- `m_callback` together with the `m_callback_data` that it is set with. -/
inductive Callback where
  | clientLinkListener
  | imconnCallback (map : PhysicalLinkMap)
  deriving DecidableEq, Repr

structure CBaseSocket where
  socket : Fd := 0
  state : SocketState := .idle
  callback : Callback := .clientLinkListener
  refCount : Int := 1
  deriving DecidableEq, Repr

/-- What a connection knows of its socket: `m_handle`, and the map it is in. -/
structure PhysicalLink where
  handle : Fd
  map : PhysicalLinkMap
  deriving DecidableEq, Repr

structure Netlib where
  sockets : SocketId → CBaseSocket := fun _ => {}
  links : SocketId → Option PhysicalLink := fun _ => none
  socketMap : Fd → Option SocketId := fun _ => none
  linkMap : PhysicalLinkMap → Fd → Option SocketId := fun _ _ => none
  next : SocketId := 0

namespace Netlib

variable (n : Netlib)

def modify (k : SocketId) (f : CBaseSocket → CBaseSocket) : Netlib :=
  { n with sockets := Function.update n.sockets k (f (n.sockets k)) }

def addRef (k : SocketId) : Netlib := n.modify k fun s => { s with refCount := s.refCount + 1 }

def releaseRef (k : SocketId) : Netlib := n.modify k fun s => { s with refCount := s.refCount - 1 }

/-- `AddBaseSocket`: `insert` keeps an entry that is there. -/
def addBaseSocket (k : SocketId) : Netlib :=
  if n.socketMap (n.sockets k).socket = none then
    { n with socketMap := Function.update n.socketMap (n.sockets k).socket (some k) }
  else n

def removeBaseSocket (k : SocketId) : Netlib :=
  { n with socketMap := Function.update n.socketMap (n.sockets k).socket none }

/-- `FindBaseSocket`, which takes a reference. -/
def findBaseSocket (fd : Fd) : Netlib × Option SocketId :=
  match n.socketMap fd with
  | none => (n, none)
  | some k => (n.addRef k, some k)

/-- `insert` of a connection into a physical link map. -/
def insertLink (map : PhysicalLinkMap) (handle : Fd) (c : SocketId) : Netlib :=
  if n.linkMap map handle = none then
    { n with
      linkMap := Function.update n.linkMap map
        (Function.update (n.linkMap map) handle (some c)) }
  else n

def eraseLink (map : PhysicalLinkMap) (handle : Fd) : Netlib :=
  { n with linkMap := Function.update n.linkMap map (Function.update (n.linkMap map) handle none) }

/-- A socket object for a descriptor, registered. -/
def newSocket (socket : CBaseSocket) : Netlib :=
  ({ n with sockets := Function.update n.sockets n.next socket, next := n.next + 1 }).addBaseSocket
    n.next

/-- `netlib_option` with `NETLIB_OPT_SET_CALLBACK` and `NETLIB_OPT_SET_CALLBACK_DATA`. -/
def netlibOption (handle : Fd) (callback : Callback) : Netlib :=
  match n.findBaseSocket handle with
  | (n, none) => n
  | (n, some k) => (n.modify k fun s => { s with callback }).releaseRef k

/-- `Listen` on the descriptor `fd`. -/
def listen (fd : Fd) : Netlib :=
  n.newSocket { socket := fd, state := .listening, callback := .clientLinkListener }

/-- `CServerLink::Connect` with the descriptor `fd`, which the system has just given to the new
socket. -/
def connect (fd : Fd) : Netlib :=
  let c := n.next
  let n := n.newSocket { socket := fd, state := .connecting, callback := .imconnCallback .server }
  { n with links := Function.update n.links c (some ⟨fd, .server⟩) }.insertLink .server fd c

/-- `CClientLink::OnConnect` on a new link for the socket `c`. -/
def onConnect (handle : Fd) (c : SocketId) : Netlib :=
  let n := { n with links := Function.update n.links c (some ⟨handle, .client⟩) }
  (n.insertLink .client handle c).netlibOption handle (.imconnCallback .client)

/-- One turn of the loop of `_AcceptNewSocket`, where `accept` returns `fd`. Of the two
callbacks only the listener takes `NETLIB_MSG_CONNECT`. -/
def acceptNewSocket (listener : SocketId) (fd : Fd) : Netlib :=
  let c := n.next
  let callback := (n.sockets listener).callback
  let n := n.newSocket { socket := fd, state := .connected, callback }
  match callback with
  | .clientLinkListener => n.onConnect fd c
  | .imconnCallback _ => n

/-- `CBaseSocket::Close`: the socket leaves the map, and one of its references is given back. -/
def close (k : SocketId) : Netlib := (n.removeBaseSocket k).releaseRef k

def netlibClose (handle : Fd) : Netlib :=
  match n.findBaseSocket handle with
  | (n, none) => n
  | (n, some k) => (n.close k).releaseRef k

/-- What `CClientLink::CloseLink` and `CServerLink::Close` do to the socket of a link. -/
def closeLink (link : PhysicalLink) : Netlib :=
  (n.netlibClose link.handle).eraseLink link.map link.handle

/-- The descriptor and the callback that the messages of a socket are sent with. -/
def route (k : SocketId) : Fd × Callback := ((n.sockets k).socket, (n.sockets k).callback)

/-- The connection that a message of the socket `k` reaches: `imconn_callback` looks the
descriptor up in its map, the listener takes no such message. -/
def receiver (k : SocketId) : Option SocketId :=
  match n.route k with
  | (_, .clientLinkListener) => none
  | (fd, .imconnCallback map) => n.linkMap map fd

/-- A socket that is not closed. -/
def IsOpen (k : SocketId) : Prop := n.socketMap (n.sockets k).socket = some k

instance (k : SocketId) : Decidable (n.IsOpen k) := inferInstanceAs (Decidable (_ = _))

/-- The callback of a socket that was accepted by a socket with the callback `callback`. -/
def acceptedCallback (listener : SocketId) : Callback :=
  match (n.sockets listener).callback with
  | .clientLinkListener => .imconnCallback .client
  | .imconnCallback map => .imconnCallback map

section Effects

variable {n : Netlib} {n' : Netlib} {k : SocketId} {fd : Fd} {callback : Callback}

/-- Nothing that messages depend on is changed. -/
structure Keeps (n n' : Netlib) : Prop where
  next : n'.next = n.next
  socketMap : n'.socketMap = n.socketMap
  linkMap : n'.linkMap = n.linkMap
  route : n'.route = n.route

/-- A socket is opened on the descriptor `fd`, perhaps with a connection. -/
structure Opens (n n' : Netlib) (fd : Fd) (callback : Callback) : Prop where
  next : n'.next = n.next + 1
  socketMap : n'.socketMap = Function.update n.socketMap fd (some n.next)
  route : n'.route = Function.update n.route n.next (fd, callback)
  link : ∀ map fd' c, n'.linkMap map fd' = some c →
    n.linkMap map fd' = some c ∨ fd' = fd ∧ c = n.next ∧ callback = .imconnCallback map

/-- The descriptor `fd` is closed, and no map has an entry for it any more. -/
structure Closes (n n' : Netlib) (fd : Fd) : Prop where
  next : n'.next = n.next
  socketMap : n'.socketMap = Function.update n.socketMap fd none
  route : n'.route = n.route
  link : ∀ map fd' c, n'.linkMap map fd' = some c → fd' ≠ fd ∧ n.linkMap map fd' = some c

theorem route_modify (f : CBaseSocket → CBaseSocket) :
    (n.modify k f).route = Function.update n.route k
      ((f (n.sockets k)).socket, (f (n.sockets k)).callback) := by
  funext k'
  by_cases hk : k' = k
  · simp only [route, modify, hk, Function.update_self]
  · simp only [route, modify, Function.update_of_ne hk]

theorem keeps_modify {f : CBaseSocket → CBaseSocket}
    (hsocket : (f (n.sockets k)).socket = (n.sockets k).socket)
    (hcallback : (f (n.sockets k)).callback = (n.sockets k).callback) : Keeps n (n.modify k f) := by
  refine ⟨rfl, rfl, rfl, ?_⟩
  rw [route_modify, hsocket, hcallback]
  exact Function.update_eq_self k n.route

theorem keeps_addRef : Keeps n (n.addRef k) := keeps_modify rfl rfl

theorem keeps_releaseRef : Keeps n (n.releaseRef k) := keeps_modify rfl rfl

theorem findBaseSocket_of_none (h : n.socketMap fd = none) : n.findBaseSocket fd = (n, none) := by
  rw [findBaseSocket, h]

theorem findBaseSocket_of_some (h : n.socketMap fd = some k) :
    n.findBaseSocket fd = (n.addRef k, some k) := by
  rw [findBaseSocket, h]

theorem newSocket_opens (socket : CBaseSocket) (hfree : n.socketMap socket.socket = none) :
    Opens n (n.newSocket socket) socket.socket socket.callback ∧
      (n.newSocket socket).linkMap = n.linkMap := by
  have heq : n.newSocket socket =
      { n with
        sockets := Function.update n.sockets n.next socket
        next := n.next + 1
        socketMap := Function.update n.socketMap socket.socket (some n.next) } := by
    simp only [newSocket, addBaseSocket, Function.update_self, hfree, if_true]
  rw [heq]
  refine ⟨⟨rfl, rfl, ?_, fun _ _ _ => .inl⟩, rfl⟩
  exact route_modify (k := n.next) fun _ => socket

theorem listen_opens (hfree : n.socketMap fd = none) :
    Opens n (n.listen fd) fd .clientLinkListener := (newSocket_opens _ hfree).1

theorem insertLink_eq (map : PhysicalLinkMap) (c : SocketId) :
    n.insertLink map fd c = { n with linkMap := (n.insertLink map fd c).linkMap } := by
  unfold insertLink
  split <;> rfl

theorem insertLink_linkMap {map map' : PhysicalLinkMap} {fd' : Fd} {c c' : SocketId}
    (h : (n.insertLink map fd c).linkMap map' fd' = some c') :
    n.linkMap map' fd' = some c' ∨ map' = map ∧ fd' = fd ∧ c' = c := by
  unfold insertLink at h
  split at h
  · by_cases hmap : map' = map
    · subst hmap
      simp only [Function.update_self] at h
      rcases Index.update_some_eq_some.mp h with ⟨hfd, hc⟩ | ⟨-, h⟩
      · exact .inr ⟨rfl, hfd, hc.symm⟩
      · exact .inl h
    · simp only [Function.update_of_ne hmap] at h
      exact .inl h
  · exact .inl h

theorem route_insertLink (map : PhysicalLinkMap) (c : SocketId) :
    (n.insertLink map fd c).route = n.route := by
  rw [insertLink_eq]
  rfl

theorem connect_opens (hfree : n.socketMap fd = none) :
    Opens n (n.connect fd) fd (.imconnCallback .server) := by
  obtain ⟨hopens, hlink⟩ := newSocket_opens
    { socket := fd, state := .connecting, callback := .imconnCallback .server } hfree
  simp only [connect]
  refine ⟨?_, ?_, ?_, ?_⟩
  · rw [insertLink_eq]
    exact hopens.next
  · rw [insertLink_eq]
    exact hopens.socketMap
  · rw [insertLink_eq]
    exact hopens.route
  · intro map fd' c hc
    rcases insertLink_linkMap hc with hc | ⟨rfl, rfl, rfl⟩
    · exact hopens.link map fd' c hc
    · exact .inr ⟨rfl, rfl, rfl⟩

theorem netlibOption_eq (h : n.socketMap fd = some k) (callback : Callback) :
    n.netlibOption fd callback = n.modify k fun s => { s with callback } := by
  rw [netlibOption, findBaseSocket_of_some h]
  simp only [releaseRef, addRef, modify, Function.update_self, Function.update_idem,
    Int.add_sub_cancel]

theorem route_setCallback (h : (n.route k).1 = fd) (callback : Callback) :
    (n.modify k fun s => { s with callback }).route = Function.update n.route k (fd, callback) := by
  rw [route_modify]
  exact congrArg (fun fd => Function.update n.route k (fd, callback)) h

theorem Opens.onConnect (h : Opens n n' fd .clientLinkListener) (hlink : n'.linkMap = n.linkMap) :
    Opens n (n'.onConnect fd n.next) fd (.imconnCallback .client) := by
  have hfound : n'.socketMap fd = some n.next := by
    rw [h.socketMap, Function.update_self]
  simp only [Netlib.onConnect]
  rw [netlibOption_eq (k := n.next)]
  · refine ⟨?_, ?_, ?_, ?_⟩
    · rw [insertLink_eq]
      exact h.next
    · rw [insertLink_eq]
      exact h.socketMap
    · have hroute (links : SocketId → Option PhysicalLink) :
          { n' with links }.route = Function.update n.route n.next (fd, .clientLinkListener) :=
        h.route
      have hfd (links : SocketId → Option PhysicalLink) :
          (({ n' with links }.insertLink .client fd n.next).route n.next).1 = fd := by
        rw [route_insertLink, hroute, Function.update_self]
      rw [route_setCallback (hfd _), route_insertLink, hroute, Function.update_idem]
    · intro map fd' c hc
      rcases insertLink_linkMap hc with hc | ⟨rfl, rfl, rfl⟩
      · rw [← hlink]
        exact .inl hc
      · exact .inr ⟨rfl, rfl, rfl⟩
  · rw [insertLink_eq]
    exact hfound

theorem acceptNewSocket_opens (hfree : n.socketMap fd = none) (listener : SocketId) :
    Opens n (n.acceptNewSocket listener fd) fd (n.acceptedCallback listener) := by
  obtain ⟨hopens, hlink⟩ := newSocket_opens
    { socket := fd, state := .connected, callback := (n.sockets listener).callback } hfree
  unfold acceptNewSocket acceptedCallback
  cases hcallback : (n.sockets listener).callback with
  | clientLinkListener =>
    rw [hcallback] at hopens hlink
    exact hopens.onConnect hlink
  | imconnCallback map =>
    rw [hcallback] at hopens
    exact hopens

/-- The socket map finds sockets under their descriptors, and connections are found only
while their sockets are open, in the map that their sockets use. -/
structure Registered (n : Netlib) : Prop where
  socket : ∀ fd k, n.socketMap fd = some k → (n.route k).1 = fd ∧ k < n.next
  link : ∀ map fd c, n.linkMap map fd = some c →
    n.socketMap fd = some c ∧ n.route c = (fd, .imconnCallback map)

theorem Registered.eq_of_route (h : n.Registered) {fd' : Fd} {k' : SocketId}
    (hk : n.socketMap fd = some k) (hk' : n.socketMap fd' = some k')
    (hroute : n.route k' = n.route k) : k' = k := by
  have hfd : fd' = fd := by rw [← (h.socket _ _ hk).1, ← (h.socket _ _ hk').1, hroute]
  rw [hfd, hk] at hk'
  exact (Option.some.inj hk').symm

theorem Registered.keeps (h : n.Registered) (hkeeps : Keeps n n') : n'.Registered := by
  constructor
  · rw [hkeeps.socketMap, hkeeps.route, hkeeps.next]
    exact h.socket
  · rw [hkeeps.linkMap, hkeeps.socketMap, hkeeps.route]
    exact h.link

theorem Registered.opens (h : n.Registered) (hfree : n.socketMap fd = none)
    (hopens : Opens n n' fd callback) : n'.Registered := by
  constructor
  · intro fd' k hk
    rw [hopens.socketMap] at hk
    rw [hopens.route, hopens.next]
    rcases Index.update_some_eq_some.mp hk with ⟨hfd, hnew⟩ | ⟨-, hk⟩
    · subst hnew
      rw [Function.update_self]
      exact ⟨hfd.symm, Nat.lt_succ_self _⟩
    · obtain ⟨hroute, hlt⟩ := h.socket fd' k hk
      rw [Function.update_of_ne (Nat.ne_of_lt hlt)]
      exact ⟨hroute, Nat.lt_succ_of_lt hlt⟩
  · intro map fd' c hc
    rw [hopens.socketMap, hopens.route]
    rcases hopens.link map fd' c hc with hc | ⟨rfl, rfl, rfl⟩
    · obtain ⟨hsocket, hroute⟩ := h.link map fd' c hc
      have hne : fd' ≠ fd := by
        rintro rfl
        rw [hfree] at hsocket
        cases hsocket
      rw [Function.update_of_ne hne, Function.update_of_ne (Nat.ne_of_lt (h.socket _ _ hsocket).2)]
      exact ⟨hsocket, hroute⟩
    · rw [Function.update_self, Function.update_self]
      exact ⟨rfl, rfl⟩

theorem Registered.linkMap_of_free (h : n.Registered) (hfree : n.socketMap fd = none)
    (map : PhysicalLinkMap) : n.linkMap map fd = none := by
  refine Option.eq_none_iff_forall_ne_some.mpr fun c hc => ?_
  have hsocket := (h.link map fd c hc).1
  rw [hfree] at hsocket
  cases hsocket

theorem Registered.connect_linkMap (h : n.Registered) (hfree : n.socketMap fd = none) :
    (n.connect fd).linkMap .server =
      Function.update (n.linkMap .server) fd (some n.next) := by
  obtain ⟨-, hlink⟩ := newSocket_opens
    { socket := fd, state := .connecting, callback := .imconnCallback .server } hfree
  simp only [connect, insertLink, hlink, h.linkMap_of_free hfree .server, if_true,
    Function.update_self]

theorem Registered.closes (h : n.Registered) (hcloses : Closes n n' fd) : n'.Registered := by
  constructor
  · intro fd' k hk
    rw [hcloses.socketMap] at hk
    rw [hcloses.route, hcloses.next]
    exact h.socket fd' k (Index.update_none_eq_some.mp hk).2
  · intro map fd' c hc
    obtain ⟨hne, hc⟩ := hcloses.link map fd' c hc
    rw [hcloses.socketMap, hcloses.route, Function.update_of_ne hne]
    exact h.link map fd' c hc

theorem netlibClose_eq (h : n.socketMap fd = some k) :
    n.netlibClose fd = (n.removeBaseSocket k).releaseRef k := by
  rw [netlibClose, findBaseSocket_of_some h]
  simp only [close, removeBaseSocket, releaseRef, addRef, modify, Function.update_self,
    Function.update_idem, Int.add_sub_cancel]

/-- `netlib_close` empties the entry of the descriptor in the socket map only. -/
theorem Registered.netlibClose (h : n.Registered) (fd : Fd) :
    (n.netlibClose fd).next = n.next ∧
      (n.netlibClose fd).socketMap = Function.update n.socketMap fd none ∧
      (n.netlibClose fd).route = n.route ∧ (n.netlibClose fd).linkMap = n.linkMap := by
  cases hk : n.socketMap fd with
  | none =>
    rw [Netlib.netlibClose, findBaseSocket_of_none hk]
    exact ⟨rfl, (Function.update_eq_self_iff.mpr hk.symm).symm, rfl, rfl⟩
  | some k =>
    have hfd : (n.sockets k).socket = fd := (h.socket fd k hk).1
    rw [netlibClose_eq hk, ← hfd]
    have hkeeps : Keeps (n.removeBaseSocket k) ((n.removeBaseSocket k).releaseRef k) :=
      keeps_releaseRef
    exact ⟨rfl, hkeeps.socketMap, hkeeps.route, rfl⟩

theorem Registered.closeLink_linkMap (h : n.Registered) (link : PhysicalLink) :
    (n.closeLink link).linkMap link.map =
      Function.update (n.linkMap link.map) link.handle none := by
  simp only [Netlib.closeLink, eraseLink, (h.netlibClose link.handle).2.2.2, Function.update_self]

/-- A link that is closed takes its descriptor along, if the number does not belong to a
connection of the other map by then. -/
theorem Registered.closeLink (h : n.Registered) {link : PhysicalLink}
    (hmap : ∀ k ∈ n.socketMap link.handle, (n.sockets k).callback = .imconnCallback link.map) :
    Closes n (n.closeLink link) link.handle := by
  obtain ⟨hnext, hsocketMap, hroute, hlinkMap⟩ := h.netlibClose link.handle
  refine ⟨hnext, hsocketMap, hroute, ?_⟩
  intro map fd' c hc
  simp only [Netlib.closeLink, eraseLink, hlinkMap] at hc
  by_cases heq : map = link.map
  · subst heq
    rw [Function.update_self] at hc
    exact Index.update_none_eq_some.mp hc
  · rw [Function.update_of_ne heq] at hc
    refine ⟨?_, hc⟩
    rintro rfl
    obtain ⟨hsocket, hcroute⟩ := h.link map _ c hc
    have hcallback : (n.route c).2 = .imconnCallback link.map := hmap c hsocket
    rw [hcroute] at hcallback
    exact heq (Callback.imconnCallback.inj hcallback)

end Effects

end Netlib

end ImServer
