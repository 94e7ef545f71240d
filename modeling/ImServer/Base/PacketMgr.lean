import Mathlib.Data.List.Basic
import Mathlib.Data.List.Infix
import Mathlib.Data.List.Range
import Mathlib.Logic.Function.Basic

/-!
# Packets and their threads

`CPacketMgr` (base/packetmgr.cpp) knows for each command and each instance of the service a packet
object and a handler. A PDU that is dispatched goes to the queue of the packet object of an instance
that is chosen at random. The thread of the packet object (base/packet.cpp) takes the PDUs from its
queue one after another; for the handler an instance is chosen once more. After 1001 PDUs, or when
the queue is empty, it pauses.

Each packet object handles its PDUs in the order in which they were dispatched, and loses none. Two
packet objects do not wait for each other.
-/

namespace ImServer

/-- The packet objects `π` and handlers `η` by command and instance. The key is the text of both
numbers with a colon between. -/
structure CPacketMgr (π η : Type) where
  packetExecutor : List ((UInt16 × Nat) × (π × η)) := []
  nActualServiceInst : Nat

namespace CPacketMgr

variable {π η : Type} (m : CPacketMgr π η)

/-- `PacketRegist`. The first registration stays. -/
def packetRegist (nCmd : UInt16) (nInstId : Nat) (packet : π) (proc : η) : CPacketMgr π η :=
  match m.packetExecutor.lookup (nCmd, nInstId) with
  | none => { m with packetExecutor := ((nCmd, nInstId), (packet, proc)) :: m.packetExecutor }
  | some _ => m

/-- `GetPacketExecutor`, with what `rand()` returns. -/
def getPacketExecutor (nCmd : UInt16) (rand : Nat) : Option (π × η) :=
  if m.nActualServiceInst = 0 then none
  else m.packetExecutor.lookup (nCmd, rand % m.nActualServiceInst)

/-- The command is registered for an instance. -/
def Registered (nCmd : UInt16) : Prop :=
  ∃ nInstId < m.nActualServiceInst, m.packetExecutor.lookup (nCmd, nInstId) ≠ none

/-- A command that is registered for an instance is registered for each. -/
def Full : Prop :=
  ∀ nCmd, m.Registered nCmd →
    ∀ nInstId < m.nActualServiceInst, m.packetExecutor.lookup (nCmd, nInstId) ≠ none

/-- A handler of the command, which one of the instances that were started has registered. -/
def Handles (nCmd : UInt16) (proc : η) : Prop :=
  ∃ nInstId < m.nActualServiceInst, ∃ packet,
    m.packetExecutor.lookup (nCmd, nInstId) = some (packet, proc)

variable {m}

theorem getPacketExecutor_eq_some {nCmd : UInt16} {rand : Nat} {packet : π} {proc : η}
    (h : m.getPacketExecutor nCmd rand = some (packet, proc)) :
    m.Registered nCmd ∧ m.Handles nCmd proc := by
  obtain ⟨hpos, hlookup⟩ := Option.ite_none_left_eq_some.mp h
  have hlt := Nat.mod_lt rand (Nat.pos_of_ne_zero hpos)
  exact ⟨⟨_, hlt, by simp [hlookup]⟩, ⟨_, hlt, packet, hlookup⟩⟩

theorem Full.exists_executor (h : m.Full) {nCmd : UInt16} (hcmd : m.Registered nCmd) (rand : Nat) :
    ∃ packet proc, m.getPacketExecutor nCmd rand = some (packet, proc) := by
  obtain ⟨nInstId, hinst, -⟩ := id hcmd
  have hpos : m.nActualServiceInst ≠ 0 := Nat.ne_zero_of_lt hinst
  have hsome := h nCmd hcmd _ (Nat.mod_lt rand (Nat.pos_of_ne_zero hpos))
  obtain ⟨⟨packet, proc⟩, hlookup⟩ := Option.ne_none_iff_exists'.mp hsome
  exact ⟨packet, proc, (if_neg hpos).trans hlookup⟩

end CPacketMgr

/-- A PDU with the connection `lam` it came on. -/
structure LinkPdu (lam : Type) where
  link : lam
  commandId : UInt16
  deriving DecidableEq, Repr

/-- A PDU in a queue, with its number among those that were dispatched. -/
structure QueuedPdu (lam : Type) where
  index : Nat
  pdu : LinkPdu lam
  deriving DecidableEq, Repr

/-- Where the thread of a packet object is: in front of its loop after `i` PDUs without a pause, with
a PDU that it has taken, or in a pause. -/
inductive PacketThread (lam : Type) where
  | loop (i : Nat)
  | procPdu (i : Nat) (item : QueuedPdu lam)
  | pause
  deriving DecidableEq, Repr

/-- The handler `proc` has been called on a packet object. -/
structure HandlerStart (π η : Type) where
  index : Nat
  packet : π
  proc : η
  deriving DecidableEq, Repr

structure Packets (π η lam : Type) where
  queuePdu : π → List (QueuedPdu lam) := fun _ => []
  thread : π → PacketThread lam := fun _ => .loop 0
  -- what has happened so far
  dispatched : List (LinkPdu lam × π) := []
  refused : List (LinkPdu lam) := []
  started : List (HandlerStart π η) := []

namespace Packets

variable {π η lam : Type}

inductive Event (π lam : Type) where
  | dispatchPacket (pdu : LinkPdu lam) (rand : Nat)
  | run (packet : π) (rand : Nat)
  deriving DecidableEq, Repr

def packetProcessUnit : Nat := 1000

section Steps

variable [DecidableEq π] (m : CPacketMgr π η) (s : Packets π η lam)

def dispatchPacket (pdu : LinkPdu lam) (rand : Nat) : Packets π η lam :=
  match m.getPacketExecutor pdu.commandId rand with
  | none => { s with refused := s.refused ++ [pdu] }
  | some (packet, _) =>
    { s with
      queuePdu := Function.update s.queuePdu packet
        (s.queuePdu packet ++ [⟨s.dispatched.length, pdu⟩])
      dispatched := s.dispatched ++ [(pdu, packet)] }

def setThread (packet : π) (thread : PacketThread lam) : Packets π η lam :=
  { s with thread := Function.update s.thread packet thread }

/-- A step of `OnThreadRun`: it looks at its queue, calls `ProcPdu`, or wakes up. -/
def onThreadRun (packet : π) (rand : Nat) : Packets π η lam :=
  match s.thread packet with
  | .loop i =>
    match s.queuePdu packet with
    | [] => s.setThread packet .pause
    | item :: rest =>
      if i ≤ packetProcessUnit then
        { s with queuePdu := Function.update s.queuePdu packet rest }.setThread packet
          (.procPdu i item)
      else s.setThread packet .pause
  | .pause => s.setThread packet (.loop 0)
  | .procPdu i item =>
    match m.getPacketExecutor item.pdu.commandId rand with
    | none => s.setThread packet (.loop (i + 1))
    | some (_, proc) =>
      let start : HandlerStart π η := { index := item.index, packet, proc }
      { s with started := s.started ++ [start] }.setThread packet (.loop (i + 1))

def step : Event π lam → Packets π η lam
  | .dispatchPacket pdu rand => s.dispatchPacket m pdu rand
  | .run packet rand => s.onThreadRun m packet rand

/-- The PDUs whose handlers have started, in their order. -/
def startedIndices : List Nat := s.started.map HandlerStart.index

/-- A step of the thread of a packet object. -/
def Event.isRun (packet : π) : Event π lam → Bool
  | .run packet' _ => packet' = packet
  | .dispatchPacket .. => false

/-- The steps of a thread in a run. -/
def stepsOf (packet : π) (events : List (Event π lam)) : Nat := events.countP (Event.isRun packet)

/-- Each PDU with a registered command is handled once, by a handler of its command, as soon as the
thread of its packet object has made enough steps, and the PDUs of a packet object are handled in the
order in which they were dispatched. -/
structure Delivered : Prop where
  refused : ∀ pdu ∈ s.refused, ¬ m.Registered pdu.commandId
  own : ∀ start ∈ s.started, ∃ pdu, s.dispatched[start.index]? = some (pdu, start.packet) ∧
    m.Handles pdu.commandId start.proc
  once : s.startedIndices.Nodup
  handled : ∀ k pdu packet, s.dispatched[k]? = some (pdu, packet) → ∀ events,
    4 * (k + 1) ≤ stepsOf packet events → k ∈ (events.foldl (step m) s).startedIndices
  order : ∀ k k' pdu pdu' packet, k < k' → s.dispatched[k]? = some (pdu, packet) →
    s.dispatched[k']? = some (pdu', packet) → k' ∈ s.startedIndices →
      [k, k'].Sublist s.startedIndices

end Steps

section Line

variable [DecidableEq π] (s : Packets π η lam) (packet : π)

/-- The PDUs that were dispatched to the packet object. -/
def dispatchedAt : List Nat :=
  (s.dispatched.zipIdx.filter fun entry => entry.1.2 = packet).map Prod.snd

def startedAt : List Nat :=
  (s.started.filter fun start => start.packet = packet).map HandlerStart.index

/-- What the thread has taken. -/
def taken : List (QueuedPdu lam) :=
  match s.thread packet with
  | .procPdu _ item => [item]
  | .loop _ | .pause => []

/-- The PDUs that wait, in the order in which they are handled. -/
def waiting : List (QueuedPdu lam) := s.taken packet ++ s.queuePdu packet

def waitingAt : List Nat := (s.waiting packet).map QueuedPdu.index

/-- The PDUs of a packet object are those that were handled and then those that wait. -/
structure Inv (m : CPacketMgr π η) (s : Packets π η lam) : Prop where
  line : ∀ packet, s.startedAt packet ++ s.waitingAt packet = s.dispatchedAt packet
  items : ∀ packet, ∀ item ∈ s.waiting packet, s.dispatched[item.index]? = some (item.pdu, packet)
  own : ∀ start ∈ s.started, ∃ pdu, s.dispatched[start.index]? = some (pdu, start.packet) ∧
    m.Handles pdu.commandId start.proc
  once : s.startedIndices.Nodup
  registered : ∀ entry ∈ s.dispatched, m.Registered entry.1.commandId
  refused : ∀ pdu ∈ s.refused, ¬ m.Registered pdu.commandId

variable {s packet}

theorem mem_dispatchedAt {k : Nat} :
    k ∈ s.dispatchedAt packet ↔ ∃ pdu, s.dispatched[k]? = some (pdu, packet) := by
  simp only [dispatchedAt, List.mem_map, List.mem_filter, decide_eq_true_eq]
  constructor
  · rintro ⟨⟨⟨pdu, packet'⟩, k'⟩, ⟨hmem, rfl⟩, rfl⟩
    exact ⟨pdu, List.mem_zipIdx_iff_getElem?.mp hmem⟩
  · rintro ⟨pdu, hk⟩
    exact ⟨((pdu, packet), k), ⟨List.mem_zipIdx_iff_getElem?.mpr hk, rfl⟩, rfl⟩

theorem pairwise_dispatchedAt (s : Packets π η lam) (packet : π) :
    (s.dispatchedAt packet).Pairwise (· < ·) := by
  have hsub : (s.dispatchedAt packet).Sublist (s.dispatched.zipIdx.map Prod.snd) :=
    List.filter_sublist.map _
  rw [List.zipIdx_map_snd] at hsub
  exact List.Pairwise.sublist hsub List.pairwise_lt_range'

theorem Inv.start {m : CPacketMgr π η} : Inv m ({} : Packets π η lam) where
  line _ := rfl
  items _ := List.forall_mem_nil _
  own := List.forall_mem_nil _
  once := List.nodup_nil
  registered := List.forall_mem_nil _
  refused := List.forall_mem_nil _

variable {m : CPacketMgr π η} {s' : Packets π η lam}

theorem Inv.congr (h : Inv m s) (hwaiting : ∀ packet, s'.waiting packet = s.waiting packet)
    (hdispatched : s'.dispatched = s.dispatched) (hstarted : s'.started = s.started)
    (hrefused : s'.refused = s.refused) : Inv m s' where
  line packet := by
    rw [startedAt, waitingAt, dispatchedAt, hwaiting, hdispatched, hstarted]
    exact h.line packet
  items packet := by
    rw [hwaiting, hdispatched]
    exact h.items packet
  own := by
    rw [hstarted, hdispatched]
    exact h.own
  once := by
    rw [startedIndices, hstarted]
    exact h.once
  registered := by
    rw [hdispatched]
    exact h.registered
  refused := by
    rw [hrefused]
    exact h.refused

theorem dispatchedAt_append (pdu : LinkPdu lam) (packet packet' : π) :
    dispatchedAt { s with dispatched := s.dispatched ++ [(pdu, packet')] } packet =
      s.dispatchedAt packet ++ if packet' = packet then [s.dispatched.length] else [] := by
  simp only [dispatchedAt, List.zipIdx_append, List.filter_append, List.map_append]
  by_cases hpacket : packet' = packet
  · simp [hpacket]
  · simp [hpacket]

theorem waiting_append (item : QueuedPdu lam) (packet packet' : π)
    (dispatched : List (LinkPdu lam × π)) :
    waiting { s with
      queuePdu := Function.update s.queuePdu packet' (s.queuePdu packet' ++ [item])
      dispatched } packet = s.waiting packet ++ if packet' = packet then [item] else [] := by
  by_cases hpacket : packet = packet'
  · simp [waiting, taken, hpacket]
  · simp [waiting, taken, Function.update_of_ne hpacket, Ne.symm hpacket]

theorem Inv.dispatchPacket (h : Inv m s) (hfull : m.Full) (pdu : LinkPdu lam) (rand : Nat) :
    Inv m (s.dispatchPacket m pdu rand) := by
  rw [Packets.dispatchPacket]
  split
  · next hnone =>
    refine { h with refused := fun pdu' hmem hregistered => ?_ }
    obtain hold | rfl := List.mem_append.mp hmem |>.imp_right List.mem_singleton.mp
    · exact h.refused pdu' hold hregistered
    · obtain ⟨packet, proc, hsome⟩ := hfull.exists_executor hregistered rand
      cases hnone.symm.trans hsome
  · next packet proc hsome =>
    have hkept : ∀ k entry, s.dispatched[k]? = some entry →
        (s.dispatched ++ [(pdu, packet)])[k]? = some entry := fun k entry hk =>
      (List.getElem?_append_left (List.getElem?_eq_some_iff.mp hk).1).trans hk
    refine {
      line := fun packet' => ?_
      items := fun packet' item hmem => ?_
      own := fun start hmem => ?_
      once := h.once
      registered := fun entry hmem => ?_
      refused := h.refused }
    · refine Eq.trans ?_ (dispatchedAt_append pdu packet' packet).symm
      rw [← h.line packet', waitingAt, waitingAt, waiting_append, List.map_append,
        ← List.append_assoc]
      split <;> rfl
    · rw [waiting_append] at hmem
      obtain hold | hnew := List.mem_append.mp hmem
      · exact hkept _ _ (h.items packet' item hold)
      · split at hnew
        · next hpacket =>
          cases List.mem_singleton.mp hnew
          rw [← hpacket]
          exact List.getElem?_concat_length
        · cases hnew
    · obtain ⟨pdu', hk, hhandles⟩ := h.own start hmem
      exact ⟨pdu', hkept _ _ hk, hhandles⟩
    · obtain hold | rfl := List.mem_append.mp hmem |>.imp_right List.mem_singleton.mp
      · exact h.registered entry hold
      · exact (CPacketMgr.getPacketExecutor_eq_some hsome).1

theorem Inv.idle (h : Inv m s) (htaken : s.taken packet = []) {thread : PacketThread lam}
    (hthread : taken (s.setThread packet thread) packet = []) : Inv m (s.setThread packet thread) := by
  refine h.congr (fun packet' => ?_) rfl rfl rfl
  by_cases hpacket : packet' = packet
  · subst hpacket
    rw [waiting, waiting, htaken, hthread]
    rfl
  · simp [waiting, taken, setThread, Function.update_of_ne hpacket]

theorem Inv.procPdu (h : Inv m s) {i : Nat} {item : QueuedPdu lam} (start : HandlerStart π η)
    (hthread : s.thread start.packet = .procPdu i item) (hindex : start.index = item.index)
    (hproc : m.Handles item.pdu.commandId start.proc) :
    Inv m ({ s with started := s.started ++ [start] }.setThread start.packet (.loop (i + 1))) := by
  have hwaiting : s.waiting start.packet = item :: s.queuePdu start.packet := by
    rw [waiting, taken, hthread]
    rfl
  have hitem := h.items start.packet item (hwaiting ▸ List.mem_cons_self)
  have hothers : ∀ packet, packet ≠ start.packet →
      waiting ({ s with started := s.started ++ [start] }.setThread start.packet (.loop (i + 1)))
        packet = s.waiting packet := fun packet hpacket => by
    simp [waiting, taken, setThread, Function.update_of_ne hpacket]
  have hself : waiting ({ s with started := s.started ++ [start] }.setThread start.packet
      (.loop (i + 1))) start.packet = s.queuePdu start.packet := by
    simp [waiting, taken, setThread]
  have hline := h.line start.packet
  rw [waitingAt, hwaiting, List.map_cons] at hline
  refine { h with
    line := fun packet => ?_
    items := fun packet item' hmem => ?_
    own := fun start' hmem => ?_
    once := ?_ }
  · refine Eq.trans ?_ (h.line packet)
    by_cases hpacket : packet = start.packet
    · subst hpacket
      rw [waitingAt, hself, waitingAt, hwaiting, startedAt, startedAt]
      simp [setThread, hindex]
    · rw [waitingAt, hothers packet hpacket, waitingAt, startedAt, startedAt]
      simp [setThread, Ne.symm hpacket]
  · by_cases hpacket : packet = start.packet
    · subst hpacket
      rw [hself] at hmem
      exact h.items start.packet item' (hwaiting ▸ List.mem_cons_of_mem _ hmem)
    · rw [hothers packet hpacket] at hmem
      exact h.items packet item' hmem
  · obtain hold | hnew := List.mem_append.mp hmem
    · exact h.own start' hold
    · cases List.mem_singleton.mp hnew
      exact ⟨item.pdu, hindex ▸ hitem, hproc⟩
  · -- what was handled before was at this packet object, or is the number of another PDU
    have hnew : start.index ∉ s.startedIndices := by
      intro hmem
      obtain ⟨start', hstart', hsame⟩ := List.mem_map.mp hmem
      obtain ⟨pdu, hdispatched, -⟩ := h.own start' hstart'
      rw [hsame, hindex, hitem] at hdispatched
      have hpacket : start'.packet = start.packet :=
        (Prod.mk.inj (Option.some.inj hdispatched)).2.symm
      have hearlier : item.index ∈ s.startedAt start.packet :=
        List.mem_map.mpr ⟨start', List.mem_filter.mpr ⟨hstart', by simpa using hpacket⟩,
          hsame.trans hindex⟩
      have hlt := pairwise_dispatchedAt s start.packet
      rw [← hline] at hlt
      exact absurd ((List.pairwise_append.mp hlt).2.2 _ hearlier _ List.mem_cons_self)
        (Nat.lt_irrefl _)
    rw [startedIndices, setThread, List.map_append]
    exact List.nodup_append.mpr ⟨h.once, List.pairwise_singleton .., fun k hk k' hk' heq =>
      hnew (by rwa [← List.mem_singleton.mp hk', ← heq])⟩

theorem Inv.take (h : Inv m s) {i : Nat} {item : QueuedPdu lam} {rest : List (QueuedPdu lam)}
    (htaken : s.taken packet = []) (hqueue : s.queuePdu packet = item :: rest) :
    Inv m ({ s with queuePdu := Function.update s.queuePdu packet rest }.setThread packet
      (.procPdu i item)) := by
  refine h.congr (fun packet' => ?_) rfl rfl rfl
  by_cases hpacket : packet' = packet
  · subst hpacket
    rw [waiting, waiting, htaken, hqueue]
    simp [taken, setThread]
  · simp [waiting, taken, setThread, Function.update_of_ne hpacket]

theorem taken_loop (i : Nat) : taken (s.setThread packet (.loop i)) packet = [] := by
  simp [taken, setThread]

theorem taken_pause : taken (s.setThread packet .pause) packet = [] := by
  simp [taken, setThread]

theorem Inv.onThreadRun (h : Inv m s) (hfull : m.Full) (packet : π) (rand : Nat) :
    Inv m (s.onThreadRun m packet rand) := by
  rw [Packets.onThreadRun]
  split
  · next i hthread =>
    have htaken : s.taken packet = [] := by rw [taken, hthread]
    split
    · exact h.idle htaken taken_pause
    · next item rest hqueue =>
      split
      · exact h.take htaken hqueue
      · exact h.idle htaken taken_pause
  · next hthread => exact h.idle (by rw [taken, hthread]) (taken_loop 0)
  · next i item hthread =>
    split
    · next hnone =>
      have hmem : item ∈ s.waiting packet := by
        rw [waiting, taken, hthread]
        exact List.mem_cons_self
      have hregistered := h.registered _ (List.mem_of_getElem? (h.items packet item hmem))
      obtain ⟨packet', proc, hsome⟩ := hfull.exists_executor hregistered rand
      cases hnone.symm.trans hsome
    · next packet' proc hsome =>
      exact h.procPdu ⟨item.index, packet, proc⟩ hthread rfl
        (CPacketMgr.getPacketExecutor_eq_some hsome).2

theorem Inv.step (h : Inv m s) (hfull : m.Full) (e : Event π lam) : Inv m (s.step m e) := by
  cases e with
  | dispatchPacket pdu rand => exact h.dispatchPacket hfull pdu rand
  | run packet rand => exact h.onThreadRun hfull packet rand

theorem Inv.foldl (h : Inv m s) (hfull : m.Full) (events : List (Event π lam)) :
    Inv m (events.foldl (Packets.step m) s) := by
  induction events generalizing s with
  | nil => exact h
  | cons e events ih => exact ih (h.step hfull e)

/-- Of two PDUs of a packet object the handler of the first starts first. -/
theorem Inv.order (h : Inv m s) {k k' : Nat} {pdu pdu' : LinkPdu lam} (hlt : k < k')
    (hk : s.dispatched[k]? = some (pdu, packet)) (hk' : s.dispatched[k']? = some (pdu', packet))
    (hstarted : k' ∈ s.startedIndices) : [k, k'].Sublist s.startedIndices := by
  have hsub : (s.startedAt packet).Sublist s.startedIndices := List.filter_sublist.map _
  have hline := h.line packet
  have hpairwise := pairwise_dispatchedAt s packet
  have hmem' : k' ∈ s.startedAt packet := by
    obtain ⟨start, hstart, rfl⟩ := List.mem_map.mp hstarted
    obtain ⟨pdu'', hdispatched, -⟩ := h.own start hstart
    rw [hk'] at hdispatched
    have hpacket := (Prod.mk.inj (Option.some.inj hdispatched)).2
    exact List.mem_map.mpr ⟨start, List.mem_filter.mpr ⟨hstart, by simpa using hpacket.symm⟩, rfl⟩
  rw [← hline] at hpairwise
  obtain ⟨hstartedAt, -, hbefore⟩ := List.pairwise_append.mp hpairwise
  have hmem : k ∈ s.startedAt packet := by
    have hall : k ∈ s.startedAt packet ++ s.waitingAt packet :=
      hline ▸ mem_dispatchedAt.mpr ⟨pdu, hk⟩
    obtain hmem | hwaiting := List.mem_append.mp hall
    · exact hmem
    · exact absurd (hbefore k' hmem' k hwaiting) (Nat.lt_asymm hlt)
  refine List.Sublist.trans ?_ hsub
  obtain ⟨before, after, hsplit⟩ := List.append_of_mem hmem
  rw [hsplit] at hmem' hstartedAt ⊢
  have hafter : k' ∈ after := by
    obtain hmem' | hmem' := List.mem_append.mp hmem'
    · exact absurd ((List.pairwise_append.mp hstartedAt).2.2 k' hmem' k List.mem_cons_self)
        (Nat.lt_asymm hlt)
    · obtain heq | hmem' := List.mem_cons.mp hmem'
      · exact absurd heq.symm (Nat.ne_of_lt hlt)
      · exact hmem'
  exact (List.cons_sublist_cons.mpr (List.singleton_sublist.mpr hafter)).trans
    (List.sublist_append_right ..)

end Line

/-- A bound on the steps that the thread makes before it calls the handler of the PDU `k`. -/
def rank (s : Packets π η lam) (packet : π) (k : Nat) : Nat :=
  let before := ((s.queuePdu packet).map QueuedPdu.index).idxOf k
  match s.thread packet with
  | .loop i => if i ≤ packetProcessUnit then 4 * before + 2 else 4 * before + 4
  | .pause => 4 * before + 3
  | .procPdu _ item => if item.index = k then 1 else 4 * before + 5

theorem rank_pos (s : Packets π η lam) (packet : π) (k : Nat) : 0 < s.rank packet k := by
  rw [rank]
  split
  · split <;> exact Nat.succ_pos _
  · exact Nat.succ_pos _
  · split <;> exact Nat.succ_pos _

section Rank

variable {s s' : Packets π η lam} {packet : π}

theorem rank_congr (hthread : s'.thread packet = s.thread packet)
    (hqueue : s'.queuePdu packet = s.queuePdu packet) (k : Nat) :
    s'.rank packet k = s.rank packet k := by
  rw [rank, rank, hthread, hqueue]

theorem rank_append {item : QueuedPdu lam} (hthread : s'.thread packet = s.thread packet)
    (hqueue : s'.queuePdu packet = s.queuePdu packet ++ [item]) {k : Nat}
    (hk : k ∈ s.waitingAt packet) : s'.rank packet k = s.rank packet k := by
  have hbefore : k ∈ (s.queuePdu packet).map QueuedPdu.index →
      ((s'.queuePdu packet).map QueuedPdu.index).idxOf k =
        ((s.queuePdu packet).map QueuedPdu.index).idxOf k := fun hmem => by
    rw [hqueue, List.map_append, List.idxOf_append_of_mem hmem]
  rw [waitingAt, waiting, taken] at hk
  rw [rank, rank, hthread]
  split at hk
  · next i item' hprocPdu =>
    rw [hprocPdu]
    by_cases hitem : item'.index = k
    · simp [hitem]
    · rw [hbefore (by simpa [Ne.symm hitem] using hk)]
  · rw [hbefore hk]
  · rw [hbefore hk]

/-- In an increasing list as many numbers stand in front of a number as there is room for. -/
theorem idxOf_add_le {l : List Nat} (hl : l.Pairwise (· < ·)) {a k : Nat} (ha : ∀ n ∈ l, a ≤ n)
    (hk : k ∈ l) : l.idxOf k + a ≤ k := by
  induction l generalizing a with
  | nil => cases hk
  | cons n l ih =>
    obtain ⟨hn, hl⟩ := List.pairwise_cons.mp hl
    have han := ha n List.mem_cons_self
    obtain rfl | hmem := List.mem_cons.mp hk
    · rw [List.idxOf_cons_self, Nat.zero_add]
      exact han
    · have hlater := ih hl (fun n' hn' => Nat.le_trans (Nat.succ_le_succ han) (hn n' hn')) hmem
      rw [List.idxOf_cons_ne _ (Nat.ne_of_lt (hn k hmem))]
      omega

end Rank

section Progress

variable [DecidableEq π] {m : CPacketMgr π η} {s : Packets π η lam} {packet : π}

/-- The PDU has been handled, or it waits and the thread has less to do than before. -/
theorem Inv.rank_lt (h : Inv m s) (hfull : m.Full) {k : Nat} (hk : k ∈ s.waitingAt packet)
    (rand : Nat) : k ∈ (s.onThreadRun m packet rand).startedIndices ∨
      k ∈ (s.onThreadRun m packet rand).waitingAt packet ∧
        (s.onThreadRun m packet rand).rank packet k < s.rank packet k := by
  rw [waitingAt, waiting] at hk
  cases hthread : s.thread packet with
  | loop i =>
    rw [taken, hthread, List.nil_append] at hk
    cases hqueue : s.queuePdu packet with
    | nil =>
      rw [hqueue] at hk
      cases hk
    | cons item rest =>
      right
      by_cases hi : i ≤ packetProcessUnit
      · have htake : s.onThreadRun m packet rand =
            { s with queuePdu := Function.update s.queuePdu packet rest }.setThread packet
              (.procPdu i item) := by
          simp [Packets.onThreadRun, hthread, hqueue, hi]
        rw [hqueue] at hk
        refine ⟨?_, ?_⟩
        · simpa [htake, waitingAt, waiting, taken, setThread] using hk
        · by_cases hitem : item.index = k
          · simp [htake, rank, setThread, hthread, hqueue, hi, hitem]
          · simp [htake, rank, setThread, hthread, hqueue, hi, hitem, List.idxOf_cons_ne]
            omega
      · have hpause : s.onThreadRun m packet rand = s.setThread packet .pause := by
          simp [Packets.onThreadRun, hthread, hqueue, hi]
        refine ⟨?_, ?_⟩
        · simpa [hpause, waitingAt, waiting, taken, setThread] using hk
        · simp [hpause, rank, setThread, hthread, hi]
  | pause =>
    right
    have hloop : s.onThreadRun m packet rand = s.setThread packet (.loop 0) := by
      simp [Packets.onThreadRun, hthread]
    rw [taken, hthread, List.nil_append] at hk
    refine ⟨?_, ?_⟩
    · simpa [hloop, waitingAt, waiting, taken, setThread] using hk
    · simp [hloop, rank, setThread, hthread]
  | procPdu i item =>
    have hwaits : item ∈ s.waiting packet := by
      rw [waiting, taken, hthread]
      exact List.mem_cons_self
    have hregistered := h.registered _ (List.mem_of_getElem? (h.items packet item hwaits))
    obtain ⟨packet', proc, hsome⟩ := hfull.exists_executor hregistered rand
    let start : HandlerStart π η := { index := item.index, packet, proc }
    have hproc : s.onThreadRun m packet rand =
        { s with started := s.started ++ [start] }.setThread packet (.loop (i + 1)) := by
      simp [Packets.onThreadRun, hthread, hsome, start]
    by_cases hitem : item.index = k
    · left
      simp [hproc, setThread, startedIndices, start, hitem]
    · right
      rw [taken, hthread, List.map_append, List.map_cons] at hk
      refine ⟨?_, ?_⟩
      · simpa [hproc, waitingAt, waiting, taken, setThread, Ne.symm hitem] using hk
      · simp only [hproc, rank, setThread, hthread, hitem, Function.update_self, ↓reduceIte]
        split <;> omega

/-- What another thread does, and what is dispatched, leaves a PDU where it is. -/
theorem rank_of_other {e : Event π lam} (he : e.isRun packet = false) {k : Nat}
    (hk : k ∈ s.waitingAt packet) : k ∈ (s.step m e).waitingAt packet ∧
      (s.step m e).rank packet k = s.rank packet k := by
  cases e with
  | dispatchPacket pdu rand =>
    rw [step, Packets.dispatchPacket]
    split
    · exact ⟨hk, rank_congr rfl rfl k⟩
    · next packet' proc hsome =>
      refine ⟨?_, ?_⟩
      · rw [waitingAt, waiting_append, List.map_append]
        exact List.mem_append_left _ hk
      · by_cases hpacket : packet = packet'
        · subst hpacket
          have hqueue := Function.update_self packet
            (s.queuePdu packet ++ [⟨s.dispatched.length, pdu⟩]) s.queuePdu
          exact rank_append (by rfl) hqueue hk
        · exact rank_congr (by rfl) (by simp [Function.update_of_ne hpacket]) k
  | run packet' rand =>
    have hpacket : packet ≠ packet' := by
      rintro rfl
      simp [Event.isRun] at he
    have hsame : (s.onThreadRun m packet' rand).thread packet = s.thread packet ∧
        (s.onThreadRun m packet' rand).queuePdu packet = s.queuePdu packet := by
      rw [Packets.onThreadRun]
      repeat' split
      all_goals simp [setThread, Function.update_of_ne hpacket]
    refine ⟨?_, rank_congr hsame.1 hsame.2 k⟩
    rw [step, waitingAt, waiting, taken, hsame.1, hsame.2]
    exact hk

theorem startedIndices_subset (e : Event π lam) :
    s.startedIndices ⊆ (s.step m e).startedIndices := by
  have happend : ∀ start : HandlerStart π η,
      s.startedIndices ⊆ (s.started ++ [start]).map HandlerStart.index := fun start => by
    rw [List.map_append]
    exact List.subset_append_left ..
  cases e with
  | dispatchPacket pdu rand =>
    rw [step, Packets.dispatchPacket]
    split <;> exact List.Subset.refl _
  | run packet rand =>
    rw [step, Packets.onThreadRun]
    repeat' split
    any_goals exact List.Subset.refl _
    exact happend _

/-- A PDU is handled as soon as its thread has made as many steps as its rank says. -/
theorem Inv.mem_startedIndices (h : Inv m s) (hfull : m.Full) {k : Nat}
    (events : List (Event π lam))
    (hk : k ∈ s.startedIndices ∨
      k ∈ s.waitingAt packet ∧ s.rank packet k ≤ stepsOf packet events) :
    k ∈ (events.foldl (Packets.step m) s).startedIndices := by
  induction events generalizing s with
  | nil =>
    obtain hstarted | ⟨-, hrank⟩ := hk
    · exact hstarted
    · exact absurd (rank_pos s packet k) (Nat.not_lt.mpr hrank)
  | cons e events ih =>
    refine ih (h.step hfull e) ?_
    obtain hstarted | ⟨hwaits, hrank⟩ := hk
    · exact .inl (startedIndices_subset e hstarted)
    cases hrun : e.isRun packet with
    | false =>
      obtain ⟨hwaits', hsame⟩ := rank_of_other (m := m) hrun hwaits
      refine .inr ⟨hwaits', ?_⟩
      rw [hsame]
      simpa [stepsOf, hrun] using hrank
    | true =>
      rw [stepsOf, List.countP_cons_of_pos hrun] at hrank
      cases e with
      | dispatchPacket => cases hrun
      | run packet' rand =>
        obtain rfl : packet' = packet := of_decide_eq_true hrun
        exact (h.rank_lt hfull hwaits rand).imp_right fun hless =>
          ⟨hless.1, Nat.le_of_lt_succ (Nat.lt_of_lt_of_le hless.2 hrank)⟩

theorem Inv.rank_le (h : Inv m s) {k : Nat} (hk : k ∈ s.waitingAt packet) :
    s.rank packet k ≤ 4 * (k + 1) := by
  have hpairwise : (s.waitingAt packet).Pairwise (· < ·) :=
    List.Pairwise.sublist (h.line packet ▸ List.sublist_append_right ..)
      (pairwise_dispatchedAt s packet)
  rw [waitingAt, waiting] at hk hpairwise
  rw [rank]
  split
  · next i hthread =>
    simp only [taken, hthread, List.nil_append] at hk hpairwise
    have hbefore := idxOf_add_le hpairwise (fun n _ => Nat.zero_le n) hk
    split <;> omega
  · next hthread =>
    simp only [taken, hthread, List.nil_append] at hk hpairwise
    have hbefore := idxOf_add_le hpairwise (fun n _ => Nat.zero_le n) hk
    omega
  · next i item hthread =>
    simp only [taken, hthread, List.singleton_append, List.map_cons] at hk hpairwise
    obtain ⟨hfirst, hpairwise⟩ := List.pairwise_cons.mp hpairwise
    split
    · omega
    · next hitem =>
      have hqueued : k ∈ (s.queuePdu packet).map QueuedPdu.index :=
        (List.mem_cons.mp hk).resolve_left (Ne.symm hitem)
      have hbefore := idxOf_add_le hpairwise
        (fun n hn => Nat.le_trans (Nat.succ_le_succ (Nat.zero_le _)) (hfirst n hn)) hqueued
      omega

/-- Whatever the random choices and the schedule are. -/
theorem delivered_of_full (m : CPacketMgr π η) (hfull : m.Full) (events : List (Event π lam)) :
    Delivered m (events.foldl (step m) {}) := by
  have hinv := Inv.start.foldl hfull events
  exact {
    refused := hinv.refused
    own := hinv.own
    once := hinv.once
    order := fun k k' pdu pdu' packet hlt hk hk' => hinv.order hlt hk hk'
    handled := fun k pdu packet hk later hsteps => by
      have hline := mem_dispatchedAt.mpr ⟨pdu, hk⟩
      rw [← hinv.line packet] at hline
      have hstart : k ∈ (events.foldl (step m) {}).startedIndices ∨
          k ∈ (events.foldl (step m) {}).waitingAt packet ∧
            (events.foldl (step m) {}).rank packet k ≤ stepsOf packet later := by
        obtain hstarted | hwaits := List.mem_append.mp hline
        · exact .inl ((List.filter_sublist.map _).subset hstarted)
        · exact .inr ⟨hwaits, Nat.le_trans (hinv.rank_le hwaits) hsteps⟩
      exact hinv.mem_startedIndices hfull later hstart }

/-- The handlers of two PDUs of a connection start in the order in which they were dispatched. -/
def LinksKept (s : Packets π η lam) : Prop :=
  ∀ k k' pdu pdu' packet packet', k < k' → s.dispatched[k]? = some (pdu, packet) →
    s.dispatched[k']? = some (pdu', packet') → pdu.link = pdu'.link → k' ∈ s.startedIndices →
      [k, k'].Sublist s.startedIndices

end Progress

/-- Both instances have registered the command 1, each with another packet. -/
def twoInstances : CPacketMgr Bool Unit :=
  (CPacketMgr.packetRegist { nActualServiceInst := 2 } 1 0 false ()).packetRegist 1 1 true ()

theorem full_twoInstances : twoInstances.Full := by
  rintro nCmd ⟨nInstId, hinst, hsome⟩ nInstId' hinst'
  obtain rfl : nCmd = 1 := by
    by_contra hcmd
    refine hsome ?_
    have hno : ∀ i, ((nCmd, nInstId) == ((1 : UInt16), i)) = false := fun i =>
      beq_eq_false_iff_ne.mpr fun h => hcmd (Prod.mk.inj h).1
    change List.lookup _ [((1, 1), (true, ())), ((1, 0), (false, ()))] = none
    simp [List.lookup_cons, hno]
  obtain rfl | rfl : nInstId' = 0 ∨ nInstId' = 1 := by
    have htwo : nInstId' < 2 := hinst'
    omega
  · decide
  · decide

/-- Two PDUs of a connection go to two instances, and the thread of the second runs first. -/
def twoInstancesRun : List (Event Bool Unit) :=
  [.dispatchPacket ⟨(), 1⟩ 0, .dispatchPacket ⟨(), 1⟩ 1, .run true 0, .run true 0]

theorem delivered_twoInstances :
    Delivered twoInstances (twoInstancesRun.foldl (step twoInstances) {}) :=
  delivered_of_full twoInstances full_twoInstances twoInstancesRun

theorem not_linksKept :
    twoInstances.Full ∧ ¬ LinksKept (twoInstancesRun.foldl (step twoInstances) {}) := by
  refine ⟨full_twoInstances, fun h => ?_⟩
  have hfirst := h 0 1 ⟨(), 1⟩ ⟨(), 1⟩ false true (by decide) (by decide) (by decide) rfl (by decide)
  exact absurd (hfirst.subset List.mem_cons_self) (by decide)

end Packets

end ImServer
