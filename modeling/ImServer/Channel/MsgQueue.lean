import ImServer.Lib.History
import ImServer.Lib.Run
import Mathlib.Data.Finset.Card

/-!
# The message queue of a channel

`pushMsgToMsgQueue` (channel/redisMgr.cpp) pushes a message, asks how long the queue is and pops one
message if it is longer than `m_nMsgCacheSzie`. Each redis command is a step of its own, and any
number of calls for one channel take their steps in any order; the `lrem` of a cancellation comes at
any time.

A length that another call has corrected in the meantime still makes its reader pop, so that two
pushes can empty a queue that is to hold the last message.
-/

namespace ImServer

/-- How a command of `CacheConn` ends: it is answered, not sent, or the connection breaks before the
answer has come. -/
inductive Answer where
  | answered
  | connFail
  | disconn (executed : Bool)
  deriving DecidableEq, Repr

def Answer.executed : Answer → Bool
  | .answered => true
  | .connFail => false
  | .disconn executed => executed

/-- Where a call of `pushMsgToMsgQueue` is. `ret` is its `ret_value`. -/
inductive PushMsg where
  | rpush (nTick : Nat)
  | llen (ret : Nat)
  | lpop
  | returned (ok : Bool)
  deriving DecidableEq, Repr

namespace PushMsg

/-- After an `rpush` whose answer, if there is one, is `length`. -/
def afterPush (nTick length : Nat) (answer : Answer) : PushMsg :=
  match answer with
  | .disconn _ => if nTick < 3 then .rpush (nTick + 1) else .returned false
  | .connFail => if 3 ≤ nTick then .returned false else .llen 0
  | .answered => if 3 ≤ nTick then .returned false else .llen length

/-- After an `llen`, which leaves `ret_value` as it is if it is not answered. -/
def afterLen (size ret length : Nat) (answer : Answer) : PushMsg :=
  let ret := if answer = .answered then length else ret
  if size < ret then .lpop else .returned true

/-- The call pops a message, unless it is told a smaller length. -/
def owes (size : Nat) : PushMsg → Bool
  | .llen ret => size < ret
  | .lpop => true
  | _ => false

/-- The call has not begun or has returned. -/
def settled : PushMsg → Bool
  | .rpush nTick => nTick = 0
  | .returned _ => true
  | _ => false

theorem owes_of_settled {size : Nat} {call : PushMsg} (h : call.settled = true) :
    call.owes size = false := by
  cases call <;> first | rfl | cases h

end PushMsg

structure MsgQueue (ι α : Type) where
  history : History α := {}
  calls : ι → PushMsg := fun _ => .rpush 0

namespace MsgQueue

variable {ι α : Type}

inductive Event (ι α : Type) where
  | turn (i : ι) (answer : Answer)
  | lrem (value : α)
  deriving DecidableEq, Repr

section Steps

variable [DecidableEq ι] (size : Nat) (text : ι → α) (s : MsgQueue ι α)

def setCall (i : ι) (call : PushMsg) (history : History α) : MsgQueue ι α :=
  ⟨history, Function.update s.calls i call⟩

def turn (i : ι) (answer : Answer) : Option (MsgQueue ι α) :=
  let length := s.history.queue.length
  match s.calls i with
  | .rpush nTick =>
    let history := if answer.executed then s.history.push (text i) else s.history
    some (s.setCall i (.afterPush nTick (length + 1) answer) history)
  | .llen ret => some (s.setCall i (.afterLen size ret length answer) s.history)
  | .lpop =>
    let history := if answer.executed then s.history.pop else s.history
    some (s.setCall i (.returned true) history)
  | .returned _ => none

/-- An `lpop` takes a message that is not among the last ones (unless some were cancelled, the queue
is too long then, see `trimsAt_lpop_iff`), and it fails only when the queue is not too long; a push
that no test follows finds room. -/
def TrimsAt (answer : Answer) : PushMsg → Prop
  | .rpush nTick =>
    answer.executed = true → answer = .answered ∧ nTick < 3 ∨ s.history.queue.length < size
  | .lpop =>
    if answer.executed = true then s.history.Surplus size else s.history.queue.length ≤ size
  | .llen _ | .returned _ => True

def Trims : Event ι α → Prop
  | .turn i answer => s.TrimsAt size answer (s.calls i)
  | .lrem _ => True

/-- At no time a message among the last ones is missing that was not cancelled, and the queue is
these messages when every call has returned and none was cancelled. -/
structure Holds : Prop where
  recent : s.history.Recent size
  settled : (∀ i, (s.calls i).settled = true) → s.history.cancelled = [] →
    s.history.texts = s.history.pushed.drop (s.history.pushed.length - size)

end Steps

def step [DecidableEq ι] [DecidableEq α] (size : Nat) (text : ι → α) (s : MsgQueue ι α) :
    Event ι α → Option (MsgQueue ι α)
  | .turn i answer => s.turn size text i answer
  | .lrem value => some { s with history := s.history.remove value }

variable {size : Nat} {text : ι → α} {s s' : MsgQueue ι α}

def Owing (size : Nat) (s : MsgQueue ι α) (calls : Finset ι) : Prop :=
  ∀ i, i ∈ calls ↔ (s.calls i).owes size = true

theorem Owing.setCall [DecidableEq ι] {calls : Finset ι} (h : s.Owing size calls) (i : ι)
    (call : PushMsg)
    (history : History α) :
    ∃ calls', (s.setCall i call history).Owing size calls' ∧
      calls'.card + ((s.calls i).owes size).toNat = calls.card + (call.owes size).toNat := by
  have herase : (calls.erase i).card + ((s.calls i).owes size).toNat = calls.card := by
    cases howes : (s.calls i).owes size with
    | false =>
      rw [Finset.erase_eq_of_notMem fun hi => by simp [(h i).mp hi] at howes]
      rfl
    | true => exact Finset.card_erase_add_one ((h i).mpr howes)
  have hother (j : ι) (hj : j ≠ i) :
      j ∈ calls.erase i ↔ ((s.setCall i call history).calls j).owes size = true := by
    rw [Finset.mem_erase, h j]
    simp [MsgQueue.setCall, hj]
  have hself : ((s.setCall i call history).calls i).owes size = call.owes size := by
    simp [MsgQueue.setCall]
  cases howes : call.owes size with
  | false =>
    refine ⟨calls.erase i, fun j => ?_, herase⟩
    by_cases hj : j = i
    · subst hj
      simp [hself, howes]
    · exact hother j hj
  | true =>
    refine ⟨insert i (calls.erase i), fun j => ?_, ?_⟩
    · by_cases hj : j = i
      · subst hj
        simp [hself, howes]
      · rw [← hother j hj]
        simp [hj]
    · rw [Finset.card_insert_of_notMem (Finset.notMem_erase i calls)]
      simp only [Bool.toNat_true]
      omega

/-- The queue is too long by at most one message for each call that is about to pop. -/
structure Kept (size : Nat) (s : MsgQueue ι α) : Prop where
  recent : s.history.Recent size
  uncut : s.history.Uncut
  length : ∃ calls, s.Owing size calls ∧ s.history.queue.length ≤ size + calls.card

theorem Kept.start : Kept size ({} : MsgQueue ι α) where
  recent := .start
  uncut := .start
  length := ⟨∅, fun i => by simp [PushMsg.owes], Nat.zero_le _⟩

theorem owes_afterPush {nTick n : Nat} {answer : Answer}
    (h : answer = .answered ∧ nTick < 3) :
    (PushMsg.afterPush nTick n answer).owes size = decide (size < n) := by
  obtain ⟨rfl, hnTick⟩ := h
  rw [PushMsg.afterPush, if_neg (Nat.not_le.mpr hnTick), PushMsg.owes]

theorem Kept.turn [DecidableEq ι] {i : ι} {answer : Answer} (h : s.Kept size)
    (htrims : s.Trims size (.turn i answer))
    (hturn : s.turn size text i answer = some s') : s'.Kept size := by
  obtain ⟨calls, howing, hlen⟩ := h.length
  unfold MsgQueue.turn at hturn
  simp only [Trims] at htrims
  split at hturn
  case h_1 nTick hcall =>
    cases hturn
    obtain ⟨calls', howing', hcard⟩ := howing.setCall i
      (.afterPush nTick (s.history.queue.length + 1) answer)
      (if answer.executed then s.history.push (text i) else s.history)
    have hbefore : (s.calls i).owes size = false := by rw [hcall]; rfl
    rw [hbefore, Bool.toNat_false] at hcard
    cases hexec : answer.executed with
    | false =>
      simp only [hexec] at howing' ⊢
      exact ⟨h.recent, h.uncut, calls', howing', by simp [MsgQueue.setCall]; omega⟩
    | true =>
      simp only [hexec] at howing' ⊢
      refine ⟨h.recent.push _, h.uncut.push _, calls', howing', ?_⟩
      simp only [MsgQueue.setCall, if_true, History.length_queue_push]
      rw [hcall] at htrims
      obtain htested | hroom := htrims hexec
      · rw [owes_afterPush htested] at hcard
        by_cases hlong : size < s.history.queue.length + 1
        · rw [decide_eq_true hlong, Bool.toNat_true] at hcard
          omega
        · omega
      · omega
  case h_2 ret hcall =>
    cases hturn
    obtain ⟨calls', howing', hcard⟩ := howing.setCall i
      (.afterLen size ret s.history.queue.length answer) s.history
    refine ⟨h.recent, h.uncut, calls', howing', ?_⟩
    simp only [MsgQueue.setCall]
    rw [hcall] at hcard
    simp only [PushMsg.owes, PushMsg.afterLen] at hcard
    by_cases hanswer : answer = .answered
    · rw [if_pos hanswer] at hcard
      by_cases hlong : size < s.history.queue.length
      · have hle := Bool.toNat_le (decide (size < ret))
        rw [if_pos hlong, Bool.toNat_true] at hcard
        omega
      · omega
    · rw [if_neg hanswer] at hcard
      by_cases hlong : size < ret
      · simp only [if_pos hlong, decide_eq_true hlong, Bool.toNat_true] at hcard
        omega
      · simp only [if_neg hlong, decide_eq_false hlong, Bool.toNat_false] at hcard
        omega
  case h_3 hcall =>
    cases hturn
    obtain ⟨calls', howing', hcard⟩ := howing.setCall i (.returned true)
      (if answer.executed then s.history.pop else s.history)
    rw [hcall] at htrims hcard
    simp only [PushMsg.owes, Bool.toNat_true, Bool.toNat_false] at hcard
    cases hexec : answer.executed with
    | false =>
      simp only [TrimsAt, hexec] at htrims howing' ⊢
      exact ⟨h.recent, h.uncut, calls', howing', Nat.le_trans htrims (Nat.le_add_right ..)⟩
    | true =>
      simp only [TrimsAt, hexec] at htrims howing' ⊢
      refine ⟨h.recent.pop htrims, h.uncut.pop, calls', howing', ?_⟩
      simp only [MsgQueue.setCall, if_true, History.length_queue_pop]
      omega
  case h_4 => cases hturn

theorem Kept.step [DecidableEq ι] [DecidableEq α] {e : Event ι α} (h : s.Kept size)
    (htrims : s.Trims size e)
    (hstep : s.step size text e = some s') : s'.Kept size := by
  cases e with
  | turn i answer => exact h.turn htrims hstep
  | lrem value =>
    cases hstep
    obtain ⟨calls, howing, hlen⟩ := h.length
    refine ⟨h.recent.remove value, h.uncut.remove value, calls, howing, ?_⟩
    exact Nat.le_trans (History.length_queue_remove value) hlen

theorem Kept.holds (h : s.Kept size) : s.Holds size where
  recent := h.recent
  settled := by
    intro hsettled hcancel
    obtain ⟨calls, howing, hlen⟩ := h.length
    have hnone : calls = ∅ := by
      refine Finset.eq_empty_of_forall_notMem fun i hi => ?_
      have howes := (howing i).mp hi
      rw [PushMsg.owes_of_settled (hsettled i)] at howes
      cases howes
    rw [hnone, Finset.card_empty] at hlen
    exact History.texts_eq_drop h.recent h.uncut hcancel hlen

theorem kept_of_reaches [DecidableEq ι] [DecidableEq α]
    (h : Run.Reaches (step size text) (Trims size) {} s) : s.Kept size := by
  refine h.invariant (Kept size) .start ?_
  intro s e s' hs htrims hstep
  exact hs.step htrims hstep

/-- As long as nothing is cancelled, an `lpop` may be executed exactly when the queue is too long, or
there is nothing to pop. -/
theorem trimsAt_lpop_iff [DecidableEq ι] [DecidableEq α]
    (h : Run.Reaches (step size text) (Trims size) {} s) (hcancel : s.history.cancelled = []) :
    s.TrimsAt size .answered .lpop ↔ s.history.queue = [] ∨ size < s.history.queue.length   :=
  History.surplus_iff (kept_of_reaches h).uncut hcancel

/-- The queue is the recent history in every run in which each `lpop` takes what is not. -/
theorem recent_history [DecidableEq ι] [DecidableEq α]
    (h : Run.Reaches (step size text) (Trims size) {} s) : s.Holds size := (kept_of_reaches h).holds

instance : (call : PushMsg) → (answer : Answer) → Decidable (s.TrimsAt size answer call)
  | .rpush _, _ => inferInstanceAs (Decidable (_ → _))
  | .lpop, answer => inferInstanceAs (Decidable (if answer.executed = true then _ else _))
  | .llen _, _ | .returned _, _ => isTrue trivial

instance : (e : Event ι α) → Decidable (s.Trims size e)
  | .turn i answer => inferInstanceAs (Decidable (s.TrimsAt size answer (s.calls i)))
  | .lrem _ => isTrue trivial

/-- One call after the other. -/
def inTurn : List (Event (Fin 2) Nat) :=
  [.turn 0 .answered, .turn 0 .answered, .turn 1 .answered, .turn 1 .answered, .turn 1 .answered]

theorem recent_history_inTurn :
    ((Run.runGood (step 1 Fin.val) (Trims 1) {} inTurn).map fun s => s.history.texts) = some [1] ∧
      ∀ s ∈ Run.runGood (step 1 Fin.val) (Trims 1) {} inTurn, s.Holds 1 :=
  ⟨by decide, fun _ hrun => recent_history (Run.reaches_of_runGood hrun)⟩

/-- Both calls push before either asks for the length, and both read 2. -/
def together : List (Event (Fin 2) Nat) :=
  [.turn 0 .answered, .turn 1 .answered, .turn 0 .answered, .turn 1 .answered, .turn 0 .answered,
    .turn 1 .answered]

theorem not_recent_history :
    ¬ ∀ s : MsgQueue (Fin 2) Nat, Run.Reaches (step 1 Fin.val) (fun _ _ => True) {} s → s.Holds 1 := by
  intro hholds
  obtain ⟨s, hs⟩ := Option.isSome_iff_exists.mp
    (by decide : (Run.runGood (step 1 Fin.val) (fun _ _ => True) {} together).isSome)
  have hbad : ∀ s ∈ Run.runGood (step 1 Fin.val) (fun _ _ => True) {} together,
      s.history.pushed[1]? = some 1 ∧ s.history.Latest 1 1 ∧ s.history.cancelled = [] ∧
        s.history.queue = [] := by decide
  obtain ⟨hpushed, hlatest, hcancel, hqueue⟩ := hbad s hs
  have hmem := (hholds s (Run.reaches_of_runGood hs)).recent 1 1 hpushed hlatest (by simp [hcancel])
  simp [hqueue] at hmem

end MsgQueue

end ImServer
