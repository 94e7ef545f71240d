import ImServer.Lib.Cursor
import ImServer.Lib.Run
import Mathlib.Data.FinEnum

/-!
# Timers

`AddTimer`, `RemoveTimer` and `_CheckTimer` of base/eventdispatch.cpp. The list is walked while
callbacks add and remove timers. The iterator moves on before a callback is called, so a callback
may remove its own timer. If it removes the one that the iterator has moved to, the next turn of the
loop reads an item that has been freed.

A timer that is put at the end of the list while it is walked has its turn in the same walk.
-/

namespace ImServer

namespace EventTimers

/-- `callback` and `user_data`. -/
structure TimerKey where
  callback : UInt64
  userData : UInt64
  deriving DecidableEq, Repr

/-- `TimerItem`. The number stands for its address and that of its list node. -/
structure TimerItem where
  id : ℕ
  key : TimerKey
  interval : UInt64
  nextTick : UInt64
  deriving DecidableEq, Repr

/-- A walk over the list: `curr_tick` and the iterator, and the timers that were fired. -/
structure Pass where
  currTick : UInt64
  it : Option ℕ
  fired : List TimerKey := []
  deriving DecidableEq, Repr

/-- What happened to an item. -/
inductive Act where
  | removed (id : ℕ)
  | fired (id : ℕ)
  deriving DecidableEq, Repr

/-- `m_timer_list` and the walk in progress. There is a `fault` if the loop has read an item that is
not in the list. -/
structure State where
  timers : List TimerItem := []
  fresh : ℕ := 0
  pass : Option Pass := none
  fault : Bool := false
  trace : List Act := []
  deriving DecidableEq, Repr

/-- A call of `AddTimer` or `RemoveTimer`. `now` is what `get_tick_count` returns. -/
inductive TimerOp where
  | add (key : TimerKey) (interval now : UInt64)
  | remove (key : TimerKey)
  deriving DecidableEq, Repr

/-- A call from outside, the start of `_CheckTimer`, and a turn of its loop with what the callback
does if it is called. -/
inductive Event where
  | call (op : TimerOp)
  | check (now : UInt64)
  | turn (ops : List TimerOp)
  deriving DecidableEq, Repr

/-- The loop of `AddTimer`. -/
def addTo (key : TimerKey) (interval now : UInt64) (fresh : ℕ) : List TimerItem → List TimerItem
  | [] => [⟨fresh, key, interval, now + interval⟩]
  | item :: rest =>
    if item.key = key then { item with interval, nextTick := now + interval } :: rest
    else item :: addTo key interval now fresh rest

/-- `pItem->next_tick += pItem->interval` for the item with the number. -/
def advance (id : ℕ) (item : TimerItem) : TimerItem :=
  if item.id = id then { item with nextTick := item.nextTick + item.interval } else item

namespace State

variable (s : State)

def addTimer (key : TimerKey) (interval now : UInt64) : State :=
  { s with timers := addTo key interval now s.fresh s.timers, fresh := s.fresh + 1 }

def removeTimer (key : TimerKey) : State :=
  match s.timers.find? (fun item => item.key = key) with
  | none => s
  | some item =>
    { s with
      timers := s.timers.eraseP (fun item => item.key = key)
      trace := s.trace ++ [.removed item.id] }

def apply : TimerOp → State
  | .add key interval now => s.addTimer key interval now
  | .remove key => s.removeTimer key

/-- The iterator moves on from the item, whose time has not come. -/
def skip (p : Pass) (item : TimerItem) : State :=
  { s with pass := some { p with it := Cursor.nextOf TimerItem.id s.timers item.id } }

/-- The iterator moves on from the item, and its next time is set. -/
def fire (p : Pass) (item : TimerItem) : State :=
  { s with
    timers := s.timers.map (advance item.id)
    pass := some
      { p with
        it := Cursor.nextOf TimerItem.id s.timers item.id
        fired := p.fired ++ [item.key] }
    trace := s.trace ++ [.fired item.id] }

/-- A turn of the loop of `_CheckTimer` up to the call of the callback, and whether it is called. -/
def visit (p : Pass) : State × Bool :=
  match p.it with
  | none => ({ s with pass := none }, false)
  | some id =>
    match s.timers.find? (fun item => item.id = id) with
    | none => ({ s with fault := true }, false)
    | some item =>
      if item.nextTick ≤ p.currTick then (s.fire p item, true) else (s.skip p item, false)

def turn (p : Pass) (ops : List TimerOp) : State :=
  let (s', called) := s.visit p
  if called then ops.foldl apply s' else s'

end State

def step (s : State) : Event → Option State
  | .call op => if s.pass = none then some (s.apply op) else none
  | .check now =>
    if s.pass = none then
      some { s with pass := some { currTick := now, it := s.timers.head?.map TimerItem.id } }
    else none
  | .turn ops =>
    match s.pass with
    | none => none
    | some p => if s.fault then none else some (s.turn p ops)

/-- A callback does not remove the timer behind its own, and does not set a timer again that was
fired in this walk so that it is due and still has its turn. -/
def GoodOp (s : State) : TimerOp → Prop
  | .add key interval now => ∀ p ∈ s.pass, p.it ≠ none → key ∈ p.fired →
      (∀ item ∈ Cursor.passed TimerItem.id s.timers p.it, item.key ≠ key) →
      p.currTick < now + interval
  | .remove key => ∀ p ∈ s.pass, ∀ item ∈ s.timers, item.key = key → p.it ≠ some item.id

def GoodOps : State → List TimerOp → Prop
  | _, [] => True
  | s, op :: ops => GoodOp s op ∧ GoodOps (s.apply op) ops

def Good (s : State) : Event → Prop
  | .turn ops => ∀ p ∈ s.pass, (s.visit p).2 = true → GoodOps (s.visit p).1 ops
  | _ => True

instance (s : State) : (op : TimerOp) → Decidable (GoodOp s op)
  | .add _ _ _ => inferInstanceAs (Decidable (∀ _ ∈ _, _))
  | .remove _ => inferInstanceAs (Decidable (∀ _ ∈ _, _))

instance decidableGoodOps : (s : State) → (ops : List TimerOp) → Decidable (GoodOps s ops)
  | _, [] => .isTrue trivial
  | s, op :: ops =>
    have := decidableGoodOps (s.apply op) ops
    inferInstanceAs (Decidable (_ ∧ _))

instance (s : State) : (e : Event) → Decidable (Good s e)
  | .turn _ => inferInstanceAs (Decidable (∀ _ ∈ _, _))
  | .call _ | .check _ => .isTrue trivial

section Timers

variable {key : TimerKey} {interval now : UInt64} {fresh : ℕ} {timers : List TimerItem}

/-- What `AddTimer` does to an item. -/
def reset (key : TimerKey) (interval now : UInt64) (item : TimerItem) : TimerItem :=
  if item.key = key then { item with interval, nextTick := now + interval } else item

@[simp]
theorem id_reset (item : TimerItem) : (reset key interval now item).id = item.id := by
  rw [reset]
  split
  · rfl
  · rfl

@[simp]
theorem key_reset (item : TimerItem) : (reset key interval now item).key = item.key := by
  rw [reset]
  split
  · rfl
  · rfl

theorem addTo_of_notMem (h : ∀ item ∈ timers, item.key ≠ key) :
    addTo key interval now fresh timers = timers ++ [⟨fresh, key, interval, now + interval⟩] := by
  induction timers with
  | nil => rfl
  | cons item rest ih =>
    rw [addTo, if_neg (h item List.mem_cons_self),
      ih fun other hother => h other (List.mem_cons_of_mem item hother)]
    rfl

theorem addTo_of_mem (hkeys : (timers.map TimerItem.key).Nodup)
    (h : ∃ item ∈ timers, item.key = key) :
    addTo key interval now fresh timers = timers.map (reset key interval now) := by
  induction timers with
  | nil =>
    obtain ⟨item, hitem, -⟩ := h
    cases hitem
  | cons item rest ih =>
    obtain ⟨hnotMem, hrest⟩ := List.nodup_cons.mp hkeys
    rw [addTo, List.map_cons]
    by_cases hkey : item.key = key
    · -- the others have other keys
      have hothers : rest.map (reset key interval now) = rest := by
        refine (List.map_congr_left fun other hother => ?_).trans (List.map_id rest)
        exact if_neg fun heq => hnotMem (List.mem_map.mpr ⟨other, hother, heq.trans hkey.symm⟩)
      rw [if_pos hkey, hothers, reset, if_pos hkey]
    · obtain ⟨other, hother, heq⟩ := h
      have hmem : other ∈ rest := (List.mem_cons.mp hother).resolve_left (by
        rintro rfl
        exact hkey heq)
      rw [if_neg hkey, ih hrest ⟨other, hmem, heq⟩, reset, if_neg hkey]

@[simp]
theorem id_advance (id : ℕ) (item : TimerItem) : (advance id item).id = item.id := by
  rw [advance]
  split
  · rfl
  · rfl

@[simp]
theorem key_advance (id : ℕ) (item : TimerItem) : (advance id item).key = item.key := by
  rw [advance]
  split
  · rfl
  · rfl

/-- Items are changed in place and keep what they are found by. -/
theorem map_map_eq {β : Type} {f : TimerItem → TimerItem} {get : TimerItem → β}
    (hf : ∀ item, get (f item) = get item) : (timers.map f).map get = timers.map get := by
  rw [List.map_map]
  exact List.map_congr_left fun item _ => hf item

end Timers

/-- What is removed is not fired later. -/
def NotAfter (a b : Act) : Prop := ∀ id, a = .removed id → b ≠ .fired id

/-- The iterator stands between two parts of the list. A timer of the second part that was fired in
this walk is not due. -/
structure Walking (s : State) (p : Pass) (front back : List TimerItem) : Prop where
  place : Cursor.At TimerItem.id s.timers p.it front back
  once : p.fired.Nodup
  apart : ∀ item ∈ back, item.key ∈ p.fired → p.currTick < item.nextTick

structure TimersInv (s : State) : Prop where
  keys : (s.timers.map TimerItem.key).Nodup
  ids : (s.timers.map TimerItem.id).Nodup
  fresh : ∀ item ∈ s.timers, item.id < s.fresh
  fault : s.fault = false
  gone : ∀ id, .removed id ∈ s.trace → id < s.fresh ∧ ∀ item ∈ s.timers, item.id ≠ id
  order : s.trace.Pairwise NotAfter
  walking : ∀ p ∈ s.pass, ∃ front back, Walking s p front back

section Ops

variable {s : State} {p : Pass} {front back : List TimerItem}

theorem TimersInv.addTimer (h : TimersInv s) {key : TimerKey} {interval now : UInt64}
    (hgood : GoodOp s (.add key interval now)) : TimersInv (s.addTimer key interval now) := by
  by_cases hmem : ∃ item ∈ s.timers, item.key = key
  · have htimers : (s.addTimer key interval now).timers = s.timers.map (reset key interval now) :=
      addTo_of_mem h.keys hmem
    refine ⟨?_, ?_, ?_, h.fault, ?_, h.order, ?_⟩
    · rw [htimers, map_map_eq key_reset]
      exact h.keys
    · rw [htimers, map_map_eq id_reset]
      exact h.ids
    · rw [htimers]
      intro item hitem
      obtain ⟨old, hold, rfl⟩ := List.mem_map.mp hitem
      rw [id_reset]
      exact Nat.lt_succ_of_lt (h.fresh old hold)
    · rw [htimers]
      intro id hid
      obtain ⟨hlt, hout⟩ := h.gone id hid
      refine ⟨Nat.lt_succ_of_lt hlt, ?_⟩
      intro item hitem
      obtain ⟨old, hold, rfl⟩ := List.mem_map.mp hitem
      rw [id_reset]
      exact hout old hold
    · intro p hp
      obtain ⟨front, back, hw⟩ := h.walking p hp
      refine ⟨front.map (reset key interval now), back.map (reset key interval now), ?_, hw.once,
        ?_⟩
      · rw [htimers]
        exact hw.place.map id_reset
      · intro item hitem hfired
        obtain ⟨old, hold, rfl⟩ := List.mem_map.mp hitem
        rw [key_reset] at hfired
        by_cases hkey : old.key = key
        · -- the timer is set again and still has its turn
          rw [reset, if_pos hkey]
          refine hgood p hp ?_ (hkey ▸ hfired) ?_
          · intro hnone
            have hplace := hw.place
            rw [hnone] at hplace
            rw [hplace.eq_nil] at hold
            cases hold
          · rw [hw.place.passed_eq h.ids]
            intro other hother heq
            have hkeys := h.keys
            rw [hw.place.split, List.map_append] at hkeys
            exact (List.nodup_append.mp hkeys).2.2 _ (List.mem_map_of_mem hother) _
              (List.mem_map_of_mem hold) (heq.trans hkey.symm)
        · rw [reset, if_neg hkey]
          exact hw.apart old hold hfired
  · have hnew : ∀ item ∈ s.timers, item.key ≠ key := fun item hitem hkey => hmem ⟨item, hitem, hkey⟩
    have htimers : (s.addTimer key interval now).timers =
        s.timers ++ [⟨s.fresh, key, interval, now + interval⟩] := addTo_of_notMem hnew
    refine ⟨?_, ?_, ?_, h.fault, ?_, h.order, ?_⟩
    · rw [htimers, List.map_append]
      refine List.nodup_append.mpr ⟨h.keys, List.nodup_singleton _, ?_⟩
      rintro a ha b hb rfl
      obtain ⟨item, hitem, rfl⟩ := List.mem_map.mp ha
      exact hnew item hitem (List.mem_singleton.mp hb)
    · rw [htimers, List.map_append]
      refine List.nodup_append.mpr ⟨h.ids, List.nodup_singleton _, ?_⟩
      rintro a ha b hb rfl
      obtain ⟨item, hitem, rfl⟩ := List.mem_map.mp ha
      exact (h.fresh item hitem).ne (List.mem_singleton.mp hb)
    · rw [htimers]
      intro item hitem
      rcases List.mem_append.mp hitem with hold | hitem
      · exact Nat.lt_succ_of_lt (h.fresh item hold)
      · rw [List.mem_singleton.mp hitem]
        exact Nat.lt_succ_self s.fresh
    · rw [htimers]
      intro id hid
      obtain ⟨hlt, hout⟩ := h.gone id hid
      refine ⟨Nat.lt_succ_of_lt hlt, ?_⟩
      intro item hitem
      rcases List.mem_append.mp hitem with hold | hitem
      · exact hout item hold
      · rw [List.mem_singleton.mp hitem]
        exact hlt.ne'
    · intro p hp
      obtain ⟨front, back, hw⟩ := h.walking p hp
      have hplace := hw.place
      rcases hit : p.it with _ | i
      · rw [hit] at hplace
        refine ⟨front ++ [⟨s.fresh, key, interval, now + interval⟩], [], ?_, hw.once, ?_⟩
        · rw [htimers, hit]
          exact hplace.push_none _
        · intro item hitem
          cases hitem
      · rw [hit] at hplace
        refine ⟨front, back ++ [⟨s.fresh, key, interval, now + interval⟩], ?_, hw.once, ?_⟩
        · rw [htimers, hit]
          exact hplace.push_some _
        · intro item hitem hfired
          rcases List.mem_append.mp hitem with hold | hitem
          · exact hw.apart item hold hfired
          · rw [List.mem_singleton.mp hitem] at hfired ⊢
            refine hgood p hp ?_ hfired ?_
            · rw [hit]
              exact Option.some_ne_none i
            · rw [hw.place.passed_eq h.ids]
              intro other hother
              refine hnew other ?_
              rw [hw.place.split]
              exact List.mem_append_left back hother

theorem TimersInv.removeTimer (h : TimersInv s) {key : TimerKey} (hgood : GoodOp s (.remove key)) :
    TimersInv (s.removeTimer key) := by
  rcases hfind : s.timers.find? (fun item => item.key = key) with _ | item
  · rw [State.removeTimer, hfind]
    exact h
  · have hmem : item ∈ s.timers := List.mem_of_find?_eq_some hfind
    have hremoved : s.removeTimer key =
        { s with
          timers := s.timers.eraseP (fun item => item.key = key)
          trace := s.trace ++ [.removed item.id] } := by
      rw [State.removeTimer, hfind]
    have hsub : (s.timers.eraseP fun item => decide (item.key = key)).Sublist s.timers :=
      List.eraseP_sublist
    rw [hremoved]
    refine ⟨h.keys.sublist (hsub.map _), h.ids.sublist (hsub.map _), ?_, h.fault, ?_, ?_, ?_⟩
    · intro other hother
      exact h.fresh other (hsub.subset hother)
    · intro id hid
      rcases List.mem_append.mp hid with hold | hid
      · obtain ⟨hlt, hout⟩ := h.gone id hold
        exact ⟨hlt, fun other hother => hout other (hsub.subset hother)⟩
      · have hid : id = item.id := Act.removed.inj (List.mem_singleton.mp hid)
        rw [hid]
        refine ⟨h.fresh item hmem, ?_⟩
        -- the item was the only one with its number
        obtain ⟨hkey, before, after, htimers, hbefore⟩ := List.find?_eq_some_iff_append.mp hfind
        have hids := h.ids
        rw [htimers, List.map_append, List.map_cons, List.nodup_middle] at hids
        intro other hother heq
        have hhead : (item :: after).eraseP (fun item => decide (item.key = key)) = after :=
          List.eraseP_cons_of_pos hkey
        have herased : s.timers.eraseP (fun item => decide (item.key = key)) = before ++ after := by
          rw [htimers, List.eraseP_append_right _ (by simpa using hbefore), hhead]
        refine (List.nodup_cons.mp hids).1 ?_
        rw [← List.map_append, ← heq]
        exact List.mem_map_of_mem (herased ▸ hother)
    · refine List.pairwise_append.mpr ⟨h.order, List.pairwise_singleton _ _, ?_⟩
      intro a ha b hb id _
      rw [List.mem_singleton.mp hb]
      exact fun heq => by cases heq
    · intro p hp
      obtain ⟨front, back, hw⟩ := h.walking p hp
      have hhead : ∀ a ∈ back.head?, decide (a.key = key) = false := by
        intro a ha
        refine decide_eq_false fun hkey => hgood p hp a ?_ hkey ?_
        · rw [hw.place.split]
          exact List.mem_append_right front (List.mem_of_mem_head? ha)
        · rw [hw.place.head, Option.mem_def.mp ha]
          rfl
      obtain ⟨front', back', hplace, hback⟩ := hw.place.eraseP hhead
      exact ⟨front', back', hplace, hw.once, fun other hother =>
        hw.apart other (hback.subset hother)⟩

theorem pass_apply (s : State) (op : TimerOp) : (s.apply op).pass = s.pass := by
  cases op with
  | add key interval now => rfl
  | remove key =>
    rw [State.apply, State.removeTimer]
    split
    · rfl
    · rfl

theorem TimersInv.apply (h : TimersInv s) {op : TimerOp} (hgood : GoodOp s op) :
    TimersInv (s.apply op) := by
  cases op with
  | add key interval now => exact h.addTimer hgood
  | remove key => exact h.removeTimer hgood

theorem TimersInv.foldl_apply (h : TimersInv s) {ops : List TimerOp} (hgood : GoodOps s ops) :
    TimersInv (ops.foldl State.apply s) ∧ (ops.foldl State.apply s).pass = s.pass := by
  induction ops generalizing s with
  | nil => exact ⟨h, rfl⟩
  | cons op ops ih =>
    obtain ⟨hinv, hpass⟩ := ih (h.apply hgood.1) hgood.2
    exact ⟨hinv, hpass.trans (pass_apply s op)⟩

end Ops

section Turn

variable {s : State} {p : Pass} {front rest back : List TimerItem} {item : TimerItem}
  {ops : List TimerOp}

theorem visit_end (hw : Walking s p front []) : s.visit p = ({ s with pass := none }, false) := by
  rw [State.visit, hw.place.head]
  rfl

theorem visit_item (h : TimersInv s) (hw : Walking s p front (item :: rest)) :
    s.visit p =
      if item.nextTick ≤ p.currTick then (s.fire p item, true) else (s.skip p item, false) := by
  have hids := h.ids
  have hhead : p.it = some item.id := hw.place.head
  have hfind : s.timers.find? (fun other => other.id = item.id) = some item := by
    rw [hw.place.split] at hids ⊢
    exact Cursor.find?_eq hids
  simp only [State.visit, hhead, hfind]

theorem place_next (h : TimersInv s) (hw : Walking s p front (item :: rest)) :
    Cursor.At TimerItem.id s.timers (Cursor.nextOf TimerItem.id s.timers item.id) (front ++ [item])
      rest := by
  have hids := h.ids
  rw [hw.place.split] at hids ⊢
  exact Cursor.At.next hids

theorem walking_skip (h : TimersInv s) (hw : Walking s p front (item :: rest)) :
    Walking (s.skip p item) { p with it := Cursor.nextOf TimerItem.id s.timers item.id }
      (front ++ [item]) rest := by
  have hplace := place_next h hw
  exact ⟨hplace, hw.once, fun other hother => hw.apart other (List.mem_cons_of_mem item hother)⟩

theorem TimersInv.skip (h : TimersInv s) (hw : Walking s p front (item :: rest)) :
    TimersInv (s.skip p item) := by
  refine ⟨h.keys, h.ids, h.fresh, h.fault, h.gone, h.order, ?_⟩
  intro p' hp'
  rw [← Option.some.inj hp']
  exact ⟨_, _, walking_skip h hw⟩

/-- The item that is fired was not fired before in this walk, and those behind it are others. -/
theorem walking_fire (h : TimersInv s) (hw : Walking s p front (item :: rest))
    (hdue : item.nextTick ≤ p.currTick) :
    Walking (s.fire p item)
      { p with
        it := Cursor.nextOf TimerItem.id s.timers item.id
        fired := p.fired ++ [item.key] }
      ((front ++ [item]).map (advance item.id)) (rest.map (advance item.id)) := by
  have hkeys := h.keys
  rw [hw.place.split, List.map_append, List.map_cons] at hkeys
  have hrest := (List.nodup_cons.mp (List.nodup_append.mp hkeys).2.1).1
  have hids := h.ids
  rw [hw.place.split, List.map_append, List.map_cons] at hids
  have hother := (List.nodup_cons.mp (List.nodup_append.mp hids).2.1).1
  have hplace := place_next h hw
  refine ⟨hplace.map (id_advance item.id), ?_, ?_⟩
  · refine List.nodup_append.mpr ⟨hw.once, List.nodup_singleton _, ?_⟩
    rintro key hkey other hother rfl
    rw [List.mem_singleton.mp hother] at hkey
    exact absurd (hw.apart item List.mem_cons_self hkey) (UInt64.not_lt.mpr hdue)
  · intro changed hchanged hfired
    obtain ⟨old, hold, rfl⟩ := List.mem_map.mp hchanged
    have hsame : advance item.id old = old := by
      refine if_neg fun heq => hother ?_
      rw [← heq]
      exact List.mem_map_of_mem hold
    rw [hsame] at hfired ⊢
    rcases List.mem_append.mp hfired with hbefore | hnow
    · exact hw.apart old (List.mem_cons_of_mem item hold) hbefore
    · refine absurd ?_ hrest
      rw [← List.mem_singleton.mp hnow]
      exact List.mem_map_of_mem hold

theorem TimersInv.fire (h : TimersInv s) (hw : Walking s p front (item :: rest))
    (hdue : item.nextTick ≤ p.currTick) : TimersInv (s.fire p item) := by
  have hmem : item ∈ s.timers := by
    rw [hw.place.split]
    exact List.mem_append_right front List.mem_cons_self
  refine ⟨?_, ?_, ?_, h.fault, ?_, ?_, ?_⟩
  · show ((s.timers.map (advance item.id)).map TimerItem.key).Nodup
    rw [map_map_eq (key_advance item.id)]
    exact h.keys
  · show ((s.timers.map (advance item.id)).map TimerItem.id).Nodup
    rw [map_map_eq (id_advance item.id)]
    exact h.ids
  · intro changed hchanged
    obtain ⟨old, hold, rfl⟩ := List.mem_map.mp hchanged
    rw [id_advance]
    exact h.fresh old hold
  · intro id hid
    rcases List.mem_append.mp hid with hold | hid
    · obtain ⟨hlt, hout⟩ := h.gone id hold
      refine ⟨hlt, ?_⟩
      intro changed hchanged
      obtain ⟨old, hold, rfl⟩ := List.mem_map.mp hchanged
      rw [id_advance]
      exact hout old hold
    · cases List.mem_singleton.mp hid
  · refine List.pairwise_append.mpr ⟨h.order, List.pairwise_singleton _ _, ?_⟩
    intro a ha b hb id hremoved hfired
    rw [List.mem_singleton.mp hb] at hfired
    rw [hremoved] at ha
    exact (h.gone id ha).2 item hmem (Act.fired.inj hfired)
  · intro p' hp'
    rw [← Option.some.inj hp']
    exact ⟨_, _, walking_fire h hw hdue⟩

/-- A turn ends the walk, fires another timer, or leaves fewer items behind the iterator. -/
theorem TimersInv.turn (h : TimersInv s) (hp : s.pass = some p) (hw : Walking s p front back)
    (hgood : Good s (.turn ops)) :
    TimersInv (s.turn p ops) ∧ ((s.turn p ops).pass = none ∨
      ∃ p' front' back', (s.turn p ops).pass = some p' ∧ Walking (s.turn p ops) p' front' back' ∧
        (p.fired.length < p'.fired.length ∨ p'.fired = p.fired ∧ back'.length < back.length)) := by
  have hops := hgood p hp
  rw [State.turn]
  cases back with
  | nil =>
    rw [visit_end hw]
    exact ⟨⟨h.keys, h.ids, h.fresh, h.fault, h.gone, h.order, fun _ hnone => by cases hnone⟩,
      .inl rfl⟩
  | cons item rest =>
    rw [visit_item h hw] at hops ⊢
    split at hops
    · next hdue =>
      rw [if_pos hdue]
      obtain ⟨hinv, hpass⟩ := (h.fire hw hdue).foldl_apply (hops rfl)
      obtain ⟨front', back', hwalking⟩ := hinv.walking _ hpass
      refine ⟨hinv, .inr ⟨_, front', back', hpass, hwalking, .inl ?_⟩⟩
      show p.fired.length < (p.fired ++ [item.key]).length
      rw [List.length_append, List.length_singleton]
      exact Nat.lt_succ_self _
    · next hdue =>
      rw [if_neg hdue]
      exact ⟨h.skip hw, .inr ⟨_, _, _, rfl, walking_skip h hw, .inr ⟨rfl, Nat.lt_succ_self _⟩⟩⟩

end Turn

/-- The state after `n` turns of the walk in progress, whose callbacks make the calls that are given
for each turn. -/
def after (s : State) (ops : ℕ → List TimerOp) : ℕ → State
  | 0 => s
  | n + 1 =>
    match s.pass with
    | none => s
    | some p => after (s.turn p (ops 0)) (fun k => ops (k + 1)) n

/-- There is one timer for a callback and its data. In one walk none is fired twice, and none is
fired that was removed. Only items of the list are read, and the walk ends whatever the callbacks
do, as long as it is good. -/
structure TimersKept (s : State) : Prop where
  unique : (s.timers.map TimerItem.key).Nodup
  once : ∀ p ∈ s.pass, p.fired.Nodup
  order : s.trace.Pairwise NotAfter
  inside : s.fault = false
  ends : ∀ ops : ℕ → List TimerOp, (∀ n, Good (after s ops n) (.turn (ops n))) →
    ∃ n, (after s ops n).pass = none

/-- There are finitely many callbacks and pointers. -/
instance : Finite TimerKey := by
  refine Finite.of_injective (fun key => (key.callback, key.userData)) ?_
  rintro ⟨callback, userData⟩ ⟨callback', userData'⟩ heq
  cases heq
  rfl

/-- Each turn fires a timer that was not fired before, or comes closer to the end of the list. -/
theorem ends_of_bound {bound : ℕ}
    (hbound : ∀ fired : List TimerKey, fired.Nodup → fired.length ≤ bound) (left behind : ℕ) :
    ∀ {s : State} {p : Pass} {front back : List TimerItem} {ops : ℕ → List TimerOp},
      TimersInv s → s.pass = some p → Walking s p front back → bound - p.fired.length = left →
      back.length = behind → (∀ n, Good (after s ops n) (.turn (ops n))) →
      ∃ n, (after s ops n).pass = none := by
  induction left using Nat.strong_induction_on generalizing behind with
  | _ left ihleft =>
    induction behind using Nat.strong_induction_on with
    | _ behind ihbehind =>
      intro s p front back ops h hp hw hleft hbehind hgood
      have hnext (n : ℕ) : after s ops (n + 1) =
          after (s.turn p (ops 0)) (fun k => ops (k + 1)) n := by
        rw [after, hp]
      have hrest : ∀ n, Good (after (s.turn p (ops 0)) (fun k => ops (k + 1)) n)
          (.turn (ops (n + 1))) := by
        intro n
        rw [← hnext]
        exact hgood (n + 1)
      obtain ⟨hinv, hend | ⟨p', front', back', hp', hw', hcloser⟩⟩ := h.turn hp hw (hgood 0)
      · refine ⟨1, ?_⟩
        rw [hnext]
        exact hend
      · have hsooner : ∃ n, (after (s.turn p (ops 0)) (fun k => ops (k + 1)) n).pass = none := by
          rcases hcloser with hfired | ⟨hfired, hback⟩
          · have hroom := hbound p'.fired hw'.once
            exact ihleft _ (by omega) _ hinv hp' hw' rfl rfl hrest
          · rw [← hfired] at hleft
            exact ihbehind _ (by omega) hinv hp' hw' hleft rfl hrest
        obtain ⟨n, hn⟩ := hsooner
        refine ⟨n + 1, ?_⟩
        rw [hnext]
        exact hn

theorem TimersInv.kept (h : TimersInv s) : TimersKept s where
  unique := h.keys
  once := by
    intro p hp
    obtain ⟨front, back, hw⟩ := h.walking p hp
    exact hw.once
  order := h.order
  inside := h.fault
  ends := by
    intro ops hgood
    have := Fintype.ofFinite TimerKey
    rcases hpass : s.pass with _ | p
    · exact ⟨0, hpass⟩
    · obtain ⟨front, back, hw⟩ := h.walking p hpass
      exact ends_of_bound (fun _ hnodup => hnodup.length_le_card) _ _ h hpass hw rfl rfl hgood

theorem TimersInv.step {s s' : State} {e : Event} (h : TimersInv s) (hgood : Good s e)
    (hstep : step s e = some s') : TimersInv s' := by
  cases e with
  | call op =>
    rw [EventTimers.step] at hstep
    split at hstep
    · next hpass =>
      cases hstep
      refine h.apply ?_
      cases op with
      | add key interval now =>
        intro p hp
        rw [hpass] at hp
        cases hp
      | remove key =>
        intro p hp
        rw [hpass] at hp
        cases hp
    · cases hstep
  | check now =>
    rw [EventTimers.step] at hstep
    split at hstep
    · cases hstep
      refine ⟨h.keys, h.ids, h.fresh, h.fault, h.gone, h.order, ?_⟩
      intro p hp
      cases Option.some.inj hp
      refine ⟨[], s.timers, Cursor.At.start s.timers, List.nodup_nil, ?_⟩
      intro item _ hfired
      cases hfired
    · cases hstep
  | turn ops =>
    rw [EventTimers.step] at hstep
    split at hstep
    · cases hstep
    · next p hpass =>
      split at hstep
      · cases hstep
      · cases hstep
        obtain ⟨front, back, hw⟩ := h.walking p hpass
        exact (h.turn hpass hw hgood).1

/-- In every run in which no callback removes the timer behind its own, or sets a timer again that
was fired so that it is due in the same walk. -/
theorem timers_kept {s : State} (h : Run.Reaches step Good {} s) : TimersKept s := by
  have hinv : TimersInv s := by
    refine h.invariant TimersInv ?_ fun _ _ _ hinv hgood hstep => hinv.step hgood hstep
    refine ⟨List.nodup_nil, List.nodup_nil, ?_, rfl, ?_, List.Pairwise.nil, ?_⟩
    · intro item hitem
      cases hitem
    · intro id hid
      cases hid
    · intro p hp
      cases hp
  exact hinv.kept

/-- Two timers, of which both are due. -/
def twoDue : List Event :=
  [.call (.add ⟨1, 0⟩ 10 100), .call (.add ⟨2, 0⟩ 10 100), .check 120]

/-- The first callback removes its own timer and adds another. -/
theorem timers_kept_two_due :
    ∃ s, Run.runGood step Good {} (twoDue ++
        [.turn [.remove ⟨1, 0⟩, .add ⟨3, 0⟩ 10 120], .turn [], .turn []]) = some s ∧
      s.trace = [.fired 0, .removed 0, .fired 1] ∧ TimersKept s := by
  have hrun : ∃ s, Run.runGood step Good {} (twoDue ++
      [.turn [.remove ⟨1, 0⟩, .add ⟨3, 0⟩ 10 120], .turn [], .turn []]) = some s ∧
      s.trace = [.fired 0, .removed 0, .fired 1] := ⟨_, rfl, by decide⟩
  obtain ⟨s, hs, htrace⟩ := hrun
  exact ⟨s, hs, htrace, timers_kept (Run.reaches_of_runGood hs)⟩

/-- The first callback removes the second timer, to which the iterator has moved. -/
theorem not_timers_kept :
    ∃ s, Run.run step {} (twoDue ++ [.turn [.remove ⟨2, 0⟩], .turn []]) = some s ∧
      ¬TimersKept s := by
  refine ⟨_, rfl, fun hkept => ?_⟩
  exact absurd hkept.inside (by decide)

end EventTimers

end ImServer
