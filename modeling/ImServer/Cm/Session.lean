import ImServer.Cm.ConnectionManager
import ImServer.Lib.Index

/-!
# Sessions of the connection manager

A session id is only ever given to a link that is logging in, and a link gives up
its session id when it is closed. So the session map leads to open links, and to
each of them under the session id that the link has. One thing can spoil this: a
worker may close a link while a callback on it is still running, and a login packet
that the callback then handles is accepted as on an open link.
-/

namespace ImServer

namespace Cm

open CTransimission CClientLinkMgr

/-- Logins are accepted on open links only. -/
def LoginsOpen (s : State) : Event → Prop
  | .handlePdu l pdu _ => AcceptsLogin s.mgr l pdu → (s.mgr.links l).life = .live
  | _ => True

instance (s : State) : (e : Event) → Decidable (LoginsOpen s e)
  | .handlePdu .. => inferInstanceAs (Decidable (_ → _))
  | .connect .. | .lookUp .. | .release .. | .onClose .. | .onClientTimeout .. | .serverPdu ..
  | .loginReply .. | .procPdu .. => .isTrue trivial

/-- The session map leads to open links that are logged in or logging in, and each is
found under its own session id. -/
def SessionInv (m : CClientLinkMgr) : Prop :=
  ∀ sid l, m.sessionLink sid = some l →
    (m.links l).life = .live ∧ (m.links l).sessionId = sid ∧
      ((m.links l).bRegist = true ∨ (m.links l).bLogining = true)

variable {m m' : CClientLinkMgr} {l : LinkId} {s s' : State} {e : Event}

theorem SessionInv.of_core_eq (h : SessionInv m) (hcore : m'.core = m.core) : SessionInv m' := by
  have hinv : SessionInv m.core := h
  rw [← hcore] at hinv
  exact hinv

theorem SessionInv.of_update (h : SessionInv m) {k : CClientLink}
    (hlinks : m'.links = Function.update m.links l k)
    (hother : ∀ sid l', l' ≠ l → m'.sessionLink sid = some l' → m.sessionLink sid = some l')
    (hself : ∀ sid, m'.sessionLink sid = some l →
      k.life = .live ∧ k.sessionId = sid ∧ (k.bRegist = true ∨ k.bLogining = true)) :
    SessionInv m' := by
  intro sid l' hl'
  rw [hlinks]
  by_cases heq : l' = l
  · subst heq
    rw [Function.update_self]
    exact hself sid hl'
  · rw [Function.update_of_ne heq]
    exact h sid l' (hother sid l' heq hl')

theorem SessionInv.onConnect (h : SessionInv m) (hunborn : (m.links l).life = .unborn)
    (ip : String) (port : UInt16) : SessionInv (m.onConnect l .mobileLogin ip port) := by
  refine h.of_update rfl (fun _ _ _ => id) ?_
  intro sid hl
  rw [(h sid l hl).1] at hunborn
  cases hunborn

/-- The sessions after a login: the new one, and some of those before. -/
theorem sessionLink_of_pretreat {old sid sid' : UidCode} {l' : LinkId}
    (h : (if Function.update m.sessionLink old none sid = none then
        Function.update (Function.update m.sessionLink old none) sid (some l)
      else Function.update m.sessionLink old none) sid' = some l') :
    (sid' = sid ∧ l' = l) ∨ m.sessionLink sid' = some l' := by
  split at h
  · rcases Index.update_some_eq_some.mp h with ⟨hsid, hl'⟩ | ⟨-, h⟩
    · exact .inl ⟨hsid, hl'.symm⟩
    · exact .inr (Index.update_none_eq_some.mp h).2
  · exact .inr (Index.update_none_eq_some.mp h).2

theorem SessionInv.onLoginPretreat (h : SessionInv m) (hlive : (m.links l).life = .live)
    (remote : String × UInt16) (uninit sid : UidCode) :
    SessionInv ((m.onLoginPretreat l remote uninit sid).getD m) := by
  by_cases hbusy : ((m.links l).bRegist || (m.links l).bLogining) = true
  · rw [CClientLinkMgr.onLoginPretreat, if_pos hbusy]
    exact h
  · obtain ⟨hregist, hlogining⟩ := Bool.or_eq_false_iff.mp (eq_false_of_ne_true hbusy)
    rw [onLoginPretreat_eq hregist hlogining, Option.getD_some]
    -- A link that is not logged in and not logging in has no session yet.
    have hnone {sid' : UidCode} : m.sessionLink sid' ≠ some l := by
      intro hl
      rcases (h _ _ hl).2.2 with hbad | hbad
      · rw [hregist] at hbad
        cases hbad
      · rw [hlogining] at hbad
        cases hbad
    refine h.of_update rfl ?_ ?_
    · intro sid' l' hne hl'
      rcases sessionLink_of_pretreat hl' with ⟨-, heq⟩ | hold
      · exact absurd heq hne
      · exact hold
    · intro sid' hl'
      rcases sessionLink_of_pretreat hl' with ⟨hsid, -⟩ | hold
      · refine ⟨?_, hsid.symm, .inr rfl⟩
        unfold CClientLink.withRemote
        split <;> exact hlive
      · exact absurd hold hnone

theorem SessionInv.closeLink (h : SessionInv m) (b : Bool) : SessionInv (m.closeLink l b) := by
  rw [closeLink_eq]
  refine h.of_update rfl ?_ ?_
  · intro sid l' _ hl'
    exact (Index.update_none_eq_some.mp hl').2
  · intro sid hl
    obtain ⟨hne, hl⟩ := Index.update_none_eq_some.mp hl
    exact absurd (h sid l hl).2.1.symm hne

theorem SessionInv.userArrived (h : SessionInv m) (user : String) :
    SessionInv (m.userArrived l user) := by
  rw [userArrived_eq]
  refine h.of_update rfl (fun _ _ _ => id) ?_
  intro sid hl
  obtain ⟨hlive, hsid, -⟩ := h sid l hl
  exact ⟨hlive, hsid, .inl rfl⟩

theorem SessionInv.setClosing (h : SessionInv m) : SessionInv (m.setClosing l) :=
  h.of_update rfl (fun _ _ _ => id) fun sid => h sid l

theorem SessionInv.close (h : SessionInv m) : SessionInv (m.close l).1 := by
  rcases m.close_cases (l := l) with ⟨-, heq⟩ | ⟨-, -, heq⟩ | ⟨-, hregist, -, heq⟩
  · rw [heq]
    exact h
  · rw [heq]
    exact h.setClosing.closeLink true
  · rw [heq]
    refine h.setClosing.of_update rfl (fun _ _ _ => id) ?_
    intro sid hl
    obtain ⟨hlive, hsid, -⟩ := h.setClosing sid l hl
    refine ⟨hlive, hsid, .inl ?_⟩
    simpa only [CClientLinkMgr.setClosing, modify_links_self] using hregist

theorem SessionInv.onClose (h : SessionInv m) : SessionInv (m.onClose l).1 := by
  simp only [CClientLinkMgr.onClose]
  split
  · exact h.close
  · exact h

theorem SessionInv.apply (h : SessionInv m) (a : Action) : SessionInv (a.apply m) := by
  cases a with
  | nothing => exact h
  | close l b => exact h.closeLink b
  | bind l user old =>
    cases old with
    | none => exact h.userArrived user
    | some old => exact (h.closeLink true).userArrived user

/-- Every event keeps the session map, if it accepts no login on a closed link. -/
theorem SessionInv.step (h : SessionInv s.mgr) (hopen : LoginsOpen s e)
    (hstep : step s e = some s') : SessionInv s'.mgr := by
  refine SessionInv.of_core_eq ?_ (step_core hstep)
  cases e with
  | connect l ip port =>
    obtain ⟨hunborn, -⟩ := Option.ite_none_right_eq_some.mp hstep
    exact h.onConnect hunborn ip port
  | handlePdu l pdu out =>
    simp only [mgrAfter]
    split
    · next haccept => exact h.onLoginPretreat (hopen haccept) _ _ _
    · exact h
  | onClose l => exact h.onClose
  | onClientTimeout l => exact h.close
  | procPdu i uninit =>
    simp only [mgrAfter]
    split
    · exact h
    · exact h.apply _
  | _ => exact h

end Cm

end ImServer
