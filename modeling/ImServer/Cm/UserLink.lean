import ImServer.Base.LinkRegistry
import ImServer.Cm.Session

/-!
# One link for each user

A login result binds its user to a link and closes the link that the user had
before. The user map and the user ids of the open links then say the same, as long
as no link is given a second user: `UserArrived` forgets the entry of the first.
-/

namespace ImServer

namespace Cm

open CTransimission CClientLinkMgr CClientLink

/-- The user map finds open links that carry the user, and every open link that
carries a user is the one found. -/
structure OneLinkPerUser (m : CClientLinkMgr) : Prop where
  found : ∀ user l, m.userLink user = some l →
    (m.links l).life = .live ∧ (m.links l).userId = user
  carried : ∀ l, (m.links l).life = .live → (m.links l).userId ≠ "" →
    m.userLink (m.links l).userId = some l

/-- A user is not bound to a link that carries another user. -/
def BindsNoSecond (m : CClientLinkMgr) : Action → Prop
  | .bind l user _ => (m.links l).userId = "" ∨ (m.links l).userId = user
  | _ => True

instance (m : CClientLinkMgr) : (a : Action) → Decidable (BindsNoSecond m a)
  | .bind .. => inferInstanceAs (Decidable (_ ∨ _))
  | .nothing | .close .. => .isTrue trivial

/-- A successful login result does not meet a link that carries another user. -/
def NoSecondUser (s : State) : Event → Prop
  | .procPdu i uninit => ∀ q ∈ s.queue[i]?, BindsNoSecond s.mgr (action s.mgr q.pdu uninit)
  | _ => True

instance (s : State) : (e : Event) → Decidable (NoSecondUser s e)
  | .procPdu .. => inferInstanceAs (Decidable (∀ _ ∈ _, _))
  | .connect .. | .lookUp .. | .release .. | .handlePdu .. | .onClose .. | .onClientTimeout ..
  | .serverPdu .. | .loginReply .. => .isTrue trivial

def UserGood (s : State) (e : Event) : Prop := LoginsOpen s e ∧ NoSecondUser s e

instance (s : State) (e : Event) : Decidable (UserGood s e) := inferInstanceAs (Decidable (_ ∧ _))

/-- The user map is the index of the open links by their users. -/
structure UserInv (m : CClientLinkMgr) : Prop where
  agrees : Index.Agrees m.userLink (userKey ∘ m.links)
  openOnly : ∀ l, (m.links l).userId ≠ "" → (m.links l).life = .live

variable {m m' : CClientLinkMgr} {l : LinkId} {s s' : State} {e : Event}

theorem UserInv.oneLinkPerUser (h : UserInv m) : OneLinkPerUser m where
  found user l hl := by
    obtain ⟨hlive, -, huser⟩ := userKey_eq_some.mp ((h.agrees user l).mp hl)
    exact ⟨hlive, huser⟩
  carried l hlive hname := (h.agrees _ l).mpr (userKey_eq_some.mpr ⟨hlive, hname, rfl⟩)

theorem userInv_empty : UserInv {} where
  agrees := by simp [Index.Agrees, userKey]
  openOnly := fun _ => absurd rfl

theorem UserInv.of_core_eq (h : UserInv m) (hcore : m'.core = m.core) : UserInv m' := by
  have hinv : UserInv m.core := ⟨h.agrees, h.openOnly⟩
  rw [← hcore] at hinv
  exact ⟨hinv.agrees, hinv.openOnly⟩

theorem UserInv.of_update (h : UserInv m) {k : CClientLink}
    (hlinks : m'.links = Function.update m.links l k)
    (hagrees : Index.Agrees m'.userLink (Function.update (userKey ∘ m.links) l k.userKey))
    (hopen : k.userId ≠ "" → k.life = .live) : UserInv m' := by
  constructor
  · rwa [hlinks, Function.comp_update]
  · intro l'
    rw [hlinks]
    by_cases hl' : l' = l
    · rw [hl', Function.update_self]
      exact hopen
    · rw [Function.update_of_ne hl']
      exact h.openOnly l'

/-- A change that concerns neither the user nor the life of the link. -/
theorem UserInv.of_same (h : UserInv m) {k : CClientLink}
    (hlinks : m'.links = Function.update m.links l k) (husers : m'.userLink = m.userLink)
    (hlife : k.life = (m.links l).life) (huser : k.userId = (m.links l).userId) : UserInv m' := by
  refine h.of_update hlinks ?_ ?_
  · rw [husers]
    refine h.agrees.of_key_eq ?_
    simp only [userKey, hlife, huser, Function.comp_apply]
  · rw [hlife, huser]
    exact h.openOnly l

theorem UserInv.onConnect (h : UserInv m) (hunborn : (m.links l).life = .unborn) (ip : String)
    (port : UInt16) : UserInv (m.onConnect l .mobileLogin ip port) := by
  refine h.of_update rfl (h.agrees.of_key_eq ?_) fun hne => absurd rfl hne
  simp [userKey, hunborn]

theorem UserInv.onLoginPretreat (h : UserInv m) (remote : String × UInt16) (uninit sid : UidCode) :
    UserInv ((m.onLoginPretreat l remote uninit sid).getD m) := by
  by_cases hbusy : ((m.links l).bRegist || (m.links l).bLogining) = true
  · rw [CClientLinkMgr.onLoginPretreat, if_pos hbusy]
    exact h
  · obtain ⟨hregist, hlogining⟩ := Bool.or_eq_false_iff.mp (eq_false_of_ne_true hbusy)
    rw [onLoginPretreat_eq hregist hlogining, Option.getD_some]
    refine h.of_same rfl rfl ?_ ?_
    · unfold CClientLink.withRemote
      split <;> rfl
    · unfold CClientLink.withRemote
      split <;> rfl

/-- The link that is closed gives up its user, which it has in the user map. -/
theorem UserInv.closeLink (h : UserInv m) {b : Bool}
    (hb : b = true ∨ (m.links l).userId = "" ∨ m.userLink (m.links l).userId ≠ some l) :
    UserInv (m.closeLink l b) := by
  have hexact := closeLink_userLink h.agrees (h.openOnly l) hb
  refine h.of_update (closeLink_links b) ?_ fun hne => absurd rfl hne
  have hkey : (m.links l).afterClose.userKey = none := if_neg fun hkey => hkey.2 rfl
  rw [hkey]
  exact h.agrees.remove hexact

theorem UserInv.userArrived (h : UserInv m) {user : String} (hlive : (m.links l).life = .live)
    (hcarries : (m.links l).userId = "" ∨ (m.links l).userId = user)
    (hfree : m.userLink user = none ∨ m.userLink user = some l) :
    UserInv (m.userArrived l user) :=
  h.of_update (userArrived_links user) (userArrived_userLink h.agrees hlive hcarries hfree)
    fun _ => hlive

theorem UserInv.setClosing (h : UserInv m) : UserInv (m.setClosing l) := h.of_same rfl rfl rfl rfl

theorem UserInv.close (h : UserInv m) : UserInv (m.close l).1 := by
  rcases m.close_cases (l := l) with ⟨-, heq⟩ | ⟨-, -, heq⟩ | ⟨-, -, -, heq⟩
  · rw [heq]
    exact h
  · rw [heq]
    exact h.setClosing.closeLink (.inl rfl)
  · rw [heq]
    exact h.setClosing.of_same rfl rfl rfl rfl

theorem UserInv.onClose (h : UserInv m) : UserInv (m.onClose l).1 := by
  simp only [CClientLinkMgr.onClose]
  split
  · exact h.close
  · exact h

/-- Another link of the user is closed before the user arrives on `l`. -/
theorem UserInv.replace (h : UserInv m) {user : String} {old : LinkId}
    (hlive : (m.links l).life = .live)
    (hcarries : (m.links l).userId = "" ∨ (m.links l).userId = user)
    (hold : m.userLink user = some old) (hne : old ≠ l) :
    UserInv ((m.closeLink old true).userArrived l user) := by
  have hkeep : (m.closeLink old true).links l = m.links l :=
    closeLink_links_of_ne (Ne.symm hne) true
  refine (h.closeLink (.inl rfl)).userArrived ?_ ?_ (.inl ?_)
  · rw [hkeep]
    exact hlive
  · rw [hkeep]
    exact hcarries
  · rw [closeLink_userLink h.agrees (h.openOnly old) (.inl rfl), if_pos hold]

/-- What processing a packet does keeps the user map, if no link gets a second user. -/
theorem UserInv.apply (h : UserInv m) (hsession : SessionInv m) {pdu : Pdu} {uninit : UidCode}
    (hsecond : BindsNoSecond m (action m pdu uninit)) : UserInv ((action m pdu uninit).apply m) := by
  cases haction : action m pdu uninit with
  | nothing => exact h
  | close l b => exact h.closeLink (action_eq_close haction).2
  | bind l user old =>
    rw [haction] at hsecond
    obtain ⟨-, res, -, -, -, -, hfound, hold⟩ := action_eq_bind haction
    have hlive := (hsession _ l hfound).1
    cases hu : m.userLink user with
    | none =>
      rw [hold, hu]
      exact h.userArrived hlive hsecond (.inl hu)
    | some l' =>
      rw [hold, hu]
      by_cases heq : l' = l
      · subst heq
        simp only [Option.filter_some, ne_eq, not_true_eq_false, decide_false,
          Bool.false_eq_true, if_false]
        exact h.userArrived hlive hsecond (.inr hu)
      · simp only [Option.filter_some, ne_eq, heq, not_false_eq_true, decide_true, if_true]
        exact h.replace hlive hsecond hu heq

theorem UserInv.step (h : UserInv s.mgr) (hsession : SessionInv s.mgr) (hgood : UserGood s e)
    (hstep : step s e = some s') : UserInv s'.mgr := by
  refine UserInv.of_core_eq ?_ (step_core hstep)
  cases e with
  | connect l ip port =>
    obtain ⟨hunborn, -⟩ := Option.ite_none_right_eq_some.mp hstep
    exact h.onConnect hunborn ip port
  | handlePdu l pdu out =>
    simp only [mgrAfter]
    split
    · exact h.onLoginPretreat _ _ _
    · exact h
  | onClose l => exact h.onClose
  | onClientTimeout l => exact h.close
  | procPdu i uninit =>
    simp only [mgrAfter]
    split
    · exact h
    · next q hq => exact h.apply hsession (hgood.2 q hq)
  | _ => exact h

/-- In every run in which logins are accepted on open links only and no link is given
a second user, a user has one link: the open link that carries the user. -/
theorem one_link_per_user (h : Run.Reaches step UserGood {} s) : OneLinkPerUser s.mgr := by
  have hinv : SessionInv s.mgr ∧ UserInv s.mgr := by
    refine h.invariant (fun s => SessionInv s.mgr ∧ UserInv s.mgr) ?_ ?_
    · exact ⟨nofun, userInv_empty⟩
    · intro s e s' hinv hgood hstep
      exact ⟨hinv.1.step hgood.1 hstep, hinv.2.step hinv.1 hgood hstep⟩
  exact hinv.2.oneLinkPerUser

/-- A user logs in on one link and then on another one. -/
def loginTwice : List Event :=
  loginEvents 0 "10.0.0.1" 80 (Vector.replicate 12 1) ++ answerEvents 0 "10.0.0.1:80" "7" ++
    loginEvents 1 "10.0.0.2" 80 (Vector.replicate 12 2) ++ answerEvents 1 "10.0.0.2:80" "7"

theorem one_link_per_user_login_twice :
    ∃ s, Run.runGood step UserGood {} loginTwice = some s ∧ s.mgr.userLink "CM_7" = some 1 ∧
      OneLinkPerUser s.mgr := by
  have hrun : ∃ s, Run.runGood step UserGood {} loginTwice = some s ∧
      s.mgr.userLink "CM_7" = some 1 := ⟨_, rfl, by decide⟩
  obtain ⟨s, hs, huser⟩ := hrun
  exact ⟨s, hs, huser, one_link_per_user (Run.reaches_of_runGood hs)⟩

/-- A second login result for the link of one login names another user. The first user
is still mapped to the link, which carries the second one. -/
theorem not_one_link_per_user_second :
    ∃ s, Run.run step {} (loginEvents 0 "10.0.0.1" 80 (Vector.replicate 12 1) ++
        answerEvents 0 "10.0.0.1:80" "7" ++ answerEvents 0 "10.0.0.1:80" "8") = some s ∧
      ¬ OneLinkPerUser s.mgr := by
  refine ⟨_, rfl, fun hone => ?_⟩
  have hcarries := (hone.found "CM_7" 0 (by decide)).2
  revert hcarries
  decide

end Cm

end ImServer
