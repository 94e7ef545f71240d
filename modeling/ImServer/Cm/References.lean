import ImServer.Cm.UserLink

/-!
# Reference counts of client links

A link is created with one reference, which `CloseLink` releases, and every look-up
takes one more that its handler gives back. So the count of an open link is one more
than the number of look-ups in progress, and a closed link is deleted with the last
of them. Three things break this: `UpdateUserLink` keeps the reference of a user
whose link is the current link already, entries that are left in the user map lead
to deleted links, and `Close` runs `CloseLink` again on a link that a worker closed.
-/

namespace ImServer

namespace CClientLinkMgr

variable {m : CClientLinkMgr} {l l' : LinkId}

/-- A look-up that is given back leaves no trace on a link that is referenced. -/
theorem releaseRef_addRef (h : 0 < (m.links l).refCount) : (m.addRef l).releaseRef l = m := by
  have hne : (m.links l).refCount ≠ 0 := Int.ne_of_gt h
  simp only [releaseRef, addRef, modify, Function.update_self, Function.update_idem,
    Int.add_sub_cancel, if_neg hne, Function.update_eq_self]

theorem hostLinkAfterClose_addRef :
    (m.addRef l).hostLinkAfterClose l' = m.hostLinkAfterClose l' :=
  (congrArg (fun m => CClientLinkMgr.hostLinkAfterClose m l') core_addRef :)

theorem releaseRef_closeLink_addRef (h : 0 < (m.links l).refCount) (b : Bool) :
    ((m.addRef l).closeLink l b).releaseRef l = m.closeLink l b := by
  have hne : (m.links l).refCount ≠ 0 := Int.ne_of_gt h
  rw [closeLink_eq, closeLink_eq, hostLinkAfterClose_addRef]
  simp only [releaseRef, addRef, modify, Function.update_self, Function.update_idem,
    CClientLink.afterClose, Int.add_sub_cancel, if_neg hne]

theorem closeLink_addRef_of_ne (h : l ≠ l') (b : Bool) :
    (m.addRef l).closeLink l' b = (m.closeLink l' b).addRef l := by
  rw [closeLink_eq, closeLink_eq, hostLinkAfterClose_addRef]
  simp only [addRef, modify, Function.update_of_ne h, Function.update_of_ne (Ne.symm h),
    Function.update_comm h]

theorem releaseRef_addRef_of_ne (h : l ≠ l') :
    (m.addRef l).releaseRef l' = (m.releaseRef l').addRef l := by
  simp only [releaseRef, addRef, modify, Function.update_of_ne h, Function.update_of_ne (Ne.symm h),
    Function.update_comm h]

theorem refCount_addRef_pos (h : 0 < (m.links l).refCount) :
    0 < ((m.addRef l').links l).refCount := by
  by_cases hl : l = l'
  · subst hl
    simp only [addRef, modify_links_self]
    omega
  · rwa [addRef, modify_links_of_ne _ hl]

theorem userArrived_addRef (user : String) :
    (m.addRef l).userArrived l user = (m.userArrived l user).addRef l := by
  rw [userArrived_eq, userArrived_eq]
  simp only [addRef, modify, Function.update_self, Function.update_idem]
  rfl

/-- The links that can be found have references. -/
structure Referenced (m : CClientLinkMgr) : Prop where
  session : ∀ {sid l}, m.sessionLink sid = some l → 0 < (m.links l).refCount
  user : ∀ {user l}, m.userLink user = some l → 0 < (m.links l).refCount

theorem Referenced.visitSession_eq (h : m.Referenced) (sid : UidCode) : m.visitSession sid = m := by
  unfold visitSession
  cases hl : m.sessionLink sid with
  | none => rw [getLinkBySessionId_of_none hl]
  | some l =>
    rw [getLinkBySessionId_of_some hl]
    exact releaseRef_addRef (h.session hl)

end CClientLinkMgr

namespace CTransimission

open CClientLinkMgr

variable {m : CClientLinkMgr}

theorem sendPduToUser_of_referenced (h : m.Referenced) {user : String} (hname : user ≠ "") :
    sendPduToUser m user = (m, (m.userLink user).isSome) := by
  unfold sendPduToUser
  cases hl : m.userLink user with
  | none =>
    rw [getLinkByUserId_of_none (.inr hl)]
    rfl
  | some l =>
    rw [getLinkByUserId_of_some hname hl]
    exact congrArg (·, true) (releaseRef_addRef (h.user hl))

theorem transTo_of_referenced (h : m.Referenced) (service : Service) (pdu : Pdu) :
    (transTo m service pdu).1 = m := by
  unfold transTo
  cases hl : m.sessionLink pdu.sessionId with
  | none => rw [getLinkBySessionId_of_none hl]
  | some l =>
    rw [getLinkBySessionId_of_some hl]
    dsimp only
    split <;> exact releaseRef_addRef (h.session hl)

theorem onLoginTrans_of_referenced (h : m.Referenced) (pdu : Pdu) : (onLoginTrans m pdu).1 = m := by
  unfold onLoginTrans
  split
  · cases hl : m.sessionLink pdu.sessionId with
    | none => rw [getLinkBySessionId_of_none hl]
    | some l =>
      rw [getLinkBySessionId_of_some hl]
      exact releaseRef_addRef (h.session hl)
  · exact transTo_of_referenced h _ pdu

theorem closeUserLink_of_referenced (h : m.Referenced) {user : String} (hname : user ≠ "") :
    closeUserLink m user = (closeUserAction m user).apply m := by
  unfold closeUserLink closeUserAction
  cases hl : m.userLink user with
  | none =>
    rw [getLinkByUserId_of_none (.inr hl)]
    rfl
  | some l =>
    rw [getLinkByUserId_of_some hname hl]
    exact releaseRef_closeLink_addRef (h.user hl) true

theorem onClientExange_of_referenced (h : m.Referenced) (pdu : Pdu) : onClientExange m pdu = m := by
  unfold onClientExange getUserId
  cases pdu.body with
  | addressed sUserId =>
    simp only [sendPduToUser_of_referenced h (prefixCmStr_append_ne sUserId)]
  | _ => rfl

theorem onClientTrans_of_referenced (h : m.Referenced) (pdu : Pdu) (uninit : UidCode)
    (hexecutor : packetExecutor pdu.commandId = some .onClientTrans) :
    onClientTrans m pdu = (action m pdu uninit).apply m := by
  unfold onClientTrans getUserId action
  rw [hexecutor]
  cases pdu.body with
  | addressed sUserId =>
    have hname := prefixCmStr_append_ne sUserId
    simp only [sendPduToUser_of_referenced h hname]
    cases hl : m.userLink (prefixCmStr ++ sUserId) with
    | none => simp only [Option.isSome_none, closeUserAction, hl, ite_self, Action.apply]
    | some l =>
      simp only [Option.isSome_some]
      split
      · exact closeUserLink_of_referenced h hname
      · rfl
  | _ => rfl

theorem onLoginCMNotify_of_referenced (h : m.Referenced) (pdu : Pdu) (uninit : UidCode)
    (hexecutor : packetExecutor pdu.commandId = some .onLoginCMNotify) :
    onLoginCMNotify m pdu = (action m pdu uninit).apply m := by
  unfold onLoginCMNotify action
  rw [hexecutor]
  cases pdu.body with
  | loginCMNotify sUserId => exact closeUserLink_of_referenced h (prefixCmStr_append_ne sUserId)
  | _ => rfl

/-- Two look-ups, of the link of the session and of the link of its user. -/
theorem onCloseLink_of_referenced (h : m.Referenced) (pdu : Pdu) (uninit : UidCode)
    (hexecutor : packetExecutor pdu.commandId = some .onCloseLink) :
    onCloseLink m pdu = (action m pdu uninit).apply m := by
  unfold onCloseLink action
  rw [hexecutor]
  cases hl : m.sessionLink pdu.sessionId with
  | none =>
    rw [getLinkBySessionId_of_none hl]
    rfl
  | some l =>
    have hcount := h.session hl
    rw [getLinkBySessionId_of_some hl]
    dsimp only
    have huser : ((m.addRef l).links l).userId = (m.links l).userId := modify_field _ rfl
    rw [huser]
    by_cases hname : (m.links l).userId = ""
    · rw [getLinkByUserId_of_none (.inl hname)]
      simp only [hname, ne_eq, not_true_eq_false, false_and, decide_false, reduceCtorEq]
      exact releaseRef_closeLink_addRef hcount false
    · cases hu : m.userLink (m.links l).userId with
      | none =>
        have hu' : (m.addRef l).userLink (m.links l).userId = none := hu
        rw [getLinkByUserId_of_none (.inr hu')]
        simp only [reduceCtorEq, and_false, decide_false]
        exact releaseRef_closeLink_addRef hcount false
      | some l' =>
        have hu' : (m.addRef l).userLink (m.links l).userId = some l' := hu
        rw [getLinkByUserId_of_some hname hu']
        simp only [ne_eq, hname, not_false_eq_true, true_and, Option.some.injEq]
        have hcount' := h.user hu
        by_cases heq : l' = l
        · subst heq
          rw [releaseRef_closeLink_addRef (refCount_addRef_pos hcount),
            releaseRef_closeLink_addRef hcount]
          rfl
        · have hkeep : 0 < ((m.closeLink l (decide (l' = l))).links l').refCount := by
            rwa [closeLink_links_of_ne heq]
          rw [closeLink_addRef_of_ne heq, releaseRef_addRef_of_ne heq,
            releaseRef_closeLink_addRef hcount, releaseRef_addRef hkeep]
          rfl

/-- The user arrives on a link that is not the user's link already. -/
theorem updateUserLink_of_referenced (h : m.Referenced) {sid : UidCode} {user : String}
    (hname : user ≠ "")
    (hother : ∀ l, m.sessionLink sid = some l → m.userLink user ≠ some l) :
    updateUserLink m sid user = (bindAction m sid user).apply m := by
  unfold updateUserLink bindAction
  cases hl : m.sessionLink sid with
  | none =>
    rw [getLinkBySessionId_of_none hl]
    rfl
  | some l =>
    have hcount := h.session hl
    rw [getLinkBySessionId_of_some hl]
    dsimp only
    have harrived {m' : CClientLinkMgr} (hpos : 0 < (m'.links l).refCount) :
        ((m'.addRef l).userArrived l user).releaseRef l = m'.userArrived l user := by
      rw [userArrived_addRef, releaseRef_addRef]
      rw [userArrived_links, Function.update_self]
      exact hpos
    cases hu : m.userLink user with
    | none =>
      have hu' : (m.addRef l).userLink user = none := hu
      rw [getLinkByUserId_of_none (.inr hu')]
      exact harrived hcount
    | some old =>
      have hne : old ≠ l := by
        rintro rfl
        exact hother old hl hu
      have hu' : (m.addRef l).userLink user = some old := hu
      rw [getLinkByUserId_of_some hname hu']
      simp only [ne_eq, hne, not_false_eq_true, if_true, Option.filter_some, decide_true]
      rw [releaseRef_closeLink_addRef (refCount_addRef_pos (h.user hu)),
        closeLink_addRef_of_ne (Ne.symm hne), harrived]
      · rfl
      · rwa [closeLink_links_of_ne (Ne.symm hne)]

theorem onLoginResult_of_referenced (h : m.Referenced) (pdu : Pdu) (uninit : UidCode)
    (hexecutor : packetExecutor pdu.commandId = some .onLoginResult)
    (happly : ((action m pdu uninit).apply m).Referenced)
    (hother : ∀ l user old, action m pdu uninit = .bind l user old → m.userLink user ≠ some l) :
    onLoginResult m pdu uninit = (action m pdu uninit).apply m := by
  unfold onLoginResult
  cases hbody : pdu.body with
  | loginResult res =>
    have haction : action m pdu uninit = loginResultAction m res uninit := by
      unfold action
      rw [hexecutor, hbody]
    rw [haction] at happly hother ⊢
    simp only [loginResultAction] at happly hother ⊢
    split
    · next hsuccess =>
      rw [if_pos hsuccess] at happly
      rw [updateUserLink_of_referenced h (prefixCmStr_append_ne res.sUserId)]
      · exact happly.visitSession_eq _
      · intro l hl
        refine hother l _ ((m.userLink (prefixCmStr ++ res.sUserId)).filter fun l' => l' ≠ l) ?_
        rw [if_pos hsuccess, bindAction, hl]
    · have hack : (if res.type = .other then m
          else sendAck m (m.getSessionByHost res.sHost uninit)) = m := by
        rw [sendAck, h.visitSession_eq, ite_self]
      rw [hack, closeSessionAction]
      cases hl : m.sessionLink (m.getSessionByHost res.sHost uninit) with
      | none =>
        rw [getLinkBySessionId_of_none hl]
        rfl
      | some l =>
        rw [getLinkBySessionId_of_some hl]
        exact releaseRef_closeLink_addRef (h.session hl) true
  | _ =>
    unfold action
    rw [hexecutor, hbody]
    rfl

/-- Processing a packet gives back every reference, unless a user arrives again on the
link that the user already has. -/
theorem procPdu_of_referenced (h : m.Referenced) (pdu : Pdu) (uninit : UidCode)
    (happly : ((action m pdu uninit).apply m).Referenced)
    (hother : ∀ l user old, action m pdu uninit = .bind l user old → m.userLink user ≠ some l) :
    (procPdu m pdu uninit).1 = (action m pdu uninit).apply m := by
  unfold procPdu
  cases hexecutor : packetExecutor pdu.commandId with
  | none => simp only [action, hexecutor, Action.apply]
  | some executor =>
    cases executor with
    | onCloseLink => exact onCloseLink_of_referenced h pdu uninit hexecutor
    | onLoginCMNotify => exact onLoginCMNotify_of_referenced h pdu uninit hexecutor
    | onLoginResult => exact onLoginResult_of_referenced h pdu uninit hexecutor happly hother
    | onClientTrans => exact onClientTrans_of_referenced h pdu uninit hexecutor
    | onClientExange =>
      simp only [action, hexecutor, Action.apply]
      exact onClientExange_of_referenced h pdu
    | onLoginTrans =>
      simp only [action, hexecutor, Action.apply]
      exact onLoginTrans_of_referenced h pdu
    | onMsgTrans =>
      simp only [action, hexecutor, Action.apply]
      exact transTo_of_referenced h .msg pdu
    | onChannelTrans =>
      simp only [action, hexecutor, Action.apply]
      exact transTo_of_referenced h .channel pdu
    | onDesktopTrans =>
      simp only [action, hexecutor, Action.apply]
      exact transTo_of_referenced h .desktop pdu
    | onCmLoginNotifyAck => simp only [action, hexecutor, Action.apply]

end CTransimission

namespace Cm

open CTransimission CClientLinkMgr

/-- The count of a link on which `held` look-ups are in progress. -/
def Counted (k : CClientLink) (held : Nat) : Prop :=
  match k.life with
  | .unborn => held = 0
  | .live => k.refCount = 1 + held ∧ k.freed = 0
  | .closed => k.refCount = held ∧ k.freed = if held = 0 then 1 else 0

/-- Open links have one reference more than look-ups in progress; a closed link has one
for each, and was deleted once exactly when there is none left. -/
structure RefsBalanced (s : State) : Prop where
  live : ∀ l, (s.mgr.links l).life = .live →
    (s.mgr.links l).refCount = 1 + s.held l ∧ (s.mgr.links l).freed = 0
  closed : ∀ l, (s.mgr.links l).life = .closed →
    (s.mgr.links l).refCount = s.held l ∧
      (s.mgr.links l).freed = if s.held l = 0 then 1 else 0

/-- A user is bound to a link that carries no user yet. -/
def BindsToFree (m : CClientLinkMgr) : Action → Prop
  | .bind l _ _ => (m.links l).userId = ""
  | _ => True

instance (m : CClientLinkMgr) : (a : Action) → Decidable (BindsToFree m a)
  | .bind .. => inferInstanceAs (Decidable (_ = _))
  | .nothing | .close .. => .isTrue trivial

/-- Users arrive on links without a user, and `Close` does not meet a link that was
closed without it. -/
def CountGood (s : State) : Event → Prop
  | .procPdu i uninit => ∀ q ∈ s.queue[i]?, BindsToFree s.mgr (action s.mgr q.pdu uninit)
  | .onClose l | .onClientTimeout l =>
    (s.mgr.links l).life = .live ∨ (s.mgr.links l).bClosing = true
  | _ => True

instance (s : State) : (e : Event) → Decidable (CountGood s e)
  | .procPdu .. => inferInstanceAs (Decidable (∀ _ ∈ _, _))
  | .onClose _ | .onClientTimeout _ => inferInstanceAs (Decidable (_ ∨ _))
  | .connect .. | .lookUp .. | .release .. | .handlePdu .. | .serverPdu ..
  | .loginReply .. => .isTrue trivial

def RefsGood (s : State) (e : Event) : Prop := LoginsOpen s e ∧ CountGood s e

instance (s : State) (e : Event) : Decidable (RefsGood s e) := inferInstanceAs (Decidable (_ ∧ _))

variable {m : CClientLinkMgr} {l : LinkId} {s s' : State} {e : Event} {k k' : CClientLink} {n : Nat}

theorem RefsGood.userGood (h : RefsGood s e) : UserGood s e := by
  refine ⟨h.1, ?_⟩
  cases e with
  | procPdu i uninit =>
    intro q hq
    have hfree := h.2 q hq
    cases haction : action s.mgr q.pdu uninit with
    | bind l user old =>
      rw [haction] at hfree
      exact .inl hfree
    | _ => trivial
  | _ => trivial

theorem Counted.of_same (h : Counted k n) (hlife : k'.life = k.life)
    (hcount : k'.refCount = k.refCount) (hfreed : k'.freed = k.freed) : Counted k' n := by
  unfold Counted
  rw [hlife, hcount, hfreed]
  exact h

theorem Counted.addRef (h : Counted k n) (hlive : k.life = .live) :
    Counted { k with refCount := k.refCount + 1 } (n + 1) := by
  unfold Counted at h ⊢
  simp only [hlive] at h ⊢
  obtain ⟨hcount, hfreed⟩ := h
  refine ⟨?_, hfreed⟩
  rw [hcount]
  omega

theorem Counted.releaseRef (h : Counted k n) (hheld : 0 < n) :
    Counted { k with
      refCount := k.refCount - 1
      freed := if k.refCount - 1 = 0 then k.freed + 1 else k.freed } (n - 1) := by
  unfold Counted at h ⊢
  cases hlife : k.life with
  | unborn =>
    simp only [hlife] at h ⊢
    omega
  | live =>
    simp only [hlife] at h ⊢
    obtain ⟨hcount, hfreed⟩ := h
    refine ⟨by omega, ?_⟩
    rw [if_neg (by omega), hfreed]
  | closed =>
    simp only [hlife] at h ⊢
    obtain ⟨hcount, hfreed⟩ := h
    refine ⟨by omega, ?_⟩
    rw [hfreed, if_neg (Nat.ne_of_gt hheld)]
    refine if_congr ?_ rfl rfl
    omega

theorem Counted.afterClose (h : Counted k n) (hlive : k.life = .live) : Counted k.afterClose n := by
  unfold Counted at h ⊢
  simp only [hlive] at h
  obtain ⟨hcount, hfreed⟩ := h
  refine ⟨?_, ?_⟩
  · simp only [CClientLink.afterClose]
    omega
  · simp only [CClientLink.afterClose, hfreed]
    refine if_congr ?_ rfl rfl
    omega

/-- Every link of a registry is counted. -/
def AllCounted (m : CClientLinkMgr) (held : LinkId → Nat) : Prop :=
  ∀ l, Counted (m.links l) (held l)

variable {held : LinkId → Nat}

theorem AllCounted.refsBalanced (h : AllCounted s.mgr s.held) : RefsBalanced s where
  live l hlive := by
    have hl := h l
    simpa only [Counted, hlive] using hl
  closed l hclosed := by
    have hl := h l
    simpa only [Counted, hclosed] using hl

theorem AllCounted.pos (h : AllCounted m held) (hlive : (m.links l).life = .live) :
    0 < (m.links l).refCount := by
  have hl := h l
  simp only [Counted, hlive] at hl
  omega

theorem AllCounted.referenced (h : AllCounted m held) (hsession : SessionInv m)
    (huser : UserInv m) : m.Referenced where
  session hl := h.pos (hsession _ _ hl).1
  user hl := h.pos (huser.oneLinkPerUser.found _ _ hl).1

theorem AllCounted.update (h : AllCounted m held) {m' : CClientLinkMgr} {held' : LinkId → Nat}
    (hlinks : m'.links = Function.update m.links l k) (hheld : ∀ l' ≠ l, held' l' = held l')
    (hk : Counted k (held' l)) : AllCounted m' held' := by
  intro l'
  rw [hlinks]
  by_cases hl' : l' = l
  · rw [hl', Function.update_self]
    exact hk
  · rw [Function.update_of_ne hl', hheld l' hl']
    exact h l'

theorem AllCounted.addRef (h : AllCounted m held) (hlive : (m.links l).life = .live) :
    AllCounted (m.addRef l) (Function.update held l (held l + 1)) := by
  refine h.update rfl (fun _ hne => Function.update_of_ne hne ..) ?_
  rw [Function.update_self]
  exact (h l).addRef hlive

theorem AllCounted.releaseRef (h : AllCounted m held) (hheld : 0 < held l) :
    AllCounted (m.releaseRef l) (Function.update held l (held l - 1)) := by
  refine h.update rfl (fun _ hne => Function.update_of_ne hne ..) ?_
  rw [Function.update_self]
  exact (h l).releaseRef hheld

theorem AllCounted.closeLink (h : AllCounted m held) (hlive : (m.links l).life = .live) (b : Bool) :
    AllCounted (m.closeLink l b) held :=
  h.update (closeLink_links b) (fun _ _ => rfl) ((h l).afterClose hlive)

theorem AllCounted.setClosing (h : AllCounted m held) : AllCounted (m.setClosing l) held :=
  h.update rfl (fun _ _ => rfl) ((h l).of_same rfl rfl rfl)

theorem AllCounted.userArrived (h : AllCounted m held) (user : String) :
    AllCounted (m.userArrived l user) held :=
  h.update (userArrived_links user) (fun _ _ => rfl) ((h l).of_same rfl rfl rfl)

theorem AllCounted.onLoginPretreat (h : AllCounted m held) (remote : String × UInt16)
    (uninit sid : UidCode) : AllCounted ((m.onLoginPretreat l remote uninit sid).getD m) held := by
  intro l'
  refine (h l').of_same ?_ ?_ ?_
  · exact onLoginPretreat_field CClientLink.life fun _ _ _ _ => rfl
  · exact onLoginPretreat_field CClientLink.refCount fun _ _ _ _ => rfl
  · exact onLoginPretreat_field CClientLink.freed fun _ _ _ _ => rfl

/-- `Close` on an open link, or again on a link that is closing. -/
theorem AllCounted.close (h : AllCounted m held)
    (hopen : (m.links l).life = .live ∨ (m.links l).bClosing = true) :
    AllCounted (m.close l).1 held := by
  rcases m.close_cases (l := l) with ⟨-, heq⟩ | ⟨hclosing, -, heq⟩ | ⟨-, -, -, heq⟩
  · rw [heq]
    exact h
  · rw [heq]
    refine h.setClosing.closeLink ?_ true
    rw [hclosing] at hopen
    simpa only [CClientLinkMgr.setClosing,
      modify_links_self] using hopen.resolve_right Bool.false_ne_true
  · rw [heq]
    exact h.setClosing.update rfl (fun _ _ => rfl) ((h.setClosing l).of_same rfl rfl rfl)

theorem AllCounted.onClose (h : AllCounted m held)
    (hopen : (m.links l).life = .live ∨ (m.links l).bClosing = true) :
    AllCounted (m.onClose l).1 held := by
  simp only [CClientLinkMgr.onClose]
  split
  · exact h.close hopen
  · exact h

/-- What a packet does keeps the counts: links that are found are open. -/
theorem AllCounted.apply (h : AllCounted m held) (hsession : SessionInv m) (huser : UserInv m)
    {pdu : Pdu} {uninit : UidCode} : AllCounted ((action m pdu uninit).apply m) held := by
  have hlive {user : String} {l : LinkId} (hl : m.userLink user = some l) :
      (m.links l).life = .live := (huser.oneLinkPerUser.found user l hl).1
  cases haction : action m pdu uninit with
  | nothing => exact h
  | close l b =>
    rcases (action_eq_close haction).1 with ⟨sid, hl⟩ | ⟨user, -, hl⟩
    · exact h.closeLink (hsession sid l hl).1 b
    · exact h.closeLink (hlive hl) b
  | bind l user old =>
    obtain ⟨-, res, -, -, -, -, -, hold⟩ := action_eq_bind haction
    cases old with
    | none => exact h.userArrived user
    | some old =>
      have hfound := (Option.filter_eq_some_iff.mp hold.symm).1
      exact (h.closeLink (hlive hfound) true).userArrived user

theorem handlePdu_of_referenced (h : m.Referenced) (pdu : Pdu) (out : Outside) :
    (handlePdu m l pdu out).1 = m ∨
      (handlePdu m l pdu out).1 =
        (m.onLoginPretreat l out.remote out.unsetPeer out.generated).getD m := by
  simp only [handlePdu, h.visitSession_eq]
  split
  · exact .inl rfl
  · split
    · exact .inl rfl
    · split
      · refine .inr ?_
        split
        · next hnone => rw [hnone, Option.getD_none]
        · next hsome => rw [hsome, Option.getD_some]
      · exact .inl rfl

/-- What the counts rest on: found links are open. -/
structure RefsInv (s : State) : Prop where
  session : SessionInv s.mgr
  user : UserInv s.mgr
  counted : AllCounted s.mgr s.held

theorem RefsInv.referenced (h : RefsInv s) : s.mgr.Referenced := h.counted.referenced h.session h.user

theorem RefsInv.handlePdu (h : RefsInv s) (pdu : Pdu) (out : Outside) :
    AllCounted (handlePdu s.mgr l pdu out).1 s.held := by
  rcases handlePdu_of_referenced (l := l) h.referenced pdu out with heq | heq
  · rw [heq]
    exact h.counted
  · rw [heq]
    exact h.counted.onLoginPretreat _ _ _

theorem RefsInv.procPdu (h : RefsInv s) {pdu : Pdu} {uninit : UidCode}
    (hfree : BindsToFree s.mgr (action s.mgr pdu uninit))
    (hsecond : BindsNoSecond s.mgr (action s.mgr pdu uninit)) :
    AllCounted (procPdu s.mgr pdu uninit).1 s.held := by
  have hcounted : AllCounted ((action s.mgr pdu uninit).apply s.mgr) s.held :=
    h.counted.apply h.session h.user
  rw [procPdu_of_referenced h.referenced]
  · exact hcounted
  · exact hcounted.referenced (h.session.apply _) (h.user.apply h.session hsecond)
  · intro l user old haction hl
    obtain ⟨-, hname, -⟩ := CClientLink.userKey_eq_some.mp ((h.user.agrees user l).mp hl)
    rw [haction] at hfree
    exact hname hfree

theorem AllCounted.step (h : RefsInv s) (hgood : RefsGood s e) (hstep : step s e = some s') :
    AllCounted s'.mgr s'.held := by
  cases e with
  | connect l ip port =>
    obtain ⟨hunborn, hstep⟩ := Option.ite_none_right_eq_some.mp hstep
    cases hstep
    refine h.counted.update rfl (fun _ _ => rfl) ?_
    have hheld := h.counted l
    simp only [Counted, hunborn] at hheld
    simp only [Counted, State.withMgr, hheld]
    trivial
  | lookUp l =>
    obtain ⟨hlive, hstep⟩ := Option.ite_none_right_eq_some.mp hstep
    cases hstep
    exact h.counted.addRef hlive
  | release l =>
    obtain ⟨hheld, hstep⟩ := Option.ite_none_right_eq_some.mp hstep
    cases hstep
    exact h.counted.releaseRef hheld
  | handlePdu l pdu out =>
    obtain ⟨-, hstep⟩ := Option.ite_none_right_eq_some.mp hstep
    cases hstep
    exact h.handlePdu pdu out
  | onClose l =>
    obtain ⟨-, hstep⟩ := Option.ite_none_right_eq_some.mp hstep
    cases hstep
    exact h.counted.onClose hgood.2
  | onClientTimeout l =>
    obtain ⟨-, hstep⟩ := Option.ite_none_right_eq_some.mp hstep
    cases hstep
    exact h.counted.close hgood.2
  | serverPdu pdu =>
    obtain ⟨-, hstep⟩ := Option.ite_none_left_eq_some.mp hstep
    cases hstep
    exact h.counted
  | loginReply request res =>
    obtain ⟨-, hstep⟩ := Option.ite_none_right_eq_some.mp hstep
    cases hstep
    exact h.counted
  | procPdu i uninit =>
    simp only [Cm.step] at hstep
    split at hstep
    · cases hstep
    · next q hq =>
      cases hstep
      exact h.procPdu (hgood.2 q hq) (hgood.userGood.2 q hq)

theorem RefsInv.step (h : RefsInv s) (hgood : RefsGood s e) (hstep : step s e = some s') :
    RefsInv s' where
  session := h.session.step hgood.1 hstep
  user := h.user.step h.session hgood.userGood hstep
  counted := AllCounted.step h hgood hstep

/-- In every run in which logins are accepted on open links only, users arrive on links
without a user and `Close` does not meet a link that was closed without it, references
are balanced: every link is deleted once, after it was closed and with its last look-up. -/
theorem refs_balanced (h : Run.Reaches step RefsGood {} s) : RefsBalanced s := by
  have hinv : RefsInv s := by
    refine h.invariant RefsInv ?_ ?_
    · exact ⟨nofun, userInv_empty, fun _ => rfl⟩
    · intro s e s' hinv hgood hstep
      exact hinv.step hgood hstep
  exact hinv.counted.refsBalanced

/-- A user logs in on a second link, the first one is closed with a look-up in progress
and deleted when that one ends, and the second one is closed by its client. -/
theorem refs_balanced_login_twice :
    ∃ s, Run.runGood step RefsGood {} (loginTwice ++ [.release 0, .onClose 1]) = some s ∧
      (s.mgr.links 0).freed = 1 ∧ (s.mgr.links 1).refCount = 2 ∧ RefsBalanced s := by
  have hrun : ∃ s, Run.runGood step RefsGood {} (loginTwice ++ [.release 0, .onClose 1]) = some s ∧
      (s.mgr.links 0).freed = 1 ∧ (s.mgr.links 1).refCount = 2 := ⟨_, rfl, by decide⟩
  obtain ⟨s, hs, hfreed, hcount⟩ := hrun
  exact ⟨s, hs, hfreed, hcount, refs_balanced (Run.reaches_of_runGood hs)⟩

/-- The login server answers a login twice. The second answer finds the user's link to be
the current link already, and its reference is never given back. -/
theorem refs_not_balanced_same_user :
    ∃ s, Run.run step {} (loginEvents 0 "10.0.0.1" 80 (Vector.replicate 12 1) ++
        answerEvents 0 "10.0.0.1:80" "7" ++ answerEvents 0 "10.0.0.1:80" "7") = some s ∧
      ¬ RefsBalanced s := by
  refine ⟨_, rfl, fun hbalanced => ?_⟩
  have hcount := (hbalanced.live 0 (by decide)).1
  revert hcount
  decide

end Cm

end ImServer
