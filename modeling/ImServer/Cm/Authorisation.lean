import ImServer.Cm.ConnectionManager

/-!
# Packets of clients that are not logged in

The forwarding handlers ask whether the session id in the header of a packet leads
to a link with a user. The header is written by the client, so that link need not be
the one on which the packet arrived. And the command of a login result is not
reserved for the login server. Apart from these two ways round the check, a packet
that is forwarded arrived on a link to which the login server has bound a user.
-/

namespace ImServer

namespace Cm

open CTransimission CClientLinkMgr

/-- The packet is handed to the message, channel or desktop server, which take it for one of a user
who is logged in. -/
def Forwards (m : CClientLinkMgr) (pdu : Pdu) (uninit : UidCode) : Prop :=
  ∃ service forwarded, (procPdu m pdu uninit).2 = some (service, forwarded) ∧ service ≠ .login

/-- A user is bound by an answer of the login server. -/
def BindsByReply : Source → Action → Prop
  | .loginReply _, _ => True
  | _, .bind _ _ _ => False
  | _, _ => True

instance : (source : Source) → (a : Action) → Decidable (BindsByReply source a)
  | .loginReply _, _ => .isTrue trivial
  | .client _, .bind _ _ _ | .userLeft _, .bind _ _ _ | .server, .bind _ _ _ => .isFalse id
  | .client _, .nothing | .userLeft _, .nothing | .server, .nothing
  | .client _, .close _ _ | .userLeft _, .close _ _ | .server, .close _ _ => .isTrue trivial

/-- The executors that forward chat, channel and desktop packets. -/
def forwarding : List Executor := [.onMsgTrans, .onChannelTrans, .onDesktopTrans]

/-- A client that is not logged in does not use the session id of a link that is, in a
packet that would be forwarded. -/
def OwnSession (s : State) : Queued → Prop
  | ⟨.client a, pdu⟩ =>
    (∃ executor ∈ packetExecutor pdu.commandId, executor ∈ forwarding) →
      ∀ l ∈ s.mgr.sessionLink pdu.sessionId,
        l = a ∨ (s.mgr.links l).userId = "" ∨ s.bound a = true
  | _ => True

instance (s : State) : (q : Queued) → Decidable (OwnSession s q)
  | ⟨.client _, _⟩ => inferInstanceAs (Decidable ((∃ _ ∈ _, _) → ∀ _ ∈ _, _))
  | ⟨.userLeft _, _⟩ | ⟨.loginReply _, _⟩ | ⟨.server, _⟩ => .isTrue trivial

def ForwardGood (s : State) : Event → Prop
  | .procPdu i uninit =>
    ∀ q ∈ s.queue[i]?, BindsByReply q.source (action s.mgr q.pdu uninit) ∧ OwnSession s q
  | _ => True

instance (s : State) : (e : Event) → Decidable (ForwardGood s e)
  | .procPdu .. => inferInstanceAs (Decidable (∀ _ ∈ _, _))
  | .connect .. | .lookUp .. | .release .. | .handlePdu .. | .onClose .. | .onClientTimeout ..
  | .serverPdu .. | .loginReply .. => .isTrue trivial

/-- Only the login server has given users to links. -/
def BoundInv (s : State) : Prop := ∀ l, (s.mgr.links l).userId ≠ "" → s.bound l = true

variable {m m' : CClientLinkMgr} {l : LinkId} {s s' : State} {e : Event}

theorem userId_of_core_eq (h : m'.core = m.core) (l : LinkId) :
    (m'.links l).userId = (m.links l).userId :=
  (congrArg (fun m => (CClientLinkMgr.links m l).userId) h :)

theorem userId_of_closeLink {b : Bool} {l' : LinkId}
    (h : ((m.closeLink l b).links l').userId ≠ "") : (m.links l').userId ≠ "" := by
  by_cases hl' : l' = l
  · subst hl'
    rw [closeLink_links, Function.update_self] at h
    exact absurd rfl h
  · rwa [closeLink_links_of_ne hl'] at h

theorem userId_of_close {l' : LinkId} (h : (((m.close l).1).links l').userId ≠ "") :
    (m.links l').userId ≠ "" := by
  have hclosing : ((m.setClosing l).links l').userId = (m.links l').userId := modify_field _ rfl
  rcases m.close_cases (l := l) with ⟨-, heq⟩ | ⟨-, -, heq⟩ | ⟨-, -, -, heq⟩
  · rwa [heq] at h
  · rw [heq] at h
    rw [← hclosing]
    exact userId_of_closeLink h
  · rw [heq, userLeft] at h
    rwa [modify_field CClientLink.userId rfl, hclosing] at h

theorem userId_of_apply {a : Action} (h : ((a.apply m).links l).userId ≠ "") :
    (m.links l).userId ≠ "" ∨ ∃ user old, a = .bind l user old := by
  cases a with
  | nothing => exact .inl h
  | close l' b => exact .inl (userId_of_closeLink h)
  | bind l' user old =>
    by_cases hl : l = l'
    · exact .inr ⟨user, old, by rw [hl]⟩
    · refine .inl ?_
      cases old with
      | none =>
        rw [Action.apply, userArrived_links, Function.update_of_ne hl] at h
        exact h
      | some old =>
        rw [Action.apply, userArrived_links, Function.update_of_ne hl] at h
        exact userId_of_closeLink h

theorem userId_of_mgrAfter (h : ((mgrAfter s e).links l).userId ≠ "") :
    (s.mgr.links l).userId ≠ "" ∨ ∃ i uninit q user old, e = .procPdu i uninit ∧
      s.queue[i]? = some q ∧ action s.mgr q.pdu uninit = .bind l user old := by
  cases e with
  | connect l' ip port =>
    refine .inl ?_
    by_cases hl : l = l'
    · subst hl
      rw [mgrAfter, onConnect, modify_links_self] at h
      exact absurd rfl h
    · rwa [mgrAfter, onConnect, modify_links_of_ne _ hl] at h
  | handlePdu l' pdu out =>
    refine .inl ?_
    simp only [mgrAfter] at h
    split at h
    · rwa [onLoginPretreat_field CClientLink.userId fun _ _ _ _ => rfl] at h
    · exact h
  | onClose l' =>
    refine .inl ?_
    simp only [mgrAfter, onClose] at h
    split at h
    · exact userId_of_close h
    · exact h
  | onClientTimeout l' => exact .inl (userId_of_close h)
  | procPdu i uninit =>
    simp only [mgrAfter] at h
    split at h
    · exact .inl h
    · next q hq =>
      refine (userId_of_apply h).imp id ?_
      rintro ⟨user, old, haction⟩
      exact ⟨i, uninit, q, user, old, rfl, hq, haction⟩
  | _ => exact .inl h

/-- A link keeps the mark of the login server while it keeps its user. -/
theorem step_bound (hstep : step s e = some s') (hbound : s.bound l = true)
    (huser : (s'.mgr.links l).userId ≠ "") : s'.bound l = true := by
  cases e with
  | procPdu i uninit =>
    simp only [step] at hstep
    split at hstep
    · cases hstep
    · cases hstep
      simp only [hbound, Bool.true_or, Bool.true_and, decide_eq_true_eq]
      exact huser
  | serverPdu pdu =>
    obtain ⟨-, hstep⟩ := Option.ite_none_left_eq_some.mp hstep
    cases hstep
    exact hbound
  | loginReply request res =>
    obtain ⟨-, hstep⟩ := Option.ite_none_right_eq_some.mp hstep
    cases hstep
    exact hbound
  | _ =>
    obtain ⟨-, hstep⟩ := Option.ite_none_right_eq_some.mp hstep
    cases hstep
    simp only [State.withMgr, hbound, Bool.true_and, decide_eq_true_eq]
    exact huser

theorem step_bound_reply {i : Nat} {uninit : UidCode} {q : Queued} {user : String}
    {old : Option LinkId} (hq : s.queue[i]? = some q)
    (haction : action s.mgr q.pdu uninit = .bind l user old)
    (hreply : BindsByReply q.source (action s.mgr q.pdu uninit))
    (hstep : step s (.procPdu i uninit) = some s') (huser : (s'.mgr.links l).userId ≠ "") :
    s'.bound l = true := by
  have hmark : boundBy q.source (action s.mgr q.pdu uninit) l = true := by
    rw [haction] at hreply ⊢
    cases hsource : q.source with
    | loginReply origin => exact decide_eq_true rfl
    | client _ => rw [hsource] at hreply; exact hreply.elim
    | userLeft _ => rw [hsource] at hreply; exact hreply.elim
    | server => rw [hsource] at hreply; exact hreply.elim
  simp only [step, hq] at hstep
  cases hstep
  simp only [hmark, Bool.or_true, Bool.true_and, decide_eq_true_eq]
  exact huser

theorem BoundInv.step (h : BoundInv s) (hgood : ForwardGood s e) (hstep : step s e = some s') :
    BoundInv s' := by
  intro l huser
  have hafter : ((mgrAfter s e).links l).userId ≠ "" := by
    rwa [← userId_of_core_eq (step_core hstep)]
  rcases userId_of_mgrAfter hafter with hold | ⟨i, uninit, q, user, old, rfl, hq, haction⟩
  · exact step_bound hstep (h l hold) huser
  · exact step_bound_reply hq haction (hgood q hq).1 hstep huser

theorem transTo_eq_some {service service' : Service} {pdu forwarded : Pdu}
    (h : (transTo m service pdu).2 = some (service', forwarded)) :
    service' = service ∧ ∃ l, m.sessionLink pdu.sessionId = some l ∧ (m.links l).userId ≠ "" := by
  unfold transTo at h
  cases hl : m.sessionLink pdu.sessionId with
  | none =>
    rw [getLinkBySessionId_of_none hl] at h
    cases h
  | some l =>
    rw [getLinkBySessionId_of_some hl] at h
    have huser : ((m.addRef l).links l).userId = (m.links l).userId := modify_field _ rfl
    simp only [huser] at h
    split at h
    · cases h
    · next hne =>
      cases h
      exact ⟨rfl, l, rfl, hne⟩

/-- What is forwarded has the session id of a link with a user. -/
theorem Forwards.session {pdu : Pdu} {uninit : UidCode} (h : Forwards m pdu uninit) :
    (∃ executor ∈ packetExecutor pdu.commandId, executor ∈ forwarding) ∧
      ∃ l, m.sessionLink pdu.sessionId = some l ∧ (m.links l).userId ≠ "" := by
  obtain ⟨service, forwarded, hout, hservice⟩ := h
  unfold procPdu at hout
  split at hout
  · cases hout
  · exfalso
    unfold onLoginTrans at hout
    split at hout
    · split at hout <;> cases hout <;> exact hservice rfl
    · exact hservice (transTo_eq_some hout).1
  · cases hout
  · cases hout
  · next hexecutor => exact ⟨⟨_, hexecutor, by decide⟩, (transTo_eq_some hout).2⟩
  · cases hout
  · cases hout
  · next hexecutor => exact ⟨⟨_, hexecutor, by decide⟩, (transTo_eq_some hout).2⟩
  · next hexecutor => exact ⟨⟨_, hexecutor, by decide⟩, (transTo_eq_some hout).2⟩
  · cases hout
  · cases hout

/-- In every run in which clients neither forge login results nor use the session ids
of others' logins, a chat, channel or desktop packet is forwarded only if the login
server has bound a user to the link on which it arrived, and the link still has it. -/
theorem forwards_only_bound (h : Run.Reaches step ForwardGood {} s) {i : Nat} {uninit : UidCode}
    {q : Queued} {a : LinkId} (hq : s.queue[i]? = some q) (hsource : q.source = .client a)
    (hgood : ForwardGood s (.procPdu i uninit)) (hforward : Forwards s.mgr q.pdu uninit) :
    s.bound a = true := by
  have hinv : BoundInv s := by
    refine h.invariant _ ?_ fun _ _ _ hinv hgood hstep => hinv.step hgood hstep
    exact fun _ hne => absurd rfl hne
  obtain ⟨hexecutor, l, hl, huser⟩ := hforward.session
  have hown := (hgood q hq).2
  obtain ⟨source, pdu⟩ := q
  subst hsource
  rcases hown hexecutor l hl with rfl | hnone | hbound
  · exact hinv l huser
  · exact absurd hnone huser
  · exact hbound

/-- The user 7 logs in on link 0, and a chat packet with the session id of that link
arrives on link `a`. -/
def chatEvents (a : LinkId) : List Event :=
  loginEvents 0 "10.0.0.1" 80 (Vector.replicate 12 1) ++ answerEvents 0 "10.0.0.1:80" "7" ++
    [.connect 1 "10.0.0.2" 80, .lookUp 1,
      .handlePdu a { commandId := 0xb001, sessionId := Vector.replicate 12 1, body := .invalid }
        { remote := ("", 0), generated := zeroUid, unsetSession := zeroUid, unsetPeer := zeroUid }]

theorem forwards_only_bound_chat :
    ∃ s q, Run.runGood step ForwardGood {} (chatEvents 0) = some s ∧ s.queue[0]? = some q ∧
      q.source = .client 0 ∧ Forwards s.mgr q.pdu zeroUid ∧ s.bound 0 = true := by
  have hrun : ∃ s q, Run.runGood step ForwardGood {} (chatEvents 0) = some s ∧
      s.queue[0]? = some q ∧ q.source = .client 0 ∧ ForwardGood s (.procPdu 0 zeroUid) ∧
      Forwards s.mgr q.pdu zeroUid :=
    ⟨_, _, rfl, rfl, rfl, by decide, .msg, _, rfl, by decide⟩
  obtain ⟨s, q, hs, hq, hsource, hgood, hforward⟩ := hrun
  exact ⟨s, q, hs, hq, hsource, hforward,
    forwards_only_bound (Run.reaches_of_runGood hs) hq hsource hgood hforward⟩

/-- A client that never logged in writes the session id of the user's link into its
packet, and the packet is forwarded. -/
theorem forwards_unbound_chat :
    ∃ s q, Run.run step {} (chatEvents 1) = some s ∧ s.queue[0]? = some q ∧
      q.source = .client 1 ∧ Forwards s.mgr q.pdu zeroUid ∧ s.bound 1 = false :=
  ⟨_, _, rfl, rfl, rfl, ⟨.msg, _, rfl, by decide⟩, by decide⟩

end Cm

end ImServer
