import ImServer.Cm.Session

/-!
# Login results and the links they are about

A login result names the host of the client that logged in, and the link is found
through the session id that was last recorded for this host. Between the request and
its answer the link may be closed and another client may log in from the same host:
the answer is then applied to the new link. It is applied to the right link, or to
none, as long as the last login from the host is the one that the result answers.
-/

namespace ImServer

namespace Cm

open CTransimission CClientLinkMgr

/-- The result lets its user in. -/
def LoginResult.Succeeds (res : LoginResult) : Prop := res.type = .loginAck ∧ res.nErr = nonErr

instance (res : LoginResult) : Decidable (LoginResult.Succeeds res) :=
  inferInstanceAs (Decidable (_ ∧ _))

/-- The result `res` for a login received on `o` changes no link but `o`, where a success
also closes the link that its user had before, and nothing at all when `o` is closed. -/
structure ConcernsOnly (m m' : CClientLinkMgr) (o : LinkId) (res : LoginResult) : Prop where
  others : ∀ l, l ≠ o → (m'.links l).core = (m.links l).core ∨
    (LoginResult.Succeeds res ∧ m.userLink (prefixCmStr ++ res.sUserId) = some l ∧
      (m'.links l).core = (m.links l).afterClose.core)
  gone : (m.links o).life ≠ .live → m'.core = m.core

/-- Session ids are not generated twice. -/
def FreshSession (s : State) : Event → Prop
  | .handlePdu l pdu out => AcceptsLogin s.mgr l pdu → out.generated ∉ s.generated
  | _ => True

instance (s : State) : (e : Event) → Decidable (FreshSession s e)
  | .handlePdu .. => inferInstanceAs (Decidable (_ → _))
  | .connect .. | .lookUp .. | .release .. | .onClose .. | .onClientTimeout .. | .serverPdu ..
  | .loginReply .. | .procPdu .. => .isTrue trivial

/-- The login that a result answers is the last one recorded for its host. -/
def AnswersLast (s : State) : Queued → Prop
  | ⟨.loginReply o, ⟨_, _, .loginResult res⟩⟩ => s.hostLogin res.sHost = some o
  | _ => True

instance (s : State) : (q : Queued) → Decidable (AnswersLast s q)
  | ⟨.loginReply _, ⟨_, _, .loginResult _⟩⟩ => inferInstanceAs (Decidable (_ = _))
  | ⟨.loginReply _, ⟨_, _, .loginTrans _⟩⟩ | ⟨.loginReply _, ⟨_, _, .loginCMNotify _⟩⟩
  | ⟨.loginReply _, ⟨_, _, .addressed _⟩⟩ | ⟨.loginReply _, ⟨_, _, .invalid⟩⟩
  | ⟨.client _, _⟩ | ⟨.userLeft _, _⟩ | ⟨.server, _⟩ => .isTrue trivial

def ResultGood (s : State) : Event → Prop
  | .procPdu i _ => ∀ q ∈ s.queue[i]?, AnswersLast s q
  | _ => True

instance (s : State) : (e : Event) → Decidable (ResultGood s e)
  | .procPdu .. => inferInstanceAs (Decidable (∀ _ ∈ _, _))
  | .connect .. | .lookUp .. | .release .. | .handlePdu .. | .onClose .. | .onClientTimeout ..
  | .serverPdu .. | .loginReply .. => .isTrue trivial

def LoginGood (s : State) (e : Event) : Prop := LoginsOpen s e ∧ FreshSession s e ∧ ResultGood s e

instance (s : State) (e : Event) : Decidable (LoginGood s e) :=
  inferInstanceAs (Decidable (_ ∧ _ ∧ _))

/-- The session recorded for a host leads to the link of the last login from there. -/
structure LoginInv (s : State) : Prop where
  session : SessionInv s.mgr
  last : ∀ {host sid l}, s.mgr.hostSession host = some sid → s.mgr.sessionLink sid = some l →
    s.hostLogin host = some l
  known : ∀ {host l}, s.hostLogin host = some l → host ≠ "" ∧ s.mgr.hostSession host ≠ none
  usedLink : ∀ {sid l}, s.mgr.sessionLink sid = some l → sid ∈ s.generated
  usedHost : ∀ {host sid}, s.mgr.hostSession host = some sid → sid ∈ s.generated
  reply : ∀ {q o}, q ∈ s.queue → q.source = .loginReply o →
    ∃ res, q.pdu.commandId = svrLoginResult ∧ q.pdu.body = .loginResult res ∧
      ⟨o, res.sHost⟩ ∈ s.requests

variable {m m' : CClientLinkMgr} {l : LinkId} {s s' : State} {e : Event}

theorem loginInv_empty : LoginInv {} where
  session := nofun
  last := nofun
  known := nofun
  usedLink := nofun
  usedHost := nofun
  reply := nofun

/-- The maps lose sessions and keep the hosts. -/
structure Shrinks (m m' : CClientLinkMgr) : Prop where
  sessionLink : ∀ {sid l}, m'.sessionLink sid = some l → m.sessionLink sid = some l
  hostSession : m'.hostSession = m.hostSession

theorem Shrinks.refl (m : CClientLinkMgr) : Shrinks m m := ⟨id, rfl⟩

theorem Shrinks.trans {m₁ m₂ m₃ : CClientLinkMgr} (h : Shrinks m₁ m₂) (h' : Shrinks m₂ m₃) :
    Shrinks m₁ m₃ :=
  ⟨fun hl => h.sessionLink (h'.sessionLink hl), h'.hostSession.trans h.hostSession⟩

theorem shrinks_closeLink (b : Bool) : Shrinks m (m.closeLink l b) := by
  rw [closeLink_eq]
  exact ⟨fun hl => (Index.update_none_eq_some.mp hl).2, rfl⟩

theorem shrinks_userArrived (user : String) : Shrinks m (m.userArrived l user) := by
  rw [userArrived_eq]
  exact ⟨id, rfl⟩

theorem shrinks_close : Shrinks m (m.close l).1 := by
  have hclosing : Shrinks m (m.setClosing l) := ⟨id, rfl⟩
  rcases m.close_cases (l := l) with ⟨-, heq⟩ | ⟨-, -, heq⟩ | ⟨-, -, -, heq⟩
  · rw [heq]
    exact .refl m
  · rw [heq]
    exact hclosing.trans (shrinks_closeLink true)
  · rw [heq]
    exact hclosing.trans ⟨id, rfl⟩

theorem shrinks_apply (a : Action) : Shrinks m (a.apply m) := by
  cases a with
  | nothing => exact .refl m
  | close l b => exact shrinks_closeLink b
  | bind l user old =>
    cases old with
    | none => exact shrinks_userArrived user
    | some old => exact (shrinks_closeLink true).trans (shrinks_userArrived user)

theorem shrinks_mgrAfter (h : ∀ l pdu out, e = .handlePdu l pdu out → ¬ AcceptsLogin s.mgr l pdu) :
    Shrinks s.mgr (mgrAfter s e) := by
  cases e with
  | handlePdu l pdu out =>
    rw [mgrAfter, if_neg (h l pdu out rfl)]
    exact .refl _
  | onClose l =>
    simp only [mgrAfter, onClose]
    split
    · exact shrinks_close
    · exact .refl _
  | onClientTimeout l => exact shrinks_close
  | procPdu i uninit =>
    simp only [mgrAfter]
    split
    · exact .refl _
    · exact shrinks_apply _
  | _ => exact ⟨id, rfl⟩

theorem step_history (hstep : step s e = some s')
    (h : ∀ l pdu out, e = .handlePdu l pdu out → ¬ AcceptsLogin s.mgr l pdu) :
    s'.hostLogin = s.hostLogin ∧ s'.generated = s.generated := by
  cases e with
  | handlePdu l pdu out =>
    obtain ⟨-, hstep⟩ := Option.ite_none_right_eq_some.mp hstep
    cases hstep
    have hreject := h l pdu out rfl
    exact ⟨if_neg hreject, if_neg hreject⟩
  | serverPdu pdu =>
    obtain ⟨-, hstep⟩ := Option.ite_none_left_eq_some.mp hstep
    cases hstep
    exact ⟨rfl, rfl⟩
  | procPdu i uninit =>
    simp only [step] at hstep
    split at hstep <;> cases hstep
    exact ⟨rfl, rfl⟩
  | _ =>
    obtain ⟨-, hstep⟩ := Option.ite_none_right_eq_some.mp hstep
    cases hstep
    exact ⟨rfl, rfl⟩

theorem mem_dispatchPacket {queue : List Queued} {source : Source} {pdu : Option Pdu} {q : Queued}
    (h : q ∈ dispatchPacket queue source pdu) : q ∈ queue ∨ ∃ p, pdu = some p ∧ q = ⟨source, p⟩ := by
  cases pdu with
  | none => exact .inl h
  | some p =>
    simp only [dispatchPacket] at h
    split at h
    · rcases List.mem_append.mp h with hold | hnew
      · exact .inl hold
      · exact .inr ⟨p, rfl, List.mem_singleton.mp hnew⟩
    · exact .inl h

theorem step_reply (hstep : step s e = some s') {q : Queued} {o : LinkId} (hq : q ∈ s'.queue)
    (hsource : q.source = .loginReply o) :
    q ∈ s.queue ∨ ∃ res, q.pdu.commandId = svrLoginResult ∧ q.pdu.body = .loginResult res ∧
      ⟨o, res.sHost⟩ ∈ s.requests := by
  cases e with
  | serverPdu pdu =>
    obtain ⟨-, hstep⟩ := Option.ite_none_left_eq_some.mp hstep
    cases hstep
    have hq : q ∈ dispatchPacket s.queue .server (some pdu) := hq
    rcases mem_dispatchPacket hq with hold | ⟨p, -, rfl⟩
    · exact .inl hold
    · cases hsource
  | loginReply request res =>
    obtain ⟨hrequest, hstep⟩ := Option.ite_none_right_eq_some.mp hstep
    cases hstep
    have hq : q ∈ dispatchPacket s.queue (.loginReply request.origin) (some
        { commandId := svrLoginResult, sessionId := zeroUid,
          body := .loginResult { res with sHost := request.sHost } }) := hq
    rcases mem_dispatchPacket hq with hold | ⟨p, hp, rfl⟩
    · exact .inl hold
    · cases hp
      cases hsource
      exact .inr ⟨_, rfl, rfl, hrequest⟩
  | procPdu i uninit =>
    simp only [step] at hstep
    split at hstep <;> cases hstep
    exact .inl (List.mem_of_mem_eraseIdx hq)
  | handlePdu l pdu out =>
    obtain ⟨-, hstep⟩ := Option.ite_none_right_eq_some.mp hstep
    cases hstep
    rcases mem_dispatchPacket hq with hold | ⟨p, -, rfl⟩
    · exact .inl hold
    · cases hsource
  | onClose l =>
    obtain ⟨-, hstep⟩ := Option.ite_none_right_eq_some.mp hstep
    cases hstep
    rcases mem_dispatchPacket hq with hold | ⟨p, -, rfl⟩
    · exact .inl hold
    · cases hsource
  | onClientTimeout l =>
    obtain ⟨-, hstep⟩ := Option.ite_none_right_eq_some.mp hstep
    cases hstep
    rcases mem_dispatchPacket hq with hold | ⟨p, -, rfl⟩
    · exact .inl hold
    · cases hsource
  | _ =>
    obtain ⟨-, hstep⟩ := Option.ite_none_right_eq_some.mp hstep
    cases hstep
    exact .inl hq

theorem step_requests (hstep : step s e = some s') {r : Request} (hr : r ∈ s.requests) :
    r ∈ s'.requests := by
  cases e with
  | serverPdu pdu =>
    obtain ⟨-, hstep⟩ := Option.ite_none_left_eq_some.mp hstep
    cases hstep
    exact hr
  | procPdu i uninit =>
    simp only [step] at hstep
    split at hstep <;> cases hstep
    exact List.mem_append_right _ hr
  | _ =>
    obtain ⟨-, hstep⟩ := Option.ite_none_right_eq_some.mp hstep
    cases hstep
    exact hr

theorem peerHost_ne_empty (k : CClientLink) : k.peerHost ≠ "" := by
  intro h
  have hlength := congrArg String.length h
  simp [CClientLink.peerHost, hostString, String.length_append] at hlength

theorem LoginInv.of_shrinks (h : LoginInv s) (hsession : SessionInv s'.mgr)
    (hshrinks : Shrinks s.mgr s'.mgr) (hlogin : s'.hostLogin = s.hostLogin)
    (hgenerated : s'.generated = s.generated)
    (hreply : ∀ {q o}, q ∈ s'.queue → q.source = .loginReply o →
      ∃ res, q.pdu.commandId = svrLoginResult ∧ q.pdu.body = .loginResult res ∧
        ⟨o, res.sHost⟩ ∈ s'.requests) : LoginInv s' where
  session := hsession
  last hhost hl := by
    rw [hshrinks.hostSession] at hhost
    rw [hlogin]
    exact h.last hhost (hshrinks.sessionLink hl)
  known hhost := by
    rw [hlogin] at hhost
    rw [hshrinks.hostSession]
    exact h.known hhost
  usedLink hl := by
    rw [hgenerated]
    exact h.usedLink (hshrinks.sessionLink hl)
  usedHost hhost := by
    rw [hshrinks.hostSession] at hhost
    rw [hgenerated]
    exact h.usedHost hhost
  reply := hreply

theorem LoginInv.step_reply (h : LoginInv s) (hstep : step s e = some s') {q : Queued} {o : LinkId}
    (hq : q ∈ s'.queue) (hsource : q.source = .loginReply o) :
    ∃ res, q.pdu.commandId = svrLoginResult ∧ q.pdu.body = .loginResult res ∧
      ⟨o, res.sHost⟩ ∈ s'.requests := by
  rcases Cm.step_reply hstep hq hsource with hold | ⟨res, hcmd, hbody, hrequest⟩
  · obtain ⟨res, hcmd, hbody, hrequest⟩ := h.reply hold hsource
    exact ⟨res, hcmd, hbody, step_requests hstep hrequest⟩
  · exact ⟨res, hcmd, hbody, step_requests hstep hrequest⟩

/-- An accepted login records its link for its host, under a new session id. -/
theorem LoginInv.accept (h : LoginInv s) {pdu : Pdu} {out : Outside}
    (haccept : AcceptsLogin s.mgr l pdu) (hfresh : out.generated ∉ s.generated)
    (hsession : SessionInv s'.mgr) (hstep : step s (.handlePdu l pdu out) = some s') :
    LoginInv s' := by
  have hcore := step_core hstep
  rw [mgrAfter, if_pos haccept,
    onLoginPretreat_eq haccept.2.2.1 haccept.2.2.2, Option.getD_some] at hcore
  obtain ⟨k, hk⟩ : ∃ k, k = (s.mgr.links l).withRemote out.remote := ⟨_, rfl⟩
  simp only [← hk] at hcore
  have hip : (s'.mgr.links l).peerIp = k.peerIp := by
    have hlink := congrArg (fun m => (CClientLinkMgr.links m l).peerIp) hcore
    simp only [core, Function.comp_apply, Function.update_self] at hlink
    exact hlink
  have hhost : (s'.mgr.links l).peerHost = k.peerHost := by
    have hlink := congrArg (fun m => (CClientLinkMgr.links m l).peerHost) hcore
    simp only [core, Function.comp_apply, Function.update_self] at hlink
    exact hlink
  have hsessions {sid : UidCode} {l' : LinkId} (hl' : s'.mgr.sessionLink sid = some l') :
      (sid = out.generated ∧ l' = l) ∨ s.mgr.sessionLink sid = some l' := by
    have hmap : s'.mgr.sessionLink = _ := (congrArg CClientLinkMgr.sessionLink hcore :)
    rw [hmap] at hl'
    exact sessionLink_of_pretreat hl'
  have hhosts : s'.mgr.hostSession = if k.peerIp = "" then s.mgr.hostSession
      else Function.update s.mgr.hostSession k.peerHost (some out.generated) :=
    (congrArg CClientLinkMgr.hostSession hcore :)
  obtain ⟨hlogin, hgenerated⟩ : s'.hostLogin = (if k.peerIp = "" then s.hostLogin
      else Function.update s.hostLogin k.peerHost (some l)) ∧
      s'.generated = out.generated :: s.generated := by
    rw [← hip, ← hhost]
    obtain ⟨-, hstep⟩ := Option.ite_none_right_eq_some.mp hstep
    cases hstep
    exact ⟨if_pos haccept, if_pos haccept⟩
  -- Hosts whose session was recorded before keep their last login.
  have hlast {host : String} {sid : UidCode} {l' : LinkId}
      (hs : s.mgr.hostSession host = some sid) (hl' : s'.mgr.sessionLink sid = some l') :
      s.hostLogin host = some l' := by
    rcases hsessions hl' with ⟨rfl, -⟩ | hold
    · exact absurd (h.usedHost hs) hfresh
    · exact h.last hs hold
  constructor
  · exact hsession
  · intro host sid l' hs hl'
    rw [hlogin]
    rw [hhosts] at hs
    split at hs
    · next hempty =>
      rw [if_pos hempty]
      exact hlast hs hl'
    · next hempty =>
      rw [if_neg hempty]
      rcases Index.update_some_eq_some.mp hs with ⟨rfl, rfl⟩ | ⟨hne, hs⟩
      · rw [Function.update_self]
        rcases hsessions hl' with ⟨-, rfl⟩ | hold
        · rfl
        · exact absurd (h.usedLink hold) hfresh
      · rw [Function.update_of_ne hne]
        exact hlast hs hl'
  · intro host l' hl'
    rw [hlogin] at hl'
    rw [hhosts]
    split at hl'
    · next hempty =>
      rw [if_pos hempty]
      exact h.known hl'
    · next hempty =>
      rw [if_neg hempty]
      rcases Index.update_some_eq_some.mp hl' with ⟨rfl, -⟩ | ⟨hne, hl'⟩
      · rw [Function.update_self]
        exact ⟨peerHost_ne_empty k, Option.some_ne_none _⟩
      · rw [Function.update_of_ne hne]
        exact h.known hl'
  · intro sid l' hl'
    rw [hgenerated]
    rcases hsessions hl' with ⟨rfl, -⟩ | hold
    · exact List.mem_cons_self
    · exact List.mem_cons_of_mem _ (h.usedLink hold)
  · intro host sid hs
    rw [hhosts] at hs
    rw [hgenerated]
    split at hs
    · exact List.mem_cons_of_mem _ (h.usedHost hs)
    · rcases Index.update_some_eq_some.mp hs with ⟨-, rfl⟩ | ⟨-, hs⟩
      · exact List.mem_cons_self
      · exact List.mem_cons_of_mem _ (h.usedHost hs)
  · intro q o hq hsource
    exact h.step_reply hstep hq hsource

theorem LoginInv.step (h : LoginInv s) (hgood : LoginGood s e) (hstep : step s e = some s') :
    LoginInv s' := by
  have hsession := h.session.step hgood.1 hstep
  by_cases hlogin : ∃ l pdu out, e = .handlePdu l pdu out ∧ AcceptsLogin s.mgr l pdu
  · obtain ⟨l, pdu, out, rfl, haccept⟩ := hlogin
    exact h.accept haccept (hgood.2.1 haccept) hsession hstep
  · have hno : ∀ l pdu out, e = .handlePdu l pdu out → ¬ AcceptsLogin s.mgr l pdu :=
      fun l pdu out he haccept => hlogin ⟨l, pdu, out, he, haccept⟩
    obtain ⟨hhost, hgenerated⟩ := step_history hstep hno
    have hshrinks := shrinks_mgrAfter hno
    refine h.of_shrinks hsession ?_ hhost hgenerated fun hq hsource => h.step_reply hstep hq hsource
    constructor
    · intro sid l hl
      rw [sessionLink_eq_of_core (step_core hstep)] at hl
      exact hshrinks.sessionLink hl
    · have hhosts : s'.mgr.hostSession = (mgrAfter s e).hostSession :=
        (congrArg CClientLinkMgr.hostSession (step_core hstep) :)
      rw [hhosts, hshrinks.hostSession]

theorem link_core_eq (h : m'.core = m.core) (l : LinkId) :
    (m'.links l).core = (m.links l).core :=
  (congrArg (fun m => CClientLinkMgr.links m l) h :)

/-- Binding a user to `o` changes `o` and closes the link that the user had. -/
theorem bind_others {user : String} {o : LinkId} (hl : l ≠ o) :
    ((Action.bind o user ((m.userLink user).filter fun l' => l' ≠ o)).apply m).links l = m.links l ∨
      (m.userLink user = some l ∧
        ((Action.bind o user ((m.userLink user).filter fun l' => l' ≠ o)).apply m).links l =
          (m.links l).afterClose) := by
  cases hold : (m.userLink user).filter fun l' => l' ≠ o with
  | none => exact .inl (by rw [Action.apply, userArrived_links, Function.update_of_ne hl])
  | some old =>
    obtain ⟨hold, -⟩ := Option.filter_eq_some_iff.mp hold
    rw [Action.apply, userArrived_links, Function.update_of_ne hl]
    by_cases heq : l = old
    · refine .inr ⟨heq ▸ hold, ?_⟩
      rw [heq, closeLink_links, Function.update_self]
    · exact .inl (closeLink_links_of_ne heq true)

/-- What a result does when the session of its host leads to `o` or to no link. -/
theorem concernsOnly_of_session (hsession : SessionInv m) {res : LoginResult} {uninit : UidCode}
    {o : LinkId}
    (hto : ∀ l, m.sessionLink (m.getSessionByHost res.sHost uninit) = some l → l = o)
    (hcore : m'.core = ((loginResultAction m res uninit).apply m).core) :
    ConcernsOnly m m' o res := by
  simp only [loginResultAction, bindAction, closeSessionAction] at hcore
  cases hl : m.sessionLink (m.getSessionByHost res.sHost uninit) with
  | none =>
    simp only [hl, ite_self, Action.apply] at hcore
    exact ⟨fun l _ => .inl (link_core_eq hcore l), fun _ => hcore⟩
  | some l =>
    obtain rfl := hto l hl
    simp only [hl] at hcore
    refine ⟨?_, fun hclosed => absurd (hsession _ l hl).1 hclosed⟩
    intro l' hne
    split at hcore
    · next hsuccess =>
      have hlink := link_core_eq hcore l'
      rcases bind_others hne with hsame | ⟨hold, hclosed⟩
      · rw [hsame] at hlink
        exact .inl hlink
      · rw [hclosed] at hlink
        exact .inr ⟨hsuccess, hold, hlink⟩
    · have hlink := link_core_eq hcore l'
      rw [Action.apply, closeLink_links_of_ne hne] at hlink
      exact .inl hlink

/-- In every run in which session ids are not generated twice and each login result
answers the last login from its host, a result binds or closes only the link on which
its login was received; if that link is closed it changes nothing. -/
theorem login_result_concerns_origin (h : Run.Reaches step LoginGood {} s) {i : Nat}
    {uninit : UidCode} {q : Queued} {o : LinkId} (hq : s.queue[i]? = some q)
    (hsource : q.source = .loginReply o) (hgood : LoginGood s (.procPdu i uninit))
    (hstep : step s (.procPdu i uninit) = some s') :
    ∃ res, q.pdu.body = .loginResult res ∧ ⟨o, res.sHost⟩ ∈ s.requests ∧
      ConcernsOnly s.mgr s'.mgr o res := by
  have hinv : LoginInv s :=
    h.invariant _ loginInv_empty fun _ _ _ hinv hgood hstep => hinv.step hgood hstep
  obtain ⟨res, hcmd, hbody, hrequest⟩ := hinv.reply (List.mem_of_getElem? hq) hsource
  have hto : ∀ l, s.mgr.sessionLink (s.mgr.getSessionByHost res.sHost uninit) = some l → l = o := by
    have hlast : s.hostLogin res.sHost = some o := by
      have hanswers := hgood.2.2 q hq
      obtain ⟨source, ⟨cmd, sid, body⟩⟩ := q
      subst hsource hbody
      exact hanswers
    intro l hl
    obtain ⟨hname, hknown⟩ := hinv.known hlast
    obtain ⟨sid, hsid⟩ := Option.ne_none_iff_exists'.mp hknown
    rw [getSessionByHost, if_neg hname, hsid, Option.getD_some] at hl
    exact Option.some.inj ((hinv.last hsid hl).symm.trans hlast)
  have hcore := step_core hstep
  have haction : action s.mgr q.pdu uninit = loginResultAction s.mgr res uninit := by
    unfold action
    rw [hcmd, hbody]
    rfl
  simp only [mgrAfter, hq, haction] at hcore
  exact ⟨res, hbody, hrequest, concernsOnly_of_session hinv.session hto hcore⟩

/-- The positive answer to the login that link `o` sent from 10.0.0.1:80. -/
def lateAnswer (o : LinkId) : Event :=
  .loginReply ⟨o, "10.0.0.1:80"⟩ { sUserId := "7", sHost := "", type := .loginAck, nErr := nonErr }

theorem login_result_concerns_origin_answered :
    ∃ s s' q, Run.runGood step LoginGood {}
        (loginEvents 0 "10.0.0.1" 80 (Vector.replicate 12 1) ++ [lateAnswer 0]) = some s ∧
      s.queue[0]? = some q ∧ step s (.procPdu 0 zeroUid) = some s' ∧
      (s'.mgr.links 0).userId = "CM_7" ∧
      ∃ res, q.pdu.body = .loginResult res ∧ ⟨0, res.sHost⟩ ∈ s.requests ∧
        ConcernsOnly s.mgr s'.mgr 0 res := by
  have hrun : ∃ s s' q, Run.runGood step LoginGood {}
        (loginEvents 0 "10.0.0.1" 80 (Vector.replicate 12 1) ++ [lateAnswer 0]) = some s ∧
      s.queue[0]? = some q ∧ step s (.procPdu 0 zeroUid) = some s' ∧
      (s'.mgr.links 0).userId = "CM_7" ∧ q.source = .loginReply 0 ∧
      LoginGood s (.procPdu 0 zeroUid) :=
    ⟨_, _, _, rfl, rfl, rfl, by decide, rfl, by decide⟩
  obtain ⟨s, s', q, hs, hq, hstep, huser, hsource, hgood⟩ := hrun
  exact ⟨s, s', q, hs, hq, hstep, huser,
    login_result_concerns_origin (Run.reaches_of_runGood hs) hq hsource hgood hstep⟩

/-- The client of link 0 logs in and is closed before the answer. The answer is applied
to link 1, on which a later login came from the same host. -/
theorem login_result_binds_other_link :
    ∃ s s' q, Run.run step {} (loginEvents 0 "10.0.0.1" 80 (Vector.replicate 12 1) ++
        [.onClientTimeout 0, .release 0] ++
        loginEvents 1 "10.0.0.1" 80 (Vector.replicate 12 2) ++ [lateAnswer 0]) = some s ∧
      s.queue[0]? = some q ∧ q.source = .loginReply 0 ∧ step s (.procPdu 0 zeroUid) = some s' ∧
      (s'.mgr.links 1).userId = "CM_7" ∧
      ¬ ∃ res, q.pdu.body = .loginResult res ∧ ConcernsOnly s.mgr s'.mgr 0 res := by
  refine ⟨_, _, _, rfl, rfl, rfl, rfl, by decide, ?_⟩
  rintro ⟨res, -, honly⟩
  rcases honly.others 1 (by decide) with hsame | ⟨-, -, hclosed⟩
  · have huser := congrArg CClientLink.userId hsame
    revert huser
    decide
  · have huser := congrArg CClientLink.userId hclosed
    revert huser
    decide

end Cm

end ImServer
