import ImServer.Lib.Collection
import ImServer.Lib.Run
import ImServer.Msg.SigHandler

/-!
# What is left of a hang-up

A hang-up marks the calls with its call id in the store (`updateCallOfflineMsgStatus` of
msg/mod_mongodb/offlineMsgMgr.cpp), and is stored itself if that fails or its receiver is not logged
in (msg/sighandler.cpp). The document of the update is built when the function runs for the first
time and kept. An update that finds no call succeeds as well.

The state of a call, which the model of the handlers leaves out, is kept here.
-/

namespace ImServer

namespace Msg

/-- A document with the fields of a call, which others do not have. -/
structure CallDoc extends OfflineMsg where
  callId : Option String := none
  status : Option Int := none

structure CallEnv extends SigEnv where
  /-- Whether there is a connection to mongo for the update. -/
  conn : Bool := true

/-- The collection, and the document that updates the state of calls. -/
structure CallMongo where
  docs : List CallDoc := []
  statusDoc : Option Int := none

namespace CallDoc

/-- The id and the state are only written for a call with an id. -/
def ofWrite (doc : OfflineMsg) (callId : String) : CallDoc :=
  if callId ≠ "" ∧ doc.cmdId = sigSponsorCallDeliver then
    { doc with callId := some callId, status := some 0 }
  else { doc with }

/-- `CCallOfflineMsgKeys`. -/
def callKeys (toId : String) (cmdId : UInt32) (callId : String) (doc : CallDoc) : Bool :=
  doc.toId = toId && (callId = "" || doc.callId = some callId) && (cmdId = 0 || doc.cmdId = cmdId)

/-- A call to the receiver of a hang-up that has its id. -/
def IsCall (msg : SIGHangUp) (doc : CallDoc) : Prop :=
  doc.toId = msg.toId ∧ doc.callId = some msg.callId ∧ doc.cmdId = sigSponsorCallDeliver

/-- The entry of a hang-up that its receiver has not got yet. -/
def IsPendingHangUp (msg : SIGHangUp) (doc : CallDoc) : Prop :=
  doc.toId = msg.toId ∧ doc.msgId = msg.msgId ∧ doc.cmdId = sigHangUpDeliver ∧ doc.bPulled = 0

end CallDoc

namespace CallMongo

/-- `InsertOne`; whether it succeeds. -/
def insertOfflineMsg (env : CallEnv) (doc : OfflineMsg) (callId : String) (s : CallMongo) :
    Bool × CallMongo :=
  if env.inserts doc then
    (true, { s with
      docs := Collection.replaceOne (fun doc' => doc.keyDoc doc'.toOfflineMsg)
        (.ofWrite doc callId) s.docs })
  else (false, s)

/-- Mongo answers whether or not a document is found. -/
def updateCallOfflineMsgStatus (env : CallEnv) (toId : String) (cmdId : UInt32) (callId : String)
    (nStatus : Int) (s : CallMongo) : Bool × CallMongo :=
  if env.conn then
    let status := s.statusDoc.getD nStatus
    let s := { s with statusDoc := some status }
    if env.updated then
      (true, { s with
        docs := Collection.updateMany (CallDoc.callKeys toId cmdId callId)
          (fun doc => { doc with status := some status }) s.docs })
    else (false, s)
  else (false, s)

/-- `HandleHangUpTask`: the acknowledgement, and what is in mongo then. -/
def handleHangUpTask (env : CallEnv) (msg : SIGHangUp) (s : CallMongo) : SigErr × CallMongo :=
  let err := checkFriendShip (env.getFriendInfo msg.fromId msg.toId)
  if err ≠ .nonErr then (.code err, s)
  else
    let (bHangUpStatus, s) :=
      if msg.callId ≠ "" then
        s.updateCallOfflineMsgStatus env msg.toId sigSponsorCallDeliver msg.callId 1
      else (false, s)
    let (bInsertDbStatus, s) :=
      if bHangUpStatus then (false, s) else s.insertOfflineMsg env (.ofHangUp env.now msg) ""
    if bHangUpStatus || bInsertDbStatus then
      if !env.isLogin msg.toId && !bInsertDbStatus then
        (.code .nonErr, (s.insertOfflineMsg env (.ofHangUp env.now msg) "").2)
      else (.code .nonErr, s)
    else (.code .exceptErr, s)

/-- What a call writes. -/
def handleSponsorCallTask (env : CallEnv) (msg : SIGSponsorCall) (s : CallMongo) : CallMongo :=
  let err := checkFriendShip (env.getFriendInfo msg.fromId msg.inviteId)
  if err ≠ .nonErr then s
  else (s.insertOfflineMsg env (.ofSponsorCall env.now msg) msg.callId).2

inductive Event where
  | sponsorCall (env : CallEnv) (msg : SIGSponsorCall)
  | hangUp (env : CallEnv) (msg : SIGHangUp)
  /-- A receiver acknowledges a message, or pulls it. -/
  | delOfflineMsg (toId : String) (cmdId : UInt32) (msgId : String)

def step (s : CallMongo) : Event → Option CallMongo
  | .sponsorCall env msg =>
    some (if (SigRequest.sponsorCall msg).lacks then s else s.handleSponsorCallTask env msg)
  | .hangUp env msg =>
    some (if (SigRequest.hangUp msg).lacks then s else (s.handleHangUpTask env msg).2)
  | .delOfflineMsg toId cmdId msgId =>
    some { s with
      docs := Collection.updateMany (fun doc => offlineMsgKeys toId cmdId msgId doc.toOfflineMsg)
        (fun doc => { doc with bPulled := doc.bPulled + 1 }) s.docs }

/-- A call with the id of the hang-up has the state that it asks for, or its entry is pending. -/
def Kept (msg : SIGHangUp) (s : CallMongo) : Prop :=
  (∃ doc ∈ s.docs, doc.IsCall msg ∧ doc.status = some 1) ∨ ∃ doc ∈ s.docs, doc.IsPendingHangUp msg

/-- The update finds a call, or the hang-up is pending already, or it is stored: it has no call id,
the update fails, or the receiver is not logged in and mongo takes the entry. -/
def Keeps (env : CallEnv) (msg : SIGHangUp) (s : CallMongo) : Prop :=
  (∃ doc ∈ s.docs, doc.IsCall msg) ∨ (∃ doc ∈ s.docs, doc.IsPendingHangUp msg) ∨ msg.callId = "" ∨
    env.conn = false ∨ env.updated = false ∨
    env.isLogin msg.toId = false ∧ env.inserts (.ofHangUp env.now msg) = true

variable {s : CallMongo} {env : CallEnv} {msg : SIGHangUp}

/-- The environment of the handlers, in which an update without a connection fails too. -/
def sigEnv (env : CallEnv) : SigEnv := { env.toSigEnv with updated := env.conn && env.updated }

/-- The entries without their calls, as the other operations of the collection see them. -/
def store (s : CallMongo) : Store := s.docs.map CallDoc.toOfflineMsg

theorem toOfflineMsg_ofWrite (doc : OfflineMsg) (callId : String) :
    (CallDoc.ofWrite doc callId).toOfflineMsg = doc := by
  rw [CallDoc.ofWrite]
  split <;> rfl

theorem store_replaceOne (filter : OfflineMsg → Bool) (doc : CallDoc) (docs : List CallDoc) :
    (Collection.replaceOne (fun doc' => filter doc'.toOfflineMsg) doc docs).map CallDoc.toOfflineMsg =
      replaceOne filter doc.toOfflineMsg (docs.map CallDoc.toOfflineMsg) := by
  induction docs with
  | nil => rfl
  | cons first rest ih =>
    rw [Collection.replaceOne, List.map_cons, replaceOne]
    split
    · rfl
    · rw [List.map_cons, ih]

theorem store_insertOfflineMsg (doc : OfflineMsg) (callId : String) :
    (s.insertOfflineMsg env doc callId).2.store =
      if env.inserts doc then replaceOne doc.keyDoc doc s.store else s.store := by
  rw [insertOfflineMsg]
  split
  · rw [store, store_replaceOne, toOfflineMsg_ofWrite]
    rfl
  · rfl

theorem store_mark (filter : CallDoc → Bool) (status : Int) (docs : List CallDoc) :
    (Collection.updateMany filter (fun doc => { doc with status := some status }) docs).map
      CallDoc.toOfflineMsg = docs.map CallDoc.toOfflineMsg := by
  rw [Collection.updateMany, List.map_map]
  refine List.map_congr_left fun doc _ => ?_
  rw [Function.comp_apply]
  split <;> rfl

/-- The calls with the id of a hang-up, after the update. -/
def marked (msg : SIGHangUp) (s : CallMongo) : CallMongo where
  docs := Collection.updateMany (CallDoc.callKeys msg.toId sigSponsorCallDeliver msg.callId)
    (fun doc => { doc with status := some (s.statusDoc.getD 1) }) s.docs
  statusDoc := some (s.statusDoc.getD 1)

theorem handleHangUpTask_of_updated
    (hfriend : checkFriendShip (env.getFriendInfo msg.fromId msg.toId) = .nonErr)
    (hcall : msg.callId ≠ "") (hconn : env.conn = true) (hupdated : env.updated = true) :
    s.handleHangUpTask env msg = (.code .nonErr,
      if env.isLogin msg.toId then s.marked msg
      else ((s.marked msg).insertOfflineMsg env (.ofHangUp env.now msg) "").2) := by
  have hupdate : s.updateCallOfflineMsgStatus env msg.toId sigSponsorCallDeliver msg.callId 1 =
      (true, s.marked msg) := by
    simp only [updateCallOfflineMsgStatus, hconn, hupdated, if_true, marked]
  simp only [handleHangUpTask, hfriend, ne_eq, not_true_eq_false, if_false, hcall, not_false_eq_true,
    if_true, hupdate, Bool.true_or]
  cases env.isLogin msg.toId <;> rfl

theorem handleHangUpTask_of_not_updated
    (hfriend : checkFriendShip (env.getFriendInfo msg.fromId msg.toId) = .nonErr)
    (hfails : msg.callId = "" ∨ env.conn = false ∨ env.updated = false) :
    ∃ s₁ : CallMongo, s₁.docs = s.docs ∧ (s₁.statusDoc = s.statusDoc ∨
        s₁.statusDoc = some (s.statusDoc.getD 1)) ∧
      s.handleHangUpTask env msg =
        ((if env.inserts (.ofHangUp env.now msg) then .code .nonErr else .code .exceptErr),
          (s₁.insertOfflineMsg env (.ofHangUp env.now msg) "").2) := by
  obtain ⟨s₁, hfirst, hdocs, hstatus⟩ : ∃ s₁ : CallMongo,
      (if msg.callId ≠ "" then
        s.updateCallOfflineMsgStatus env msg.toId sigSponsorCallDeliver msg.callId 1
      else (false, s)) = (false, s₁) ∧ s₁.docs = s.docs ∧ (s₁.statusDoc = s.statusDoc ∨
        s₁.statusDoc = some (s.statusDoc.getD 1)) := by
    split
    · next hcall =>
      rw [updateCallOfflineMsgStatus]
      split
      · next hconn =>
        have hupdated : env.updated = false :=
          (hfails.resolve_left hcall).resolve_left fun h => Bool.false_ne_true (h.symm.trans hconn)
        exact ⟨_, if_neg (Bool.eq_false_iff.mp hupdated), rfl, .inr rfl⟩
      · exact ⟨s, rfl, rfl, .inl rfl⟩
    · exact ⟨s, rfl, rfl, .inl rfl⟩
  refine ⟨s₁, hdocs, hstatus, ?_⟩
  rw [handleHangUpTask, hfirst]
  cases hins : env.inserts (.ofHangUp env.now msg) <;> simp [hfriend, insertOfflineMsg, hins]

theorem checkFriendShip_of_nonErr (h : (s.handleHangUpTask env msg).1 = .code .nonErr) :
    checkFriendShip (env.getFriendInfo msg.fromId msg.toId) = .nonErr := by
  by_contra hfriend
  rw [handleHangUpTask, if_pos hfriend] at h
  exact hfriend (SigErr.code.inj h)

/-- The handler acknowledges and writes what the model of the handlers says. -/
theorem handleHangUpTask_refines (s : CallMongo) (env : CallEnv) (msg : SIGHangUp) :
    (Msg.handleHangUpTask (sigEnv env) msg).ack = some (s.handleHangUpTask env msg).1 ∧
      (Msg.handleHangUpTask (sigEnv env) msg).store s.store = (s.handleHangUpTask env msg).2.store := by
  have hinsert : ∀ s₁ : CallMongo, (s₁.insertOfflineMsg env (.ofHangUp env.now msg) "").2.store =
      if env.inserts (.ofHangUp env.now msg) then
        replaceOne (OfflineMsg.ofHangUp env.now msg).keyDoc (.ofHangUp env.now msg) s₁.store
      else s₁.store := fun s₁ => store_insertOfflineMsg _ _
  have hmarked : (s.marked msg).store = s.store := store_mark _ _ _
  have hsame : (sigEnv env).inserts (.ofHangUp (sigEnv env).now msg) =
      env.inserts (.ofHangUp env.now msg) := rfl
  by_cases hfriend : checkFriendShip (env.getFriendInfo msg.fromId msg.toId) = .nonErr
  · have hfriend' : checkFriendShip ((sigEnv env).getFriendInfo msg.fromId msg.toId) = .nonErr := hfriend
    by_cases hmarks : msg.callId ≠ "" ∧ env.conn = true ∧ env.updated = true
    · have hmarks' : msg.callId ≠ "" ∧ (sigEnv env).updated := by
        refine ⟨hmarks.1, ?_⟩
        rw [sigEnv, hmarks.2.1, hmarks.2.2]
        rfl
      rw [handleHangUpTask_of_updated hfriend hmarks.1 hmarks.2.1 hmarks.2.2, Msg.handleHangUpTask,
        if_neg (not_not.mpr hfriend'), if_pos hmarks', hsame]
      refine ⟨rfl, ?_⟩
      have hlogin : (sigEnv env).isLogin msg.toId = env.isLogin msg.toId := rfl
      dsimp only
      rw [hlogin]
      cases env.isLogin msg.toId
      · rw [if_neg Bool.false_ne_true, if_neg Bool.false_ne_true, hinsert, hmarked]
        cases env.inserts (.ofHangUp env.now msg) <;> rfl
      · exact hmarked.symm
    · have hmarks' : ¬ (msg.callId ≠ "" ∧ (sigEnv env).updated) := by
        intro h
        obtain ⟨hconn, hupdated⟩ := Bool.and_eq_true_iff.mp h.2
        exact hmarks ⟨h.1, hconn, hupdated⟩
      have hfails : msg.callId = "" ∨ env.conn = false ∨ env.updated = false := by
        simpa only [ne_eq, not_and_or, not_not, Bool.not_eq_true] using hmarks
      obtain ⟨s₁, hdocs, -, htask⟩ : ∃ s₁ : CallMongo, s₁.docs = s.docs ∧ _ ∧ _ :=
        handleHangUpTask_of_not_updated (s := s) hfriend hfails
      have hstore : s₁.store = s.store := congrArg (List.map CallDoc.toOfflineMsg) hdocs
      rw [htask, Msg.handleHangUpTask, if_neg (not_not.mpr hfriend'), if_neg hmarks', hsame]
      dsimp only
      rw [hinsert, hstore]
      cases env.inserts (.ofHangUp env.now msg) <;> exact ⟨rfl, rfl⟩
  · rw [handleHangUpTask, Msg.handleHangUpTask]
    have hfriend' : checkFriendShip ((sigEnv env).getFriendInfo msg.fromId msg.toId) ≠ .nonErr := hfriend
    rw [if_pos hfriend, if_pos hfriend']
    exact ⟨rfl, rfl⟩

/-- The kept document sets the state of a hang-up, the only one that is ever asked for. -/
def Inv (s : CallMongo) : Prop := s.statusDoc = none ∨ s.statusDoc = some 1

theorem Inv.getD (h : s.Inv) : s.statusDoc.getD 1 = 1 := by
  obtain h | h := h <;> rw [h] <;> rfl

theorem statusDoc_insertOfflineMsg (doc : OfflineMsg) (callId : String) :
    (s.insertOfflineMsg env doc callId).2.statusDoc = s.statusDoc := by
  rw [insertOfflineMsg]
  split <;> rfl

theorem Inv.hangUp (h : s.Inv) (env : CallEnv) (msg : SIGHangUp) :
    (s.handleHangUpTask env msg).2.Inv := by
  by_cases hfriend : checkFriendShip (env.getFriendInfo msg.fromId msg.toId) = .nonErr
  · by_cases hmarks : msg.callId ≠ "" ∧ env.conn = true ∧ env.updated = true
    · rw [handleHangUpTask_of_updated hfriend hmarks.1 hmarks.2.1 hmarks.2.2]
      have hmarked : (s.marked msg).Inv := .inr (congrArg some h.getD)
      dsimp only
      split
      · exact hmarked
      · rw [Inv, statusDoc_insertOfflineMsg]
        exact hmarked
    · have hfails : msg.callId = "" ∨ env.conn = false ∨ env.updated = false := by
        simpa only [ne_eq, not_and_or, not_not, Bool.not_eq_true] using hmarks
      obtain ⟨s₁, -, hstatus, htask⟩ : ∃ s₁ : CallMongo, s₁.docs = s.docs ∧ _ ∧ _ :=
        handleHangUpTask_of_not_updated (s := s) hfriend hfails
      rw [htask]
      dsimp only
      rw [Inv, statusDoc_insertOfflineMsg]
      obtain hstatus | hstatus := hstatus
      · rw [hstatus]
        exact h
      · exact .inr (hstatus.trans (congrArg some h.getD))
  · rw [handleHangUpTask, if_pos hfriend]
    exact h

theorem Inv.step {e : Event} {s' : CallMongo} (h : s.Inv) (hstep : s.step e = some s') : s'.Inv := by
  cases e with
  | sponsorCall env msg =>
    cases hstep
    split
    · exact h
    · rw [handleSponsorCallTask]
      split
      · exact h
      · rw [Inv, statusDoc_insertOfflineMsg]
        exact h
  | hangUp env msg =>
    cases hstep
    split
    · exact h
    · exact h.hangUp env msg
  | delOfflineMsg toId cmdId msgId =>
    cases hstep
    exact h

/-- The keys of the update are those of the calls with the id. -/
theorem callKeys_iff (hcall : msg.callId ≠ "") {doc : CallDoc} :
    CallDoc.callKeys msg.toId sigSponsorCallDeliver msg.callId doc = true ↔ doc.IsCall msg := by
  simp only [CallDoc.callKeys, Bool.and_eq_true, Bool.or_eq_true, decide_eq_true_eq, hcall, false_or,
    (by decide : sigSponsorCallDeliver ≠ 0), CallDoc.IsCall, and_assoc]

/-- Each call that is found has the state, and nothing else changes. -/
theorem kept_marked_iff (h : s.Inv) (hcall : msg.callId ≠ "") :
    (s.marked msg).Kept msg ↔
      (∃ doc ∈ s.docs, doc.IsCall msg) ∨ ∃ doc ∈ s.docs, doc.IsPendingHangUp msg := by
  refine or_congr ⟨?_, ?_⟩ ⟨?_, ?_⟩
  · rintro ⟨_, hmem, hdoc, -⟩
    obtain ⟨doc, hold, rfl⟩ := List.mem_map.mp hmem
    refine ⟨doc, hold, ?_⟩
    split at hdoc <;> exact hdoc
  · rintro ⟨doc, hmem, hdoc⟩
    refine ⟨_, List.mem_map_of_mem hmem, ?_⟩
    rw [if_pos ((callKeys_iff hcall).mpr hdoc)]
    exact ⟨hdoc, congrArg some h.getD⟩
  · rintro ⟨_, hmem, hdoc⟩
    obtain ⟨doc, hold, rfl⟩ := List.mem_map.mp hmem
    refine ⟨doc, hold, ?_⟩
    split at hdoc <;> exact hdoc
  · rintro ⟨doc, hmem, hdoc⟩
    refine ⟨_, List.mem_map_of_mem hmem, ?_⟩
    split <;> exact hdoc

theorem kept_insertOfflineMsg (hins : env.inserts (.ofHangUp env.now msg) = true) :
    (s.insertOfflineMsg env (.ofHangUp env.now msg) "").2.Kept msg := by
  rw [insertOfflineMsg, if_pos hins]
  refine .inr ⟨_, Collection.new_mem_replaceOne _ _ _, ?_⟩
  rw [CallDoc.IsPendingHangUp, toOfflineMsg_ofWrite]
  exact ⟨rfl, rfl, rfl, rfl⟩

/-- In every run, a hang-up that is acknowledged is kept exactly if a call is found or its entry is
pending or written. -/
theorem hangUp_kept {docs : List CallDoc}
    (h : Run.Reaches step (fun _ _ => True) ({ docs := docs } : CallMongo) s)
    (hack : (s.handleHangUpTask env msg).1 = .code .nonErr) :
    (s.handleHangUpTask env msg).2.Kept msg ↔ s.Keeps env msg := by
  have hinv : s.Inv := h.invariant Inv (.inl rfl) fun _ _ _ hinv _ hstep => hinv.step hstep
  have hfriend := checkFriendShip_of_nonErr hack
  by_cases hmarks : msg.callId ≠ "" ∧ env.conn = true ∧ env.updated = true
  · obtain ⟨hcall, hconn, hupdated⟩ := hmarks
    have hkeeps : s.Keeps env msg ↔ (s.marked msg).Kept msg ∨
        env.isLogin msg.toId = false ∧ env.inserts (.ofHangUp env.now msg) = true := by
      rw [kept_marked_iff hinv hcall, Keeps]
      simp only [hcall, hconn, hupdated, false_or, or_assoc, Bool.true_eq_false]
    rw [handleHangUpTask_of_updated hfriend hcall hconn hupdated, hkeeps]
    dsimp only
    split
    · next hlogin =>
      exact ⟨.inl,
        fun h => h.resolve_right fun h => Bool.false_ne_true (h.1.symm.trans hlogin)⟩
    · next hlogin =>
      by_cases hins : env.inserts (.ofHangUp env.now msg) = true
      · exact iff_of_true (kept_insertOfflineMsg hins) (.inr ⟨Bool.eq_false_iff.mpr hlogin, hins⟩)
      · rw [insertOfflineMsg, if_neg hins]
        exact ⟨.inl, fun h => h.resolve_right fun h => hins h.2⟩
  · have hfails : msg.callId = "" ∨ env.conn = false ∨ env.updated = false := by
      simpa only [ne_eq, not_and_or, not_not, Bool.not_eq_true] using hmarks
    obtain ⟨s₁, -, -, htask⟩ : ∃ s₁ : CallMongo, s₁.docs = s.docs ∧ _ ∧ _ :=
      handleHangUpTask_of_not_updated (s := s) hfriend hfails
    rw [htask]
    by_cases hins : env.inserts (.ofHangUp env.now msg) = true
    · refine iff_of_true (kept_insertOfflineMsg hins) (.inr (.inr ?_))
      obtain hcall | hconn | hupdated := hfails
      · exact .inl hcall
      · exact .inr (.inl hconn)
      · exact .inr (.inr (.inl hupdated))
    · have hcode : SigErr.code .exceptErr = .code .nonErr := by
        rw [← hack, htask]
        exact (if_neg hins).symm
      cases hcode

/-- A caller hangs up before his call was stored. -/
def ringing : SIGHangUp where
  fromId := "caller"
  toId := "callee"
  msgId := "m1"
  callId := "c1"

/-- Two friends; the callee is logged in or is not. -/
def friends (isLogin : Bool) : CallEnv where
  record := fun _ _ => .isNormal
  loginInfo := fun _ => some { isLogin }

/-- The call that the hang-up is about. -/
def calling : SIGSponsorCall where
  fromId := "caller"
  inviteId := "callee"
  msgId := "m0"
  callId := "c1"

/-- The call is stored, and the callee has pulled it. -/
def pulledCall : CallMongo where
  docs := [{ CallDoc.ofWrite (.ofSponsorCall 0 calling) "c1" with bPulled := 1 }]

theorem hangUp_kept_pulledCall :
    pulledCall.Keeps (friends true) ringing ∧
      ((pulledCall.handleHangUpTask (friends true) ringing).2.Kept ringing ↔
        pulledCall.Keeps (friends true) ringing) := by
  have hcall : Run.Reaches step (fun _ _ => True) ({} : CallMongo)
      (({} : CallMongo).handleSponsorCallTask (friends false) calling) :=
    Run.Reaches.refl.next (e := .sponsorCall (friends false) calling) trivial rfl
  have hpull : Run.Reaches step (fun _ _ => True) ({} : CallMongo) pulledCall :=
    hcall.next (e := .delOfflineMsg "callee" sigSponsorCallDeliver "m0") trivial rfl
  have hfound : pulledCall.Keeps (friends true) ringing :=
    .inl ⟨_, List.mem_singleton_self _, rfl, rfl, rfl⟩
  exact ⟨hfound, hangUp_kept hpull (by decide)⟩

theorem not_hangUp_kept :
    (({} : CallMongo).handleHangUpTask (friends true) ringing).1 = .code .nonErr ∧
      ¬ (({} : CallMongo).handleHangUpTask (friends true) ringing).2.Kept ringing := by
  have hdocs : (({} : CallMongo).handleHangUpTask (friends true) ringing).2.docs = [] := rfl
  refine ⟨by decide, ?_⟩
  rw [Kept, hdocs]
  rintro (⟨doc, hmem, -⟩ | ⟨doc, hmem, -⟩) <;> exact List.not_mem_nil hmem

end CallMongo

end Msg

end ImServer
