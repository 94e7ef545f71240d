import ImServer.Msg.AckFinality

/-!
# The documents that the message server writes

Each document has a kind, and the entry of a group chat has a message id and no data, since
every step writes such documents only.
-/

namespace ImServer

namespace Msg

structure Written (doc : OfflineMsg) : Prop where
  cmdId : doc.cmdId ≠ 0
  msgId : doc.cmdId = mesGrpchatDeliver → doc.msgId ≠ ""
  bare : doc.cmdId = mesGrpchatDeliver → doc.msgData.serialize = []

namespace Written

variable {doc : OfflineMsg} {docs : List OfflineMsg} {store : Store}

theorem of_ne (hzero : doc.cmdId ≠ 0) (hgrp : doc.cmdId ≠ mesGrpchatDeliver) : Written doc :=
  ⟨hzero, fun h => absurd h hgrp, fun h => absurd h hgrp⟩

theorem ofGrpChat {msg : MESGrpChat} (hid : msg.msgId ≠ "") (toId : String) :
    Written (.ofGrpChat msg toId) :=
  ⟨(by decide : mesGrpchatDeliver ≠ 0), fun _ => hid, fun _ => rfl⟩

theorem ofChat (now : Nat) (msg : MESChat) : Written (.ofChat now msg) :=
  of_ne (by decide : mesChatDeliver ≠ 0) (by decide : mesChatDeliver ≠ mesGrpchatDeliver)

theorem ofCancel (msg : MESChatCancel) : Written (.ofCancel msg) :=
  of_ne (by decide : mesChatcancelDeliver ≠ 0) (by decide : mesChatcancelDeliver ≠ mesGrpchatDeliver)

theorem ofDeliveredAck (now : Nat) (msg : MESChatDeliveredAck) : Written (.ofDeliveredAck now msg) :=
  of_ne (by decide : mesChatDeliveredNotification ≠ 0)
    (by decide : mesChatDeliveredNotification ≠ mesGrpchatDeliver)

theorem replaceOne (hdoc : Written doc) (hstore : ∀ doc ∈ store, Written doc)
    (filter : OfflineMsg → Bool) : ∀ d ∈ Msg.replaceOne filter doc store, Written d := by
  intro d hd
  obtain rfl | hd := mem_of_mem_replaceOne hd
  · exact hdoc
  · exact hstore d hd

theorem insertMany (hdocs : ∀ doc ∈ docs, Written doc) (hstore : ∀ doc ∈ store, Written doc) :
    ∀ d ∈ Msg.insertMany docs store, Written d :=
  fun d hd => (List.mem_append.mp hd).elim (hstore d) (hdocs d)

theorem updateMany (hstore : ∀ doc ∈ store, Written doc) (filter : OfflineMsg → Bool) :
    ∀ d ∈ Msg.updateMany filter store, Written d := by
  intro d hd
  obtain ⟨doc, hdoc, rfl⟩ := List.mem_map.mp hd
  have hwritten := hstore doc hdoc
  split
  · exact ⟨hwritten.cmdId, hwritten.msgId, hwritten.bare⟩
  · exact hwritten

end Written

/-- The stored message of a group has its id, under which the entries of the members find it. -/
def GrpOfflineMsg.HasId (doc : GrpOfflineMsg) : Prop := doc.msgData.msgId ≠ ""

/-- What is stored of a chat, or of one that is taken back. -/
theorem hasId_onGrpMsgChat {env : GrpEnv} {grpStore : GrpStore} {msg : MESGrpChat}
    (hstore : ∀ doc ∈ grpStore, doc.HasId) :
    ∀ doc ∈ (onGrpMsgChat env grpStore msg).grpStore, doc.HasId := by
  simp only [onGrpMsgChat]
  split
  · exact hstore
  · next hcheck =>
    have hid : msg.msgId ≠ "" := by
      intro hnone
      rw [checkGrpChat, if_pos (.inr (.inr hnone))] at hcheck
      cases hcheck
    have hinsert : ∀ doc ∈ (insertGrpOfflineMsg env.written (.ofChat { msg with msgTime := env.now })
        grpStore).2, doc.HasId := by
      simp only [insertGrpOfflineMsg]
      split
      · intro doc hdoc
        exact (Collection.mem_of_mem_replaceOne hdoc).elim (fun h => h ▸ hid) (hstore doc)
      · exact hstore
    simp only [onGrpChatInserted]
    split
    · exact hinsert
    · exact hinsert
    · split
      · exact hinsert
      · split
        · exact hinsert
        · intro doc hdoc
          obtain ⟨old, hold, rfl⟩ := List.mem_map.mp hdoc
          have hold := hinsert old hold
          split
          · exact hold
          · exact hold

theorem Op.written_apply {op : Op} {store : Store} (hdocs : ∀ doc ∈ op.docs, Written doc)
    (hstore : ∀ doc ∈ store, Written doc) : ∀ d ∈ op.apply store, Written d := by
  cases op with
  | replaceOne toId cmdId msgId doc => exact (hdocs doc (List.mem_singleton_self doc)).replaceOne hstore _
  | insertMany docs => exact Written.insertMany hdocs hstore
  | delOfflineMsg toId cmdId msgId => exact Written.updateMany hstore _
  | delOfflineMsgs toId cmdId msgIds => exact Written.updateMany hstore _

theorem written_deliverOps {env : Env} {user : String} {items : List OfflineDeliveredMsg} {op : Op}
    (hop : op ∈ deliverOps env user items) : ∀ doc ∈ op.docs, Written doc := by
  obtain hop | hop := List.mem_append.mp hop
  · obtain ⟨group, -, rfl⟩ := List.mem_map.mp hop
    exact List.forall_mem_nil _
  · obtain ⟨group, -, hop⟩ := List.mem_flatMap.mp hop
    rw [chatOps] at hop
    split at hop
    · simp only [List.mem_cons, List.not_mem_nil, or_false] at hop
      obtain rfl | rfl := hop
      · intro doc hdoc
        obtain ⟨item, -, rfl⟩ := List.mem_map.mp hdoc
        exact .ofDeliveredAck _ _
      · exact List.forall_mem_nil _
    · cases hop

theorem Request.written {req : Request} {op : Op} (hop : op ∈ req.ops) :
    ∀ doc ∈ op.docs, Written doc := by
  cases req with
  | chat env msg =>
    obtain ⟨-, rfl⟩ := mem_ops_chat hop
    exact List.forall_mem_singleton.mpr (.ofChat _ msg)
  | cancel env msg pulled =>
    simp only [ops] at hop
    split at hop
    · cases hop
    · obtain rfl := List.mem_singleton.mp hop
      exact List.forall_mem_singleton.mpr (.ofCancel _)
  | deliverAck env msg =>
    simp only [ops] at hop
    split at hop
    · cases hop
    · simp only [List.mem_cons, List.not_mem_nil, or_false] at hop
      obtain rfl | rfl := hop
      · exact List.forall_mem_singleton.mpr (.ofDeliveredAck _ msg)
      · exact List.forall_mem_nil _
  | delivered env msg =>
    simp only [ops] at hop
    split at hop
    · cases hop
    · exact written_deliverOps hop
  | pull env msg dirty =>
    obtain hop | ⟨msgId, rfl⟩ := mem_ops_pull hop
    · exact written_deliverOps hop
    · exact List.forall_mem_nil _
  | notifyAck msg =>
    obtain ⟨group, -, rfl⟩ := List.mem_map.mp hop
    exact List.forall_mem_nil _

namespace GrpChatState

/-- A task has a message id, and the entries that it has collected. -/
structure AllWritten (s : GrpChatState) : Prop where
  store : ∀ doc ∈ s.store, Written doc
  grpStore : ∀ doc ∈ s.grpStore, doc.HasId
  msgId : ∀ task ∈ s.tasks, task.msg.msgId ≠ ""
  collected : ∀ task ∈ s.tasks, ∀ doc ∈ task.offlineMsgs, Written doc

variable {s s' : GrpChatState}

theorem AllWritten.chat (h : s.AllWritten) (env : GrpEnv) (msg : MESGrpChat) :
    (s.chat env msg).AllWritten := by
  simp only [GrpChatState.chat]
  cases htask : (onGrpMsgChat env s.grpStore msg).task with
  | none => exact ⟨h.store, hasId_onGrpMsgChat h.grpStore, h.msgId, h.collected⟩
  | some task =>
    have hid : task.1.msgId ≠ "" := by
      -- The check has refused a chat without an id.
      simp only [onGrpMsgChat] at htask
      split at htask
      · cases htask
      · next hcheck =>
        simp only [onGrpChatInserted] at htask
        split at htask
        · cases htask
        · cases htask
        · split at htask
          · cases htask
          · split at htask
            · obtain rfl := Option.some.inj htask
              intro hnone
              have hrefused : checkGrpChat env msg = some none := by
                rw [checkGrpChat, if_pos (.inr (.inr hnone))]
              rw [hrefused] at hcheck
              cases hcheck
            · cases htask
    refine ⟨h.store, hasId_onGrpMsgChat h.grpStore, ?_, ?_⟩
    · intro t ht
      obtain ht | ht := List.mem_append.mp ht
      · exact h.msgId t ht
      · obtain rfl := List.mem_singleton.mp ht
        exact hid
    · intro t ht
      obtain ht | ht := List.mem_append.mp ht
      · exact h.collected t ht
      · obtain rfl := List.mem_singleton.mp ht
        exact List.forall_mem_nil _

theorem AllWritten.send (h : s.AllWritten) {i : Nat} {task : SendTask} (htask : s.tasks[i]? = some task)
    (isLogin : Bool) : (s.send i task isLogin).AllWritten := by
  have hmem := List.mem_of_getElem? htask
  have hid := h.msgId task hmem
  have hcollected := h.collected task hmem
  obtain ⟨msg, toIds, offlineMsgs⟩ := task
  cases toIds with
  | nil =>
    refine ⟨?_, h.grpStore, fun t ht => h.msgId t (List.mem_of_mem_eraseIdx ht),
      fun t ht => h.collected t (List.mem_of_mem_eraseIdx ht)⟩
    simp only [GrpChatState.send, sendRest]
    split
    · exact Written.insertMany hcollected h.store
    · exact h.store
  | cons toId toIds =>
    have hdoc := Written.ofGrpChat hid toId
    have hmore : ∀ doc ∈ offlineMsgs ++ [OfflineMsg.ofGrpChat msg toId], Written doc := fun doc hdoc' =>
      (List.mem_append.mp hdoc').elim (hcollected doc) fun hlast => List.mem_singleton.mp hlast ▸ hdoc
    have hturn : ∀ (docs : List OfflineMsg) (store : Store), (∀ doc ∈ docs, Written doc) →
        (∀ doc ∈ store, Written doc) →
        AllWritten { s with store := store, tasks := s.tasks.set i ⟨msg, toIds, docs⟩ } := by
      intro docs store hdocs hstore
      refine ⟨hstore, h.grpStore, fun t ht => ?_, fun t ht => ?_⟩
      · obtain ht | rfl := List.mem_or_eq_of_mem_set ht
        · exact h.msgId t ht
        · exact hid
      · obtain ht | rfl := List.mem_or_eq_of_mem_set ht
        · exact h.collected t ht
        · exact hdocs
    simp only [GrpChatState.send, sendGroupMember]
    split
    · split
      · exact hturn _ _ (List.forall_mem_nil _) (Written.insertMany hmore h.store)
      · exact hturn _ _ hmore h.store
    · refine hturn _ _ hcollected ?_
      simp only [insertOfflineMsg]
      split
      · exact hdoc.replaceOne h.store _
      · exact h.store

theorem AllWritten.step (h : s.AllWritten) {e : GrpChatEvent} (hstep : s.step e = some s') :
    s'.AllWritten := by
  have hwith : ∀ store : Store, (∀ doc ∈ store, Written doc) → AllWritten { s with store := store } :=
    fun store hstore => ⟨hstore, h.grpStore, h.msgId, h.collected⟩
  cases e with
  | chat env msg =>
    obtain rfl := Option.some.inj hstep
    exact h.chat env msg
  | send i isLogin =>
    obtain ⟨task, htask, rfl⟩ := Option.map_eq_some_iff.mp hstep
    exact h.send htask isLogin
  | deliverAck msg =>
    obtain rfl := Option.some.inj hstep
    exact hwith _ (Written.updateMany h.store _)
  | cancel memberInfo msg =>
    obtain rfl := Option.some.inj hstep
    refine hwith _ ?_
    simp only [onGrpMsgChatCancel]
    split
    · exact h.store
    · cases memberInfo with
      | none => exact h.store
      | some members =>
        dsimp only
        split
        · refine Written.insertMany ?_ (Written.updateMany h.store _)
          intro doc hdoc
          obtain ⟨toId, -, rfl⟩ := List.mem_map.mp hdoc
          exact .ofCancel _
        · exact h.store
  | cancelDeliverAck userId msgId =>
    obtain rfl := Option.some.inj hstep
    exact hwith _ (Written.updateMany h.store _)
  | other e =>
    simp only [GrpChatState.step] at hstep
    split at hstep
    · next hop =>
      obtain rfl := Option.some.inj hstep
      exact hwith _ (Op.written_apply (Request.written hop) h.store)
    · cases hstep

/-- In every run of the server all documents are as they are written. -/
theorem allWritten_of_run {events : List GrpChatEvent} (h : s.AllWritten)
    (hrun : Run.run GrpChatState.step s events = some s') : s'.AllWritten :=
  Run.run_invariant AllWritten h (fun _ _ _ _ hs hstep => hs.step hstep) hrun

end GrpChatState

end Msg

end ImServer
