import ImServer.Msg.OfflineMsg

/-!
# Delivered requests, item by item

A delivered request is handled in batches: messages that are no chats are deleted first, by
receiver and command, and chats are then replaced by notifications, by sender. The store that
comes out is compared with the one of requests that have one item each. The order of the
documents does not matter, nor how often a document was deleted.
-/

namespace ImServer

namespace Msg

/-- A document as pulling sees it: deleted or not. -/
def seen (doc : OfflineMsg) : OfflineMsg := { doc with bPulled := min doc.bPulled 1 }

/-- The same documents, and the same ones of them deleted, in whatever order they are. -/
def Same (store store' : Store) : Prop := (store.map seen).Perm (store'.map seen)

instance (store store' : Store) : Decidable (Same store store') :=
  inferInstanceAs (Decidable (List.Perm _ _))

/-- What is seen of a document after the documents that a filter finds are deleted. -/
def mark (filter : OfflineMsg → Bool) (doc : OfflineMsg) : OfflineMsg :=
  { doc with bPulled := if filter doc then 1 else min doc.bPulled 1 }

theorem mark_false {filter : OfflineMsg → Bool} {doc : OfflineMsg} (h : filter doc = false) :
    mark filter doc = seen doc := by
  simp [mark, seen, h]

theorem map_mark_updateMany (filter later : OfflineMsg → Bool) (store : Store) :
    (updateMany filter store).map (mark later) =
      store.map (mark fun doc => filter doc || later doc) := by
  rw [updateMany, List.map_map]
  refine List.map_congr_left ?_
  intro doc _
  by_cases hfilter : filter doc = true
  · simp [mark, hfilter]
  · simp [mark, hfilter]

theorem map_mark_foldl_updateMany {γ : Type} (key : γ → OfflineMsg → Bool) (cs : List γ)
    (later : OfflineMsg → Bool) (store : Store) :
    (cs.foldl (fun store c => updateMany (key c) store) store).map (mark later) =
      store.map (mark fun doc => cs.any (key · doc) || later doc) := by
  induction cs generalizing store with
  | nil => rfl
  | cons c cs ih =>
    rw [List.foldl_cons, ih, map_mark_updateMany]
    simp only [List.any_cons, Bool.or_assoc]

/-- The documents that an item deletes. -/
def itemKeys (user : String) (item : OfflineDeliveredMsg) : OfflineMsg → Bool :=
  if isChat item then manyMsgKeys user mesChatDeliver [item.msgId]
  else manyMsgKeys item.toId item.cmdId [item.msgId]

/-- An item to its own user deletes what has its kind and id. -/
theorem itemKeys_iff {user : String} {item : OfflineDeliveredMsg} {doc : OfflineMsg}
    (hto : item.toId = user) (hzero : item.cmdId ≠ 0) :
    itemKeys user item doc = true ↔
      doc.toId = user ∧ doc.cmdId = item.cmdId ∧ doc.msgId = item.msgId := by
  have hkeys : itemKeys user item = manyMsgKeys user item.cmdId [item.msgId] := by
    rw [itemKeys]
    split
    · next hchat =>
      have hcmd : item.cmdId = mesChatDeliver := of_decide_eq_true hchat
      rw [hcmd]
    · rw [hto]
  rw [hkeys]
  simp only [manyMsgKeys, hzero, decide_false, Bool.false_or, Bool.and_eq_true, decide_eq_true_eq,
    List.contains_iff_mem, List.mem_singleton, and_assoc]

/-- The documents that some item deletes. -/
def hits (user : String) (items : List OfflineDeliveredMsg) (doc : OfflineMsg) : Bool :=
  items.any (itemKeys user · doc)

def notifyDoc (env : Env) (item : OfflineDeliveredMsg) : OfflineMsg :=
  .ofDeliveredAck env.now (notifyOf item)

theorem notifyDoc_toId (env : Env) (item : OfflineDeliveredMsg) :
    (notifyDoc env item).toId = item.fromId := rfl

theorem notifyDoc_cmdId (env : Env) (item : OfflineDeliveredMsg) :
    (notifyDoc env item).cmdId = mesChatDeliveredNotification := rfl

theorem notifyDoc_msgId (env : Env) (item : OfflineDeliveredMsg) :
    (notifyDoc env item).msgId = item.msgId := rfl

/-- The notifications of the chats, each of them as the items behind it leave it. -/
def notifyDocs (env : Env) (user : String) : List OfflineDeliveredMsg → List OfflineMsg
  | [] => []
  | item :: rest =>
    (if isChat item then [mark (hits user rest) (notifyDoc env item)] else []) ++
      notifyDocs env user rest

theorem manyMsgKeys_chat_notifyDoc (env : Env) (user : String) (msgIds : List String)
    (item : OfflineDeliveredMsg) :
    manyMsgKeys user mesChatDeliver msgIds (notifyDoc env item) = false := by
  have hcmd : ¬ (mesChatDeliver = 0 ∨ (notifyDoc env item).cmdId = mesChatDeliver) := by
    rw [notifyDoc_cmdId]
    decide
  simp [manyMsgKeys, hcmd]

theorem updateMany_notifyDoc (env : Env) (user : String) (msgIds : List String)
    (items : List OfflineDeliveredMsg) :
    updateMany (manyMsgKeys user mesChatDeliver msgIds) (items.map (notifyDoc env)) =
      items.map (notifyDoc env) := by
  rw [updateMany, List.map_map]
  refine List.map_congr_left ?_
  intro item _
  simp [manyMsgKeys_chat_notifyDoc]

theorem deliverChats_store (env : Env) (user msgId : String)
    (res : Store × List MESOfflineMsgDelivered) (group : String × List OfflineDeliveredMsg) :
    (deliverChats env user msgId res group).1 =
      updateMany (manyMsgKeys user mesChatDeliver (group.2.map (·.msgId))) res.1 ++
        group.2.map (notifyDoc env) := by
  obtain ⟨sender, items⟩ := group
  cases items with
  | nil => simp [deliverChats, updateMany, manyMsgKeys]
  | cons item rest =>
    rw [← updateMany_notifyDoc env user ((item :: rest).map (·.msgId)), updateMany, updateMany,
      ← List.map_append]
    rfl

theorem deliverItems_singleton (env : Env) (store : Store) (user msgId : String)
    (item : OfflineDeliveredMsg) :
    (deliverItems env store user msgId [item]).1 =
      updateMany (itemKeys user item) store ++ (if isChat item then [notifyDoc env item] else []) := by
  by_cases hchat : isChat item = true
  · have hothers : deleteOthers store [item] = store := by simp [deleteOthers, hchat, Multimap.groups]
    have hgroups : Multimap.groups (fun a b : String => decide (a < b))
        (([item].filter isChat).map fun item => (item.fromId, item)) = [(item.fromId, [item])] := by
      simp [hchat, Multimap.groups, Multimap.insert]
    simp only [deliverItems, hothers, hgroups, List.foldl_cons, List.foldl_nil, deliverChats_store,
      itemKeys, if_pos hchat]
    rfl
  · simp [deliverItems, deleteOthers, Multimap.groups, Multimap.insert, itemKeys, delOfflineMsgs,
      hchat]

/-- The items of a request, each of them in a request of its own. -/
def oneAtATime (env : Env) (store : Store) (msg : MESOfflineMsgDelivered) : Store :=
  msg.lsMsgs.foldl
    (fun store item => (handleOfflineMsgDelivered env store { msg with lsMsgs := [item] }).store) store

theorem map_seen_oneAtATime (env : Env) (store : Store) (msg : MESOfflineMsgDelivered) :
    (oneAtATime env store msg).map seen =
      store.map (mark (hits msg.fromId msg.lsMsgs)) ++ notifyDocs env msg.fromId msg.lsMsgs := by
  obtain ⟨user, toId, msgId, items⟩ := msg
  simp only [oneAtATime, handleOfflineMsgDelivered, deliverItems_singleton]
  induction items generalizing store with
  | nil =>
    rw [notifyDocs, List.append_nil]
    exact List.map_congr_left fun doc _ => (mark_false rfl).symm
  | cons item rest ih =>
    rw [List.foldl_cons, ih, List.map_append, map_mark_updateMany,
      List.append_assoc]
    congr 1
    rw [notifyDocs]
    split <;> rfl

theorem manyMsgKeys_eq_any (toId : String) (cmdId : UInt32) (msgIds : List String)
    (doc : OfflineMsg) :
    manyMsgKeys toId cmdId msgIds doc =
      msgIds.any fun msgId => manyMsgKeys toId cmdId [msgId] doc := by
  rw [Bool.eq_iff_iff]
  simp [manyMsgKeys]
  grind

/-- The messages that are no chats, by receiver and command, delete what they delete one by one. -/
theorem any_groups_others (user : String) (items : List OfflineDeliveredMsg) (doc : OfflineMsg) :
    ((Multimap.groups DeleteKey.lt ((items.filter (!isChat ·)).map fun item =>
      ((⟨item.toId, item.cmdId⟩ : DeleteKey), item.msgId))).any fun group =>
        manyMsgKeys group.1.toId group.1.cmdId group.2 doc) =
      hits user (items.filter (!isChat ·)) doc := by
  have hgroup : (fun group : DeleteKey × List String =>
        manyMsgKeys group.1.toId group.1.cmdId group.2 doc) =
      fun group => group.2.any fun msgId => manyMsgKeys group.1.toId group.1.cmdId [msgId] doc :=
    funext fun group => manyMsgKeys_eq_any _ _ _ doc
  rw [hgroup,
    Multimap.any_groups fun (key : DeleteKey) msgId => manyMsgKeys key.toId key.cmdId [msgId] doc,
    List.any_map, hits]
  simp only [List.any_filter, itemKeys, Function.comp_def]
  congr 1
  funext item
  cases isChat item <;> rfl

theorem any_groups_chats (user : String) (items : List OfflineDeliveredMsg) (doc : OfflineMsg) :
    ((Multimap.groups (fun a b : String => decide (a < b))
      ((items.filter isChat).map fun item => (item.fromId, item))).any fun group =>
        manyMsgKeys user mesChatDeliver (group.2.map (·.msgId)) doc) =
      hits user (items.filter isChat) doc := by
  have hgroup : (fun group : String × List OfflineDeliveredMsg =>
        manyMsgKeys user mesChatDeliver (group.2.map (·.msgId)) doc) =
      fun group => group.2.any fun item => manyMsgKeys user mesChatDeliver [item.msgId] doc := by
    funext group
    rw [manyMsgKeys_eq_any, List.any_map]
    rfl
  rw [hgroup, Multimap.any_groups fun (_ : String) (item : OfflineDeliveredMsg) =>
    manyMsgKeys user mesChatDeliver [item.msgId] doc, List.any_map, hits]
  simp only [List.any_filter, itemKeys, Function.comp_def]
  congr 1
  funext item
  cases isChat item <;> rfl

theorem map_mark_deleteOthers (store : Store) (items : List OfflineDeliveredMsg) (user : String)
    (later : OfflineMsg → Bool) :
    (deleteOthers store items).map (mark later) =
      store.map (mark fun doc => hits user (items.filter (!isChat ·)) doc || later doc) := by
  simp only [deleteOthers, delOfflineMsgs]
  rw [map_mark_foldl_updateMany
    fun group : DeleteKey × List String => manyMsgKeys group.1.toId group.1.cmdId group.2]
  simp only [any_groups_others user]

theorem map_seen_foldl_deliverChats (env : Env) (user msgId : String)
    (groups : List (String × List OfflineDeliveredMsg)) (res : Store × List MESOfflineMsgDelivered) :
    (groups.foldl (deliverChats env user msgId) res).1.map seen =
      res.1.map (mark fun doc =>
        groups.any fun group => manyMsgKeys user mesChatDeliver (group.2.map (·.msgId)) doc) ++
      (groups.flatMap (·.2)).map (notifyDoc env) := by
  induction groups generalizing res with
  | nil =>
    rw [List.flatMap_nil, List.map_nil, List.append_nil]
    exact List.map_congr_left fun doc _ => (mark_false rfl).symm
  | cons group groups ih =>
    have hnew : (group.2.map (notifyDoc env)).map (mark fun doc => groups.any fun group =>
        manyMsgKeys user mesChatDeliver (group.2.map (·.msgId)) doc) =
          group.2.map (notifyDoc env) := by
      rw [List.map_map]
      refine List.map_congr_left ?_
      intro item _
      refine mark_false ?_
      simp [manyMsgKeys_chat_notifyDoc]
    rw [List.foldl_cons, ih, deliverChats_store, List.map_append, map_mark_updateMany, hnew,
      List.append_assoc]
    simp only [List.any_cons, List.flatMap_cons, List.map_append]

theorem hits_perm (user : String) {items items' : List OfflineDeliveredMsg} (h : items.Perm items') :
    hits user items = hits user items' := funext fun _ => h.any_eq

theorem hits_append (user : String) (items items' : List OfflineDeliveredMsg) (doc : OfflineMsg) :
    hits user (items ++ items') doc = (hits user items doc || hits user items' doc) :=
  List.any_append

/-- The items in the order of their batches. -/
def batches (items : List OfflineDeliveredMsg) : List OfflineDeliveredMsg :=
  items.filter (!isChat ·) ++ items.filter isChat

theorem batches_perm (items : List OfflineDeliveredMsg) : (batches items).Perm items :=
  List.perm_append_comm.trans (List.filter_append_perm isChat items)

theorem map_seen_deliverItems (env : Env) (store : Store) (user msgId : String)
    (items : List OfflineDeliveredMsg) :
    ((deliverItems env store user msgId items).1.map seen).Perm
      (store.map (mark (hits user items)) ++ (items.filter isChat).map (notifyDoc env)) := by
  have hboth : (fun doc => hits user (items.filter (!isChat ·)) doc ||
      hits user (items.filter isChat) doc) = hits user items := by
    funext doc
    rw [← hits_append, ← hits_perm user (batches_perm items), batches]
  simp only [deliverItems]
  rw [map_seen_foldl_deliverChats]
  simp only [any_groups_chats]
  rw [map_mark_deleteOthers store items user, hboth]
  refine List.Perm.append_left _ (List.Perm.map _ ?_)
  refine (Multimap.values_groups_perm _).trans (.of_eq ?_)
  rw [List.map_map]
  exact List.map_id _

/-- An item that deletes the notification of a chat. -/
def undoes (chat item : OfflineDeliveredMsg) : Bool :=
  isChat chat && (item.cmdId = 0 || item.cmdId = mesChatDeliveredNotification) &&
    item.toId = chat.fromId && item.msgId = chat.msgId

theorem isChat_of_undoes {chat item : OfflineDeliveredMsg} (h : undoes chat item) :
    isChat chat ∧ ¬ isChat item := by
  have hno : ¬ (mesChatDeliver = 0 ∨ mesChatDeliver = mesChatDeliveredNotification) := by decide
  simp only [undoes, Bool.and_eq_true, Bool.or_eq_true, decide_eq_true_eq] at h
  refine ⟨h.1.1.1, ?_⟩
  intro hitem
  have hcmd : item.cmdId = mesChatDeliver := by simpa [isChat] using hitem
  exact hno (hcmd ▸ h.1.1.2)

theorem itemKeys_notifyDoc (env : Env) (user : String) (item : OfflineDeliveredMsg)
    {chat : OfflineDeliveredMsg} (hchat : isChat chat) :
    itemKeys user item (notifyDoc env chat) = undoes chat item := by
  by_cases hitem : isChat item = true
  · rw [itemKeys, if_pos hitem, manyMsgKeys_chat_notifyDoc, eq_comm, Bool.eq_false_iff]
    exact fun hundoes => (isChat_of_undoes hundoes).2 hitem
  · rw [itemKeys, if_neg hitem, Bool.eq_iff_iff]
    simp only [manyMsgKeys, undoes, hchat, List.contains_cons, List.contains_nil, Bool.and_eq_true,
      Bool.or_eq_true, decide_eq_true_eq, beq_iff_eq, Bool.or_false, true_and]
    rw [notifyDoc_toId, notifyDoc_cmdId, notifyDoc_msgId, eq_comm, @eq_comm _ chat.msgId,
      @eq_comm _ mesChatDeliveredNotification]
    tauto

theorem hits_notifyDoc (env : Env) (user : String) (items : List OfflineDeliveredMsg)
    {chat : OfflineDeliveredMsg} (hchat : isChat chat) :
    hits user items (notifyDoc env chat) = items.any (undoes chat) := by
  simp only [hits, itemKeys_notifyDoc env user _ hchat]

theorem notifyDocs_eq (env : Env) (user : String) {items : List OfflineDeliveredMsg}
    (h : items.Pairwise fun chat item => ¬ undoes chat item) :
    notifyDocs env user items = (items.filter isChat).map (notifyDoc env) := by
  induction h with
  | nil => rfl
  | @cons chat rest hchat _ ih =>
    rw [notifyDocs, ih]
    split
    · next hc =>
      have hnone : hits user rest (notifyDoc env chat) = false := by
        rw [hits_notifyDoc env user rest hc, List.any_eq_false]
        exact hchat
      rw [mark_false hnone, List.filter_cons_of_pos hc]
      rfl
    · next hc => rw [List.filter_cons_of_neg hc, List.nil_append]

theorem pairwise_of_notifyDocs (env : Env) (user : String) {items : List OfflineDeliveredMsg}
    (h : ∀ doc ∈ notifyDocs env user items, doc.bPulled = 0) :
    items.Pairwise fun chat item => ¬ undoes chat item := by
  induction items with
  | nil => exact .nil
  | cons chat rest ih =>
    rw [notifyDocs] at h
    refine .cons ?_ (ih fun doc hdoc => h doc (List.mem_append_right _ hdoc))
    intro item hitem hundoes
    have hchat := (isChat_of_undoes hundoes).1
    have hhit : hits user rest (notifyDoc env chat) = true := by
      rw [hits_notifyDoc env user rest hchat, List.any_eq_true]
      exact ⟨item, hitem, hundoes⟩
    have hdoc := h (mark (hits user rest) (notifyDoc env chat)) (by simp [hchat])
    simp [mark, hhit] at hdoc

theorem notifyDocs_perm_iff (env : Env) (user : String) (items : List OfflineDeliveredMsg) :
    (notifyDocs env user items).Perm ((items.filter isChat).map (notifyDoc env)) ↔
      items.Pairwise fun chat item => ¬ undoes chat item := by
  constructor
  · intro hperm
    refine pairwise_of_notifyDocs env user ?_
    intro doc hdoc
    obtain ⟨item, _, rfl⟩ := List.mem_map.mp (hperm.mem_iff.mp hdoc)
    rfl
  · intro hpair
    rw [notifyDocs_eq env user hpair]

/-- In the order of the batches, no item deletes a notification. -/
theorem pairwise_batches (items : List OfflineDeliveredMsg) :
    (batches items).Pairwise fun chat item => ¬ undoes chat item := by
  have hother : ∀ chat ∈ items.filter (!isChat ·), ∀ item, ¬ undoes chat item := by
    intro chat hchat item hundoes
    have hno := (List.mem_filter.mp hchat).2
    rw [(isChat_of_undoes hundoes).1] at hno
    cases hno
  refine List.pairwise_append.mpr ⟨?_, ?_, fun chat hchat item _ => hother chat hchat item⟩
  · exact List.pairwise_of_forall_mem_list fun chat hchat item _ => hother chat hchat item
  · refine List.pairwise_of_forall_mem_list ?_
    intro chat _ item hitem hundoes
    exact (isChat_of_undoes hundoes).2 (List.mem_filter.mp hitem).2

theorem same_oneAtATime_iff (env : Env) (store : Store) (msg : MESOfflineMsgDelivered)
    {items : List OfflineDeliveredMsg} (hitems : items.Perm msg.lsMsgs) :
    Same (handleOfflineMsgDelivered env store msg).store
        (oneAtATime env store { msg with lsMsgs := items }) ↔
      items.Pairwise fun chat item => ¬ undoes chat item := by
  have hbatch := map_seen_deliverItems env store msg.fromId msg.msgId msg.lsMsgs
  have hchats : ((items.filter isChat).map (notifyDoc env)).Perm
      ((msg.lsMsgs.filter isChat).map (notifyDoc env)) := (hitems.filter _).map _
  rw [← notifyDocs_perm_iff env msg.fromId items, Same, map_seen_oneAtATime]
  simp only [handleOfflineMsgDelivered]
  rw [hits_perm msg.fromId hitems]
  constructor
  · intro h
    exact (((List.perm_append_left_iff _).mp (hbatch.symm.trans h)).symm).trans hchats.symm
  · intro h
    exact hbatch.trans (List.Perm.append_left _ (h.trans hchats).symm)

/-- The batches do what the items do one at a time, those first that are no chats. In the order
of the request the items do the same exactly when none deletes the notification of a chat before
it. A pulling request does what a delivered request of its user does. -/
theorem delivered_batch (env : Env) (store : Store) (msg : MESOfflineMsgDelivered) (fromId : String) :
    Same (handleOfflineMsgDelivered env store msg).store
        (oneAtATime env store { msg with lsMsgs := batches msg.lsMsgs }) ∧
      (Same (handleOfflineMsgDelivered env store msg).store (oneAtATime env store msg) ↔
        msg.lsMsgs.Pairwise fun chat item => ¬ undoes chat item) ∧
      (handlePulledDelivered env store ⟨fromId, msg.fromId, msg.msgId, msg.lsMsgs⟩).store =
        (handleOfflineMsgDelivered env store msg).store ∧
      (handlePulledDelivered env store ⟨fromId, msg.fromId, msg.msgId, msg.lsMsgs⟩).notifies =
        (handleOfflineMsgDelivered env store msg).notifies := by
  refine ⟨?_, same_oneAtATime_iff env store msg .rfl, rfl, rfl⟩
  exact (same_oneAtATime_iff env store msg (batches_perm _)).mpr (pairwise_batches _)

/-- A user acknowledges a chat with himself and the notification of its delivery: the batches
leave the notification. -/
theorem not_same_in_order :
    let msg : MESOfflineMsgDelivered :=
      { fromId := "a", msgId := "2"
        lsMsgs := [⟨mesChatDeliver, "a", "a", "1"⟩, ⟨mesChatDeliveredNotification, "a", "a", "1"⟩] }
    ¬ Same (handleOfflineMsgDelivered {} [] msg).store (oneAtATime {} [] msg) := by
  decide +kernel

end Msg

end ImServer
