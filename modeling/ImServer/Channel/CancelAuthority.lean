import ImServer.Channel.ChannelChat
import ImServer.Msg.GroupChat

/-!
# Whose messages a cancel removes

A chat, a group chat and a channel chat are cancelled by their message ids, which the clients make
up. The filter of a direct chat has the receiver besides, that of a group chat its members, and the
collection is that of the channel. No filter has the sender. An administrator's cancel asks for the
administrators of the channel, and a user's own cancel asks for nothing.

A message counts as often as the stores hold it, so that one of two equal ones can be removed.
-/

namespace ImServer

open Login (Text)

/-- The offline messages, the group messages that their entries are about, and the channels. -/
structure Stores where
  store : Msg.Store := []
  grpStore : Msg.GrpStore := []
  channels : ChatServer := {}

/-- A message that waits: an offline message, a document of a collection of a channel, or an entry
of a message queue. -/
inductive Message where
  | offline (doc : Msg.OfflineMsg)
  | chat (collection : Text) (doc : ChatDoc)
  | queued (key : Text) (entry : String × RadioChat)
  deriving DecidableEq

/-- A cancel of a chat, of a group chat with the members that were fetched, or of a channel chat by
a user or an administrator. -/
inductive CancelRequest where
  | chat (env : Msg.Env) (msg : Msg.MESChatCancel)
  | group (memberInfo : Option (List String)) (msg : Msg.GroupChatCancel)
  | channel (msg : RadioCancelChat)
  | channelAdmin (msg : RadioCancelChat)

def CancelRequest.userId : CancelRequest → String
  | .chat _ msg => msg.fromId
  | .group _ msg => msg.fromId
  | .channel msg | .channelAdmin msg => msg.fromId

namespace Stores

variable (s : Stores)

def handle : CancelRequest → Stores
  | .chat env msg => { s with store := (Msg.onMsgChatCancel env s.store msg).2 }
  | .group memberInfo msg => { s with store := (Msg.onGrpMsgChatCancel memberInfo s.store msg).2 }
  | .channel msg => { s with channels := s.channels.onChannelCancelChat msg }
  | .channelAdmin msg => { s with channels := s.channels.onChannelAdminCancelChat msg }

/-- How often a message waits: for a user who is offline, in the collection of its channel or in a
queue. A message that was marked as pulled does not wait. -/
def count : Message → Nat
  | .offline doc => if doc.bPulled = 0 then s.store.count doc else 0
  | .chat collection doc => (s.channels.docs collection).count doc
  | .queued key entry => (s.channels.queues key).count entry

/-- The user is the sender of a channel chat or an administrator of its channel. -/
def OwnsChat (userId : String) (chat : RadioChat) : Prop :=
  chat.fromId = userId ∨
    CText.bytes userId ∈ s.channels.db.getChannelAdmin (CText.bytes chat.radioId)

/-- The user is the sender of the message, or an administrator of its channel. The entry of a group
chat has the group as its sender, and its message is a group message. -/
def Owns (userId : String) : Message → Prop
  | .offline doc =>
    if doc.cmdId = Msg.mesGrpchatDeliver then
      ∀ g ∈ s.grpStore, g.msgId = doc.msgId → g.grpId = doc.fromId → g.fromId = userId
    else doc.fromId = userId
  | .chat _ doc => s.OwnsChat userId doc.chat
  | .queued _ entry => s.OwnsChat userId entry.2

instance (userId : String) (chat : RadioChat) : Decidable (s.OwnsChat userId chat) :=
  inferInstanceAs (Decidable (_ ∨ _))

instance (userId : String) : (message : Message) → Decidable (s.Owns userId message)
  | .offline doc => inferInstanceAs (Decidable (if doc.cmdId = Msg.mesGrpchatDeliver then _ else _))
  | .chat _ _ | .queued _ _ => inferInstanceAs (Decidable (s.OwnsChat ..))

/-- Only messages of its sender are removed or replaced by a cancel. -/
def Authorised (r : CancelRequest) : Prop :=
  ∀ message, (s.handle r).count message < s.count message → s.Owns r.userId message

/-- The chat that `find_one` finds is the user's, or there is nothing to change about it: it is
cancelled in the same way already and not in the queue. -/
def MayCancelChat (msg : RadioCancelChat) (isAdmin : Bool) : Prop :=
  ∀ doc ∈ (s.channels.docs (ChatServer.collectionName msg.radioId)).find? (·.chat.msgId = msg.msgId),
    s.OwnsChat msg.fromId doc.chat ∨ doc.cancelled msg isAdmin = doc ∧
      (doc.id, doc.chat) ∉ s.channels.queues (ChatServer.msgCacheKey msg.radioId)

/-- If the request is carried out, what its filter finds waiting is the user's. -/
def MayCancel : CancelRequest → Prop
  | .chat env msg =>
    msg.fromId ≠ "" → msg.toId ≠ "" → msg.msgId ≠ "" → Msg.friendErr env.friend = .nonErr →
      env.written = true →
        ∀ doc ∈ s.store.find? (Msg.offlineMsgKeys msg.toId Msg.mesChatDeliver msg.msgId),
          doc.bPulled = 0 → doc.fromId = msg.fromId
  | .group memberInfo msg =>
    msg.groupId ≠ "" → msg.fromId ≠ "" → msg.msgId ≠ "" → Msg.isGrpIdValid msg.groupId = true →
      ∀ members ∈ memberInfo, msg.fromId ∈ members →
        ∀ doc ∈ s.store, Msg.manyUserKeys members Msg.mesGrpchatDeliver msg.msgId doc = true →
          doc.bPulled = 0 → s.Owns msg.fromId (.offline doc)
  | .channel msg => msg.radioId ≠ "" → msg.fromId ≠ "" → s.MayCancelChat msg false
  | .channelAdmin msg =>
    msg.radioId ≠ "" → msg.fromId ≠ "" → ChatServer.checkCancelMsgIsAdmin s.channels.db msg = .nonErr →
      s.MayCancelChat msg true

variable {s}

/-- A cancel that is not carried out leaves everything as it is. -/
theorem authorised_of_handle_eq {r : CancelRequest} (h : s.handle r = s) : s.Authorised r := by
  intro message hlt
  rw [h] at hlt
  exact absurd hlt (Nat.lt_irrefl _)

/-- The request has its fields, the two are friends, and mongo takes the document. -/
def ChatCancelled (env : Msg.Env) (msg : Msg.MESChatCancel) : Prop :=
  ¬ (msg.fromId = "" ∨ msg.toId = "" ∨ msg.msgId = "") ∧ Msg.friendErr env.friend = .nonErr ∧
    env.written = true

theorem onMsgChatCancel_of_cancelled {env : Msg.Env} {msg : Msg.MESChatCancel}
    (h : ChatCancelled env msg) (store : Msg.Store) :
    ∃ msg', (Msg.onMsgChatCancel env store msg).2 =
      Collection.replaceOne (Msg.offlineMsgKeys msg.toId Msg.mesChatDeliver msg.msgId)
        (.ofCancel msg') store := by
  obtain ⟨hchecked, hfriend, hwritten⟩ := h
  refine ⟨{ msg with sendState :=
    if Msg.getOfflineMsgPullStatus msg.toId Msg.mesChatDeliver msg.msgId store then 1 else 0 }, ?_⟩
  rw [Msg.onMsgChatCancel, if_neg hchecked, Msg.handleMsgChatCancelTask,
    if_neg (not_not.mpr hfriend), if_pos hwritten, Msg.replaceOne_eq]

theorem onMsgChatCancel_of_not_cancelled {env : Msg.Env} {msg : Msg.MESChatCancel}
    (h : ¬ ChatCancelled env msg) (store : Msg.Store) :
    (Msg.onMsgChatCancel env store msg).2 = store := by
  unfold Msg.onMsgChatCancel Msg.handleMsgChatCancelTask
  split
  · rfl
  · next hchecked =>
    dsimp only
    split
    · rfl
    · next hfriend =>
      rw [if_neg fun hwritten => h ⟨hchecked, not_not.mp hfriend, hwritten⟩]

/-- A cancel of a chat replaces the first document that its filter finds. -/
theorem authorised_chat_iff (env : Msg.Env) (msg : Msg.MESChatCancel) :
    s.Authorised (.chat env msg) ↔ s.MayCancel (.chat env msg) := by
  by_cases hdone : ChatCancelled env msg
  · obtain ⟨cancel, hstore⟩ := onMsgChatCancel_of_cancelled hdone s.store
    have hcmd {doc : Msg.OfflineMsg}
        (hdoc : doc ∈ s.store.find? (Msg.offlineMsgKeys msg.toId Msg.mesChatDeliver msg.msgId)) :
        doc.cmdId = Msg.mesChatDeliver := by
      have hkeys := List.find?_some hdoc
      simp only [Msg.offlineMsgKeys, Bool.and_eq_true, Bool.or_eq_true, decide_eq_true_eq] at hkeys
      exact hkeys.2.resolve_left (by decide)
    have hcount (doc : Msg.OfflineMsg) : (s.handle (.chat env msg)).count (.offline doc) <
        s.count (.offline doc) ↔ doc.bPulled = 0 ∧
          s.store.find? (Msg.offlineMsgKeys msg.toId Msg.mesChatDeliver msg.msgId) = some doc := by
      simp only [count, handle, hstore]
      split
      · next hpending =>
        rw [Collection.count_replaceOne_lt_iff fun first hfirst hsame => ?_]
        · simp [hpending]
        · have hfirst := hcmd hfirst
          rw [← hsame] at hfirst
          exact absurd hfirst (by simp [Msg.OfflineMsg.ofCancel, Msg.mesChatcancelDeliver,
            Msg.mesChatDeliver])
      · next hpending => simp [hpending]
    constructor
    · intro h _ _ _ _ _ doc hdoc hpending
      have howns := h (.offline doc) ((hcount doc).mpr ⟨hpending, hdoc⟩)
      rwa [Owns, if_neg (by rw [hcmd hdoc]; decide)] at howns
    · intro h message hlt
      cases message with
      | offline doc =>
        obtain ⟨hpending, hdoc⟩ := (hcount doc).mp hlt
        obtain ⟨hchecked, hfriend, hwritten⟩ := hdone
        simp only [not_or] at hchecked
        rw [Owns, if_neg (by rw [hcmd hdoc]; decide)]
        exact h hchecked.1 hchecked.2.1 hchecked.2.2 hfriend hwritten doc hdoc hpending
      | chat collection doc => exact absurd hlt (Nat.lt_irrefl _)
      | queued key entry => exact absurd hlt (Nat.lt_irrefl _)
  · refine iff_of_true (authorised_of_handle_eq ?_) ?_
    · rw [handle, onMsgChatCancel_of_not_cancelled hdone]
    · intro hfrom hto hmsg hfriend hwritten
      exact absurd ⟨by simp [hfrom, hto, hmsg], hfriend, hwritten⟩ hdone

theorem count_updateMany {filter : Msg.OfflineMsg → Bool} {doc : Msg.OfflineMsg} (store : Msg.Store)
    (hpending : doc.bPulled = 0) :
    (Msg.updateMany filter store).count doc = if filter doc then 0 else store.count doc := by
  induction store with
  | nil => simp [Msg.updateMany]
  | cons first rest ih =>
    have hcons : Msg.updateMany filter (first :: rest) =
        (if filter first then { first with bPulled := first.bPulled + 1 } else first) ::
          Msg.updateMany filter rest := rfl
    rw [hcons, List.count_cons, List.count_cons, ih]
    by_cases hfirst : filter first = true
    · -- a document that is found does not wait afterwards
      have hne : ({ first with bPulled := first.bPulled + 1 } : Msg.OfflineMsg) ≠ doc := by
        rintro rfl
        simp at hpending
      have hother : filter doc = false → first ≠ doc := by
        rintro hdoc rfl
        rw [hfirst] at hdoc
        cases hdoc
      cases hdoc : filter doc with
      | true => simp [hfirst, hne]
      | false => simp [hfirst, hne, hother hdoc]
    · have hother : filter doc = true → first ≠ doc := by
        rintro hdoc rfl
        exact hfirst hdoc
      cases hdoc : filter doc with
      | true => simp [hfirst, hother hdoc]
      | false => simp [hfirst]

/-- The request has its fields and a valid group, and its sender is a member of it. -/
def GroupCancelled (members : List String) (msg : Msg.GroupChatCancel) : Prop :=
  ¬ (msg.groupId = "" ∨ msg.fromId = "" ∨ msg.msgId = "" ∨ !Msg.isGrpIdValid msg.groupId) ∧
    msg.fromId ∈ members

theorem onGrpMsgChatCancel_of_cancelled {members : List String} {msg : Msg.GroupChatCancel}
    (h : GroupCancelled members msg) (store : Msg.Store) :
    (Msg.onGrpMsgChatCancel (some members) store msg).2 = Msg.sendGroupCancelMsg msg members store := by
  rw [Msg.onGrpMsgChatCancel, if_neg h.1]
  simp only [if_pos h.2]

theorem onGrpMsgChatCancel_of_not_cancelled {memberInfo : Option (List String)}
    {msg : Msg.GroupChatCancel} (h : ∀ members ∈ memberInfo, ¬ GroupCancelled members msg)
    (store : Msg.Store) : (Msg.onGrpMsgChatCancel memberInfo store msg).2 = store := by
  unfold Msg.onGrpMsgChatCancel
  split
  · rfl
  · next hchecked =>
    cases memberInfo with
    | none => rfl
    | some members =>
      dsimp only
      rw [if_neg fun hmember => h members rfl ⟨hchecked, hmember⟩]

/-- A cancel of a group chat deletes all the entries that its filter finds. -/
theorem authorised_group_iff (memberInfo : Option (List String)) (msg : Msg.GroupChatCancel) :
    s.Authorised (.group memberInfo msg) ↔ s.MayCancel (.group memberInfo msg) := by
  by_cases hdone : ∃ members ∈ memberInfo, GroupCancelled members msg
  · obtain ⟨members, hmembers, hdone⟩ := hdone
    cases Option.mem_def.mp hmembers
    have hcount (doc : Msg.OfflineMsg) : (s.handle (.group (some members) msg)).count (.offline doc) <
        s.count (.offline doc) ↔ doc.bPulled = 0 ∧
          Msg.manyUserKeys members Msg.mesGrpchatDeliver msg.msgId doc = true ∧ doc ∈ s.store := by
      simp only [count, handle, onGrpMsgChatCancel_of_cancelled hdone, Msg.sendGroupCancelMsg,
        Msg.insertMany]
      split
      · next hpending =>
        rw [List.count_append, count_updateMany _ hpending]
        split
        · next hfound =>
          have hcancels : (members.map fun toId =>
              Msg.OfflineMsg.ofCancel (Msg.memberCancel s.store msg toId)).count doc = 0 := by
            rw [List.count_eq_zero]
            intro hmem
            obtain ⟨toId, -, rfl⟩ := List.mem_map.mp hmem
            simp [Msg.manyUserKeys, Msg.OfflineMsg.ofCancel, Msg.mesGrpchatDeliver,
              Msg.mesChatcancelDeliver] at hfound
          simp [hcancels, hpending, hfound, List.count_pos_iff]
        · next hfound => simp [hfound]
      · next hpending => simp [hpending]
    constructor
    · intro h _ _ _ _ members' hmembers' _ doc hdoc hfound hpending
      cases Option.mem_def.mp hmembers'
      exact h (.offline doc) ((hcount doc).mpr ⟨hpending, hfound, hdoc⟩)
    · intro h message hlt
      cases message with
      | offline doc =>
        obtain ⟨hpending, hfound, hdoc⟩ := (hcount doc).mp hlt
        obtain ⟨hchecked, hmember⟩ := hdone
        simp only [not_or, Bool.not_eq_true', Bool.not_eq_false] at hchecked
        obtain ⟨hgroup, hfrom, hmsg, hvalid⟩ := hchecked
        exact h hgroup hfrom hmsg hvalid members rfl hmember doc hdoc hfound hpending
      | chat collection doc => exact absurd hlt (Nat.lt_irrefl _)
      | queued key entry => exact absurd hlt (Nat.lt_irrefl _)
  · refine iff_of_true (authorised_of_handle_eq ?_) ?_
    · rw [handle, onGrpMsgChatCancel_of_not_cancelled fun members hmembers h =>
        hdone ⟨members, hmembers, h⟩]
    · intro hgroup hfrom hmsg hvalid members hmembers hmember
      exact absurd ⟨members, hmembers, by simp [hgroup, hfrom, hmsg, hvalid], hmember⟩ hdone

theorem replaceF_eq {filter : ChatDoc → Bool} (update : ChatDoc → ChatDoc) {docs : List ChatDoc}
    {first : ChatDoc} (h : docs.find? filter = some first) :
    docs.replaceF (fun doc => if filter doc then some (update doc) else none) =
      Collection.replaceOne filter (update first) docs := by
  induction docs with
  | nil => cases h
  | cons doc rest ih =>
    rw [List.find?_cons] at h
    rw [List.replaceF_cons]
    unfold Collection.replaceOne
    split at h
    · next hdoc =>
      cases h
      simp [hdoc]
    · next hdoc => simp [hdoc, ih h]

section Channel

variable (server : ChatServer) (msg : RadioCancelChat) (isAdmin : Bool)

/-- The document that `find_one` finds. -/
def foundChat : Option ChatDoc :=
  (server.docs (ChatServer.collectionName msg.radioId)).find? (·.chat.msgId = msg.msgId)

theorem removeQueued_docs : (server.removeQueued msg).docs = server.docs := by
  unfold ChatServer.removeQueued
  split <;> rfl

theorem removeQueued_queues : (server.removeQueued msg).queues =
    match foundChat server msg with
    | none => server.queues
    | some doc =>
      Function.update server.queues (ChatServer.msgCacheKey msg.radioId)
        ((server.queues (ChatServer.msgCacheKey msg.radioId)).reverse.erase
          (doc.id, doc.chat)).reverse := by
  unfold ChatServer.removeQueued
  cases hfind : foundChat server msg with
  | none =>
    unfold foundChat at hfind
    simp only [hfind]
  | some doc =>
    unfold foundChat at hfind
    simp only [hfind]
    rfl

theorem updateChannelOfflineMsg_queues :
    (server.updateChannelOfflineMsg msg isAdmin).2.queues = server.queues := by
  unfold ChatServer.updateChannelOfflineMsg
  dsimp only
  split
  · split <;> rfl
  · rfl

theorem updateChannelOfflineMsg_docs : (server.updateChannelOfflineMsg msg isAdmin).2.docs =
    match foundChat server msg with
    | none => server.docs
    | some doc =>
      if doc.cancelled msg isAdmin = doc then server.docs
      else
        Function.update server.docs (ChatServer.collectionName msg.radioId)
          (Collection.replaceOne (·.chat.msgId = msg.msgId) (doc.cancelled msg isAdmin)
            (server.docs (ChatServer.collectionName msg.radioId))) := by
  unfold ChatServer.updateChannelOfflineMsg
  cases hfind : foundChat server msg with
  | none =>
    unfold foundChat at hfind
    simp only [hfind]
  | some doc =>
    have hreplaced := replaceF_eq (·.cancelled msg isAdmin) hfind
    unfold foundChat at hfind
    simp only [hfind]
    split
    · rfl
    · simp only [decide_eq_true_eq] at hreplaced
      rw [hreplaced]

theorem cancelChatMsgToDataBase_eq :
    (server.cancelChatMsgToDataBase msg isAdmin).docs =
        ((server.removeQueued msg).updateChannelOfflineMsg msg isAdmin).2.docs ∧
      (server.cancelChatMsgToDataBase msg isAdmin).queues =
        ((server.removeQueued msg).updateChannelOfflineMsg msg isAdmin).2.queues := by
  unfold ChatServer.cancelChatMsgToDataBase
  dsimp only
  split <;> exact ⟨rfl, rfl⟩

end Channel

/-- A cancel of a channel chat replaces the document that is found and takes its message out of the
queue. -/
theorem authorised_cancelChat_iff (msg : RadioCancelChat) (isAdmin : Bool) :
    (∀ message, { s with channels := s.channels.cancelChatMsgToDataBase msg isAdmin }.count message <
      s.count message → s.Owns msg.fromId message) ↔ s.MayCancelChat msg isAdmin := by
  obtain ⟨hdocs, hqueues⟩ := cancelChatMsgToDataBase_eq s.channels msg isAdmin
  rw [updateChannelOfflineMsg_queues, removeQueued_queues] at hqueues
  rw [updateChannelOfflineMsg_docs] at hdocs
  have hfound : foundChat (s.channels.removeQueued msg) msg = foundChat s.channels msg := by
    unfold foundChat
    rw [removeQueued_docs]
  rw [hfound, removeQueued_docs] at hdocs
  cases hfind : foundChat s.channels msg with
  | none =>
    rw [hfind] at hdocs hqueues
    have hmay : s.MayCancelChat msg isAdmin := by
      intro doc hdoc
      cases hfind.symm.trans hdoc
    refine iff_of_true (fun message hlt => ?_) hmay
    cases message with
    | offline doc => exact absurd hlt (Nat.lt_irrefl _)
    | chat collection doc =>
      simp only [count, hdocs] at hlt
      exact absurd hlt (Nat.lt_irrefl _)
    | queued key entry =>
      simp only [count, hqueues] at hlt
      exact absurd hlt (Nat.lt_irrefl _)
  | some found =>
    rw [hfind] at hdocs hqueues
    have hmay : s.MayCancelChat msg isAdmin ↔ s.OwnsChat msg.fromId found.chat ∨
        found.cancelled msg isAdmin = found ∧
          (found.id, found.chat) ∉ s.channels.queues (ChatServer.msgCacheKey msg.radioId) := by
      unfold foundChat at hfind
      simp only [MayCancelChat, hfind, Option.mem_some_iff, forall_eq']
    have hchat (collection : Text) (doc : ChatDoc) :
        { s with channels := s.channels.cancelChatMsgToDataBase msg isAdmin }.count
            (.chat collection doc) < s.count (.chat collection doc) ↔
          collection = ChatServer.collectionName msg.radioId ∧ doc = found ∧
            found.cancelled msg isAdmin ≠ found := by
      simp only [count, hdocs]
      split
      · next hsame => simp [hsame]
      · next hchanged =>
        by_cases hcollection : collection = ChatServer.collectionName msg.radioId
        · rw [hcollection, Function.update_self, Collection.count_replaceOne_lt_iff]
          · unfold foundChat at hfind
            rw [hfind, Option.some.injEq, eq_comm]
            simp [hchanged]
          · intro first hfirst
            cases hfind.symm.trans hfirst
            exact hchanged
        · simp [hcollection]
    have hqueued (key : Text) (entry : String × RadioChat) :
        { s with channels := s.channels.cancelChatMsgToDataBase msg isAdmin }.count
            (.queued key entry) < s.count (.queued key entry) ↔
          key = ChatServer.msgCacheKey msg.radioId ∧ entry = (found.id, found.chat) ∧
            entry ∈ s.channels.queues key := by
      simp only [count, hqueues]
      by_cases hkey : key = ChatServer.msgCacheKey msg.radioId
      · rw [hkey, Function.update_self, List.count_reverse, List.count_erase, List.count_reverse]
        rw [← List.count_pos_iff (a := entry)]
        by_cases hentry : entry = (found.id, found.chat)
        · simp only [hentry, beq_self_eq_true, if_true, true_and]
          omega
        · simp [hentry, Ne.symm hentry]
      · simp [hkey]
    rw [hmay]
    constructor
    · intro h
      by_cases hchanged : found.cancelled msg isAdmin = found
      · by_cases hmem : (found.id, found.chat) ∈ s.channels.queues (ChatServer.msgCacheKey msg.radioId)
        · exact .inl (h (.queued _ _) ((hqueued _ _).mpr ⟨rfl, rfl, hmem⟩))
        · exact .inr ⟨hchanged, hmem⟩
      · exact .inl (h (.chat _ _) ((hchat _ _).mpr ⟨rfl, rfl, hchanged⟩))
    · intro h message hlt
      cases message with
      | offline doc => exact absurd hlt (Nat.lt_irrefl _)
      | chat collection doc =>
        obtain ⟨-, rfl, hchanged⟩ := (hchat collection doc).mp hlt
        exact h.resolve_right fun hsame => hchanged hsame.1
      | queued key entry =>
        obtain ⟨rfl, rfl, hmem⟩ := (hqueued key entry).mp hlt
        exact h.resolve_right fun hsame => hsame.2 hmem

theorem authorised_channel_iff (msg : RadioCancelChat) :
    s.Authorised (.channel msg) ↔ s.MayCancel (.channel msg) := by
  by_cases hempty : msg.radioId = "" ∨ msg.fromId = ""
  · refine iff_of_true (authorised_of_handle_eq ?_) fun hradio hfrom => ?_
    · rw [handle, ChatServer.onChannelCancelChat, if_pos hempty]
    · exact absurd hempty (by simp [hradio, hfrom])
  · have hhandle : s.handle (.channel msg) =
        { s with channels := s.channels.cancelChatMsgToDataBase msg false } := by
      rw [handle, ChatServer.onChannelCancelChat, if_neg hempty]
    obtain ⟨hradio, hfrom⟩ := not_or.mp hempty
    unfold Authorised
    rw [hhandle, MayCancel, CancelRequest.userId, authorised_cancelChat_iff]
    simp [hradio, hfrom]

theorem authorised_channelAdmin_iff (msg : RadioCancelChat) :
    s.Authorised (.channelAdmin msg) ↔ s.MayCancel (.channelAdmin msg) := by
  by_cases hempty : msg.radioId = "" ∨ msg.fromId = ""
  · refine iff_of_true (authorised_of_handle_eq ?_) fun hradio hfrom => ?_
    · rw [handle, ChatServer.onChannelAdminCancelChat, if_pos hempty]
    · exact absurd hempty (by simp [hradio, hfrom])
  · obtain ⟨hradio, hfrom⟩ := not_or.mp hempty
    by_cases hadmin : ChatServer.checkCancelMsgIsAdmin s.channels.db msg = .nonErr
    · have hhandle : s.handle (.channelAdmin msg) =
          { s with channels := s.channels.cancelChatMsgToDataBase msg true } := by
        rw [handle, ChatServer.onChannelAdminCancelChat, if_neg hempty, hadmin]
      unfold Authorised
      rw [hhandle, MayCancel, CancelRequest.userId, authorised_cancelChat_iff]
      simp [hradio, hfrom, hadmin]
    · refine iff_of_true (fun message hlt => ?_) fun _ _ h => absurd h hadmin
      have hrefused : s.channels.onChannelAdminCancelChat msg =
          s.channels.sendAck (ChatServer.checkCancelMsgIsAdmin s.channels.db msg) := by
        rw [ChatServer.onChannelAdminCancelChat, if_neg hempty]
        split
        · next h => exact absurd h hadmin
        · rfl
      rw [handle, hrefused] at hlt
      cases message with
      | _ => exact absurd hlt (Nat.lt_irrefl _)

/-- A cancel removes only messages of its sender, or of a channel of which he is an administrator,
exactly if what it finds is his. -/
theorem cancel_authorised_iff (s : Stores) (r : CancelRequest) : s.Authorised r ↔ s.MayCancel r := by
  cases r with
  | chat env msg => exact authorised_chat_iff env msg
  | group memberInfo msg => exact authorised_group_iff memberInfo msg
  | channel msg => exact authorised_channel_iff msg
  | channelAdmin msg => exact authorised_channelAdmin_iff msg

theorem getChannelAdmin_of_collectionName {db : ChannelDb} {a b : String}
    (h : ChatServer.collectionName a = ChatServer.collectionName b) :
    db.getChannelAdmin (CText.bytes a) = db.getChannelAdmin (CText.bytes b) := by
  rw [ChannelDb.getChannelAdmin, ChannelDb.getChannelAdmin, ChannelDb.channelAdminKey,
    ChannelDb.channelAdminKey, List.append_cancel_left h]

/-- An administrator's cancel is authorised, since a collection holds the chats of its channel. -/
theorem authorised_channelAdmin (msg : RadioCancelChat)
    (hfiled : ∀ doc ∈ s.channels.docs (ChatServer.collectionName msg.radioId),
      ChatServer.collectionName doc.chat.radioId = ChatServer.collectionName msg.radioId) :
    s.Authorised (.channelAdmin msg) := by
  refine (authorised_channelAdmin_iff msg).mpr fun _ _ hadmin doc hdoc => .inl (.inr ?_)
  rw [getChannelAdmin_of_collectionName (hfiled doc (List.mem_of_find?_eq_some hdoc))]
  unfold ChatServer.checkCancelMsgIsAdmin at hadmin
  split at hadmin
  · cases hadmin
  · next h => exact not_not.mp h

/-- A collection holds the chats of its channel. -/
def Filed (server : ChatServer) : Prop :=
  ∀ collection, ∀ doc ∈ server.docs collection,
    ChatServer.collectionName doc.chat.radioId = collection

theorem filed_cancel {server : ChatServer} (h : Filed server) (msg : RadioCancelChat) (isAdmin : Bool) :
    Filed (server.cancelChatMsgToDataBase msg isAdmin) := by
  intro collection doc hdoc
  rw [(cancelChatMsgToDataBase_eq server msg isAdmin).1, updateChannelOfflineMsg_docs,
    removeQueued_docs] at hdoc
  have hfound : foundChat (server.removeQueued msg) msg = foundChat server msg := by
    unfold foundChat
    rw [removeQueued_docs]
  rw [hfound] at hdoc
  split at hdoc
  · exact h collection doc hdoc
  · next found hfind =>
    split at hdoc
    · exact h collection doc hdoc
    · by_cases hname : collection = ChatServer.collectionName msg.radioId
      · subst hname
        rw [Function.update_self] at hdoc
        obtain rfl | hold := Collection.mem_of_mem_replaceOne hdoc
        · exact h _ found (List.mem_of_find?_eq_some hfind)
        · exact h _ doc hold
      · rw [Function.update_of_ne hname] at hdoc
        exact h collection doc hdoc

/-- A chat that is stored goes into the collection of its channel. -/
theorem insertChannelOfflineMsg_docs (server : ChatServer) (id : String) (msg : RadioChat) :
    (server.insertChannelOfflineMsg id msg).2.docs = server.docs ∨
      ∃ doc : ChatDoc, doc.chat.radioId = msg.radioId ∧
        (server.insertChannelOfflineMsg id msg).2.docs = Function.update server.docs
          (ChatServer.collectionName msg.radioId)
          (server.docs (ChatServer.collectionName msg.radioId) ++ [doc]) := by
  unfold ChatServer.insertChannelOfflineMsg
  dsimp only
  split
  · exact .inl rfl
  · split
    · exact .inl rfl
    · exact .inr ⟨⟨id, msg, 0⟩, rfl, rfl⟩

theorem insertChannelChatMsgToDataBase_docs (server : ChatServer) (size : Nat) (id : String)
    (msg : RadioChat) :
    (server.insertChannelChatMsgToDataBase size id msg).docs = server.docs ∨
      (server.insertChannelChatMsgToDataBase size id msg).docs =
        (server.insertChannelOfflineMsg id msg).2.docs := by
  unfold ChatServer.insertChannelChatMsgToDataBase
  split
  · refine .inr ?_
    dsimp only
    split
    · rfl
    · split <;> rfl
  · exact .inl rfl

theorem onChannelChat_docs (server : ChatServer) (size now : Nat) (id : String) (msg : RadioChat) :
    (server.onChannelChat size now id msg).docs = server.docs ∨
      ∃ doc : ChatDoc, doc.chat.radioId = msg.radioId ∧
        (server.onChannelChat size now id msg).docs = Function.update server.docs
          (ChatServer.collectionName msg.radioId)
          (server.docs (ChatServer.collectionName msg.radioId) ++ [doc]) := by
  unfold ChatServer.onChannelChat
  dsimp only
  split
  · exact .inl rfl
  · split
    · exact .inl rfl
    · obtain hdocs | hdocs :=
        insertChannelChatMsgToDataBase_docs server size id { msg with msgTime := now }
      · exact .inl hdocs
      · rw [hdocs]
        exact insertChannelOfflineMsg_docs server id { msg with msgTime := now }

theorem filed_chat {server : ChatServer} (h : Filed server) (size now : Nat) (id : String)
    (msg : RadioChat) : Filed (server.onChannelChat size now id msg) := by
  intro collection doc hdoc
  obtain hdocs | ⟨new, hnew, hdocs⟩ := onChannelChat_docs server size now id msg
  · exact h collection doc (hdocs ▸ hdoc)
  · rw [hdocs] at hdoc
    by_cases hname : collection = ChatServer.collectionName msg.radioId
    · subst hname
      rw [Function.update_self] at hdoc
      obtain hold | hdoc := List.mem_append.mp hdoc
      · exact h _ doc hold
      · rw [List.mem_singleton.mp hdoc, hnew]
    · rw [Function.update_of_ne hname] at hdoc
      exact h collection doc hdoc

theorem filed_handle {server : ChatServer} (h : Filed server) (size : Nat) (client : Login.RedisClient)
    (e : ChatServer.Event) : Filed (server.handle size client e) := by
  cases e with
  | notice login notice => exact h
  | chat now id msg => exact filed_chat h size now id msg
  | cancel msg =>
    rw [ChatServer.handle, ChatServer.onChannelCancelChat]
    split
    · exact h
    · exact filed_cancel h msg false
  | adminCancel msg =>
    rw [ChatServer.handle, ChatServer.onChannelAdminCancelChat]
    split
    · exact h
    · split
      · exact filed_cancel h msg true
      · exact h

/-- Each collection holds the chats of its channel at all times. -/
theorem filed_run (size : Nat) (client : Login.RedisClient) (events : List ChatServer.Event) :
    Filed (ChatServer.run size client events) :=
  List.foldlRecOn events _ (fun _ _ hdoc => absurd hdoc List.not_mem_nil)
    fun _ h e _ => filed_handle h size client e

/-- Ann's chat to Bob, the entry that Bob has of her chat to a group, and her chat in channel 5. -/
def annsChats : Stores where
  store := [.ofChat 1 { fromId := "ann", toId := "bob", msgId := "m", content := "hi" },
    .ofGrpChat
      { fromId := "ann", grpId := "group00000000000000a1", msgId := "g", content := "hi" } "bob"]
  grpStore :=
    [.ofChat { fromId := "ann", grpId := "group00000000000000a1", msgId := "g", content := "hi" }]
  channels :=
    { docs := fun collection =>
        if collection = ChatServer.collectionName "5" then
          [{ id := "1", chat := { fromId := "ann", radioId := "5", msgId := "c", content := "hi" } }]
        else [] }

/-- Carl, who has sent none of them and is no administrator, cancels all three. -/
def carlsCancels : List (CancelRequest × Message) :=
  [(.chat {} { fromId := "carl", toId := "bob", msgId := "m" },
      .offline (.ofChat 1 { fromId := "ann", toId := "bob", msgId := "m", content := "hi" })),
    (.group (some ["ann", "bob", "carl"])
        { fromId := "carl", groupId := "group00000000000000a1", msgId := "g" },
      .offline (.ofGrpChat
        { fromId := "ann", grpId := "group00000000000000a1", msgId := "g", content := "hi" } "bob")),
    (.channel { fromId := "carl", radioId := "5", msgId := "c" },
      .chat (ChatServer.collectionName "5")
        { id := "1", chat := { fromId := "ann", radioId := "5", msgId := "c", content := "hi" } })]

theorem not_cancel_authorised : ¬ ∃ cancel ∈ carlsCancels, annsChats.Authorised cancel.1 := by
  have hremoved : ∀ cancel ∈ carlsCancels,
      (annsChats.handle cancel.1).count cancel.2 < annsChats.count cancel.2 ∧
        ¬ annsChats.Owns cancel.1.userId cancel.2 := by decide +kernel
  rintro ⟨cancel, hcancel, hauthorised⟩
  obtain ⟨hlt, howns⟩ := hremoved cancel hcancel
  exact howns (hauthorised cancel.2 hlt)

end Stores

end ImServer
