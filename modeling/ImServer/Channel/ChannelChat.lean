import ImServer.Channel.ChannelRolls
import ImServer.Login.ChannelSets

/-!
# Chats of a channel

A chat is stored in the mongo collection of its channel and in its message queue, and sent to the
members (channel/channel_chat.cpp), unless the channel is not normal, it is muted and the sender no
administrator, or the channel is not on the sender's list. What decides this is written by the
notifications, so that it is what the notifications so far have said, as long as ids are plain.

Commands succeed; the unique index of a collection refuses a second document with the same message
id. The members that a message goes to are given as a whole, not in portions of 500.
-/

namespace ImServer

open Login (Text RedisClient)
open Login.ChannelRedis (keyOf)

/-- The codes of the answers to a chat or a cancellation. -/
inductive RadioErr where
  | nonErr
  | exceptErr
  | errChatUnhealthy
  | errRadioDismiss
  | errRadioNospeak
  | errRadioIsDelete
  | errRadioAdmin
  deriving DecidableEq, Repr

structure RadioChat where
  fromId : String
  radioId : String
  msgId : String
  msgTime : Nat := 0
  encrypt : Nat := 0
  content : String
  extend : String := ""
  deriving DecidableEq, Repr

/-- `RadioCancelChat`, as far as it is read. -/
structure RadioCancelChat where
  fromId : String
  radioId : String
  msgId : String
  extend : String := ""
  deriving DecidableEq, Repr

/-- A document of a collection; `isCancel` is 0 where the field is not there. -/
structure ChatDoc where
  id : String
  chat : RadioChat
  isCancel : Nat := 0
  deriving DecidableEq, Repr

/-- A document after `UpdateChannelOfflineMsg`, which says whether an administrator has cancelled
it. -/
def ChatDoc.cancelled (doc : ChatDoc) (msg : RadioCancelChat) (isAdmin : Bool) : ChatDoc :=
  { doc with chat := { doc.chat with extend := msg.extend }, isCancel := if isAdmin then 1 else 2 }

/-- A task of the sending pool, with the members that it is for. -/
inductive Sending where
  | sendChat (id : String) (chat : RadioChat) (members : Finset Text)
  | sendCancel (cancel : RadioCancelChat) (members : Finset Text) (isAdmin : Bool)
  | push (fromId msgId radioId : String) (members : Finset Text)
  deriving DecidableEq

structure ChatServer where
  db : ChannelDb := {}
  /-- The documents of each collection. -/
  docs : Text → List ChatDoc := fun _ => []
  /-- The queues, with the mongo id and the message of each entry. -/
  queues : Text → List (String × RadioChat) := fun _ => []
  sendings : List Sending := []
  acks : List RadioErr := []

namespace ChatServer

variable (size : Nat) (s : ChatServer)

/-- The driver takes the name of a collection as a text that ends at its first NUL. -/
def collectionName (radioId : String) : Text :=
  CText.bytes "chnn_" ++ CText.cStr (CText.bytes radioId)

def msgCacheKey (radioId : String) : Text := keyOf "chnn_" (CText.cStr (CText.bytes radioId))

def sendAck (err : RadioErr) : ChatServer := { s with acks := s.acks ++ [err] }

/-- The checks of `insertChannelChatMsgToDataBase`, one after the other. The first that fails is
what is answered. -/
def checkChat (db : ChannelDb) (msg : RadioChat) : RadioErr :=
  let radioId := CText.bytes msg.radioId
  let info := db.getChannelInfo radioId
  if info.status ≠ chnnNormal then .errRadioDismiss
  else if info.unspeak = 1 ∧ CText.bytes msg.fromId ∉ db.getChannelAdmin radioId then .errRadioNospeak
  else if radioId ∉ (db.getUserChannel msg.fromId).ids then .errRadioIsDelete
  else .nonErr

/-- What the insertion returns: the new id, `E11000` for a message id that is there, or nothing. -/
def insertChannelOfflineMsg (id : String) (msg : RadioChat) : String × ChatServer :=
  let collection := collectionName msg.radioId
  if msg.msgTime = 0 ∨ msg.msgId = "" then ("", s)
  else if ∃ doc ∈ s.docs collection, doc.chat.msgId = msg.msgId then ("E11000", s)
  else
    (id, { s with docs := Function.update s.docs collection (s.docs collection ++ [⟨id, msg, 0⟩]) })

def pushMsgToMsgQueue (id : String) (msg : RadioChat) : ChatServer :=
  let key := msgCacheKey msg.radioId
  let queue := s.queues key ++ [(id, msg)]
  { s with
    queues := Function.update s.queues key (if size < queue.length then queue.tail else queue) }

/-- The tasks for the online and for the offline members. -/
def sendMembers (radioId : String) (online offline : Finset Text → Sending) : ChatServer :=
  let tasks (set : Finset Text) (task : Finset Text → Sending) : List Sending :=
    if set = ∅ then [] else [task set]
  { s with
    sendings := s.sendings ++ tasks (s.db.getChannelUser (CText.bytes radioId)) online ++
      tasks (s.db.getChannelOfflineUser (CText.bytes radioId)) offline }

def insertChannelChatMsgToDataBase (id : String) (msg : RadioChat) : ChatServer :=
  match checkChat s.db msg with
  | .nonErr =>
    let (currId, s) := s.insertChannelOfflineMsg id msg
    if currId = "" then s.sendAck .exceptErr
    else if currId = "E11000" then s.sendAck .nonErr
    else
      ((s.pushMsgToMsgQueue size currId msg).sendAck .nonErr).sendMembers msg.radioId
        (.sendChat currId msg) (.push msg.fromId msg.msgId msg.radioId)
  | err => s.sendAck err

/-- A chat that comes at the time `now`, and that mongo would store under `id`. -/
def onChannelChat (now : Nat) (id : String) (msg : RadioChat) : ChatServer :=
  let msg := { msg with msgTime := now }
  if msg.radioId = "" ∨ msg.fromId = "" then s
  else if msg.content = "" then s.sendAck .errChatUnhealthy
  else s.insertChannelChatMsgToDataBase size id msg

def removeMsgFromMsgQueue (radioId : String) (entry : String × RadioChat) : ChatServer :=
  let key := msgCacheKey radioId
  { s with
    queues := Function.update s.queues key ((s.queues key).reverse.erase entry).reverse }

/-- `UpdateChannelOfflineMsg`, with the number of modified documents. -/
def updateChannelOfflineMsg (msg : RadioCancelChat) (isAdmin : Bool) : Nat × ChatServer :=
  let collection := collectionName msg.radioId
  match (s.docs collection).find? (·.chat.msgId = msg.msgId) with
  | some doc =>
    if doc.cancelled msg isAdmin = doc then (0, s)
    else
      (1, { s with
        docs := Function.update s.docs collection
          ((s.docs collection).replaceF fun doc =>
            if doc.chat.msgId = msg.msgId then some (doc.cancelled msg isAdmin) else none) })
  | none => (0, s)

/-- The message that `GetChannelOfflineMsg` finds leaves the queue. -/
def removeQueued (msg : RadioCancelChat) : ChatServer :=
  match (s.docs (collectionName msg.radioId)).find? (·.chat.msgId = msg.msgId) with
  | some doc => s.removeMsgFromMsgQueue msg.radioId (doc.id, doc.chat)
  | none => s

def cancelChatMsgToDataBase (msg : RadioCancelChat) (isAdmin : Bool) : ChatServer :=
  let (modified, s) := (s.removeQueued msg).updateChannelOfflineMsg msg isAdmin
  if modified = 0 then s.sendAck .exceptErr
  else
    (s.sendAck .nonErr).sendMembers msg.radioId (.sendCancel msg · isAdmin)
      (.push msg.fromId msg.msgId msg.radioId)

def onChannelCancelChat (msg : RadioCancelChat) : ChatServer :=
  if msg.radioId = "" ∨ msg.fromId = "" then s else s.cancelChatMsgToDataBase msg false

def checkCancelMsgIsAdmin (db : ChannelDb) (msg : RadioCancelChat) : RadioErr :=
  if CText.bytes msg.fromId ∉ db.getChannelAdmin (CText.bytes msg.radioId) then .errRadioAdmin
  else .nonErr

def onChannelAdminCancelChat (msg : RadioCancelChat) : ChatServer :=
  if msg.radioId = "" ∨ msg.fromId = "" then s
  else
    match checkCancelMsgIsAdmin s.db msg with
    | .nonErr => s.cancelChatMsgToDataBase msg true
    | err => s.sendAck err

/-- A notification comes with the records of the login server, which it does not change. -/
inductive Event where
  | notice (login : Redis) (notice : Notice)
  | chat (now : Nat) (id : String) (msg : RadioChat)
  | cancel (msg : RadioCancelChat)
  | adminCancel (msg : RadioCancelChat)

variable (client : RedisClient)

def handle : Event → ChatServer
  | .notice login notice => { s with db := notice.handle client login s.db }
  | .chat now id msg => s.onChannelChat size now id msg
  | .cancel msg => s.onChannelCancelChat msg
  | .adminCancel msg => s.onChannelAdminCancelChat msg

def run (events : List Event) : ChatServer := events.foldl (handle size · client) {}

end ChatServer

namespace Rolls

/-- What an event of the server says; only notifications say something. -/
def see (m : Rolls) : ChatServer.Event → Rolls
  | .notice login notice => m.note login notice
  | _ => m

/-- What the notifications of a run have said. -/
def said (events : List ChatServer.Event) : Rolls := events.foldl see {}

/-- The channel is normal, the sender has it on his list, and it is not muted or he is an
administrator. -/
def MaySpeak (m : Rolls) (fromId radioId : String) : Prop :=
  (m.info radioId).status = chnnNormal ∧ fromId ∈ m.listed radioId ∧
    ((m.info radioId).unspeak ≠ 1 ∨ fromId ∈ m.sets .admin radioId)

end Rolls

namespace ChatServer

/-- The notifications have plain ids. Nothing is asked of the other requests. -/
def Event.Plain : Event → Prop
  | .notice _ n => n.Plain
  | _ => True

instance : (e : Event) → Decidable e.Plain
  | .notice _ n => inferInstanceAs (Decidable n.Plain)
  | .chat .. | .cancel _ | .adminCancel _ => isTrue trivial

/-- Nothing is stored, queued or sent to members, and the sets are as before. -/
def Quiet (s s' : ChatServer) : Prop :=
  s'.db = s.db ∧ s'.docs = s.docs ∧ s'.queues = s.queues ∧ s'.sendings = s.sendings

variable {client : RedisClient} {size : Nat} {s : ChatServer}

theorem quiet_sendAck (err : RadioErr) : s.Quiet (s.sendAck err) := ⟨rfl, rfl, rfl, rfl⟩

theorem db_removeQueued (msg : RadioCancelChat) : (s.removeQueued msg).db = s.db := by
  unfold removeQueued
  split <;> rfl

theorem db_updateChannelOfflineMsg (msg : RadioCancelChat) (isAdmin : Bool) :
    (s.updateChannelOfflineMsg msg isAdmin).2.db = s.db := by
  unfold updateChannelOfflineMsg
  dsimp only
  split
  · split <;> rfl
  · rfl

theorem db_cancelChatMsgToDataBase (msg : RadioCancelChat) (isAdmin : Bool) :
    (s.cancelChatMsgToDataBase msg isAdmin).db = s.db := by
  unfold cancelChatMsgToDataBase
  dsimp only
  split
  · exact (db_updateChannelOfflineMsg msg isAdmin).trans (db_removeQueued msg)
  · exact (db_updateChannelOfflineMsg msg isAdmin).trans (db_removeQueued msg)

theorem db_insertChannelChatMsgToDataBase (id : String) (msg : RadioChat) :
    (s.insertChannelChatMsgToDataBase size id msg).db = s.db := by
  have hinsert : (s.insertChannelOfflineMsg id msg).2.db = s.db := by
    unfold insertChannelOfflineMsg
    dsimp only
    split
    · rfl
    · split <;> rfl
  unfold insertChannelChatMsgToDataBase
  split
  · dsimp only
    split
    · exact hinsert
    · split
      · exact hinsert
      · exact hinsert
  · rfl

theorem db_handle (e : Event) :
    (s.handle size client e).db =
      match e with
      | .notice login notice => notice.handle client login s.db
      | _ => s.db := by
  cases e with
  | notice login notice => rfl
  | chat now id msg =>
    unfold handle onChannelChat
    dsimp only
    split
    · rfl
    · split
      · rfl
      · exact db_insertChannelChatMsgToDataBase id _
  | cancel msg =>
    unfold handle onChannelCancelChat
    dsimp only
    split
    · rfl
    · exact db_cancelChatMsgToDataBase msg false
  | adminCancel msg =>
    unfold handle onChannelAdminCancelChat
    dsimp only
    split
    · rfl
    · split
      · exact db_cancelChatMsgToDataBase msg true
      · rfl

/-- The data shows what the notifications of a run have said. -/
theorem shows_run (size : Nat) (hclient : client.Documented) {events : List Event}
    (hplain : ∀ e ∈ events, e.Plain) : Shows (run size client events).db (Rolls.said events) := by
  have hfold : ∀ (events : List Event) (s : ChatServer) (m : Rolls), Shows s.db m →
      (∀ e ∈ events, e.Plain) →
        Shows (events.foldl (handle size · client) s).db (events.foldl Rolls.see m) := by
    intro events
    induction events with
    | nil => exact fun s m h _ => h
    | cons e events ih =>
      intro s m h hplain
      obtain ⟨he, hplain⟩ := List.forall_mem_cons.mp hplain
      refine ih _ _ ?_ hplain
      rw [db_handle]
      cases e with
      | notice login notice => exact h.handle hclient he
      | chat now id msg => exact h
      | cancel msg => exact h
      | adminCancel msg => exact h
  exact hfold events {} {} .start hplain

theorem checkChat_eq_nonErr {db : ChannelDb} {m : Rolls} (h : Shows db m) {msg : RadioChat}
    (hchannel : PlainChannel msg.radioId) (hsender : PlainMember msg.fromId) :
    checkChat db msg = .nonErr ↔ m.MaySpeak msg.fromId msg.radioId := by
  have hadmin := h.sets .admin _ _ hchannel hsender (.inl rfl)
  have hlisted := h.listed _ _ hchannel hsender
  have hinfo := h.info _ hchannel
  change (_ ∈ db.getChannelAdmin _ ↔ _) at hadmin
  unfold checkChat Rolls.MaySpeak
  dsimp only
  rw [hinfo, ← hlisted, ← hadmin]
  split
  · next hstatus => exact iff_of_false (by decide) fun hmay => hstatus hmay.1
  · next hstatus =>
    split
    · next hmuted => exact iff_of_false (by decide) fun hmay => hmay.2.2.elim (· hmuted.1) hmuted.2
    · next hmuted =>
      split
      · next hlist => exact iff_of_false (by decide) fun hmay => hlist hmay.2.1
      · next hlist =>
        refine iff_of_true rfl ⟨not_not.mp hstatus, not_not.mp hlist, ?_⟩
        exact (not_and_or.mp hmuted).imp_right not_not.mp

/-- A chat changes something only if the notifications so far let the sender speak, and it is
refused for one of the three reasons if and only if they do not. -/
theorem speech_controlled (hclient : client.Documented) {events : List Event}
    (hplain : ∀ e ∈ events, e.Plain) (now : Nat) (id : String) {msg : RadioChat}
    (hchannel : PlainChannel msg.radioId) (hsender : PlainMember msg.fromId) :
    (checkChat (run size client events).db msg = .nonErr ↔
      (Rolls.said events).MaySpeak msg.fromId msg.radioId) ∧
    (¬ (Rolls.said events).MaySpeak msg.fromId msg.radioId →
      (run size client events).Quiet ((run size client events).onChannelChat size now id msg)) := by
  have hcheck := checkChat_eq_nonErr (shows_run size hclient hplain) hchannel hsender
  refine ⟨hcheck, fun hmay => ?_⟩
  have hrefused : checkChat (run size client events).db { msg with msgTime := now } ≠ .nonErr :=
    fun h => hmay (hcheck.mp h)
  unfold onChannelChat
  dsimp only
  split
  · exact ⟨rfl, rfl, rfl, rfl⟩
  · split
    · exact quiet_sendAck _
    · unfold insertChannelChatMsgToDataBase
      split
      · next h => exact absurd h hrefused
      · exact quiet_sendAck _

/-- User 1 creates channel 5 and user 2 enters it; then it is muted and `admin` becomes an
administrator. -/
def mutedWithAdmin (admin : String) : List Event :=
  [.notice {} (.relation { radioId := "5", oprUserId := "1", notifyType := .create }),
    .notice {} (.relation { radioId := "5", oprUserId := "2", notifyType := .apply }),
    .notice {} (.relation { radioId := "5", oprUserId := "1", notifyType := .nospeak }),
    .notice {} (.relation
      { radioId := "5", oprUserId := "1", mnpledUserId := [admin], notifyType := .adminSet })]

/-- A message of user 2. -/
def hello : RadioChat := { fromId := "2", radioId := "5", msgId := "m", content := "hello" }

theorem speech_controlled_muted :
    checkChat (run 40 Login.Server.splitClient (mutedWithAdmin "3")).db hello = .errRadioNospeak ∧
      (checkChat (run 40 Login.Server.splitClient (mutedWithAdmin "3")).db hello = .nonErr ↔
        (Rolls.said (mutedWithAdmin "3")).MaySpeak "2" "5") ∧
      (¬ (Rolls.said (mutedWithAdmin "3")).MaySpeak "2" "5" →
        (run 40 Login.Server.splitClient (mutedWithAdmin "3")).Quiet
          ((run 40 Login.Server.splitClient (mutedWithAdmin "3")).onChannelChat 40 1 "id" hello)) :=
  ⟨by decide +kernel, speech_controlled Login.Server.documented_splitClient (by decide +kernel) 1 "id"
    (by decide +kernel) (by decide +kernel)⟩

/-- The id `2 x` is written into a command as two words, so that user 2 becomes an administrator,
whom no notification has named. -/
theorem not_speech_controlled :
    ¬ ∀ (events : List Event) (now : Nat) (id : String) (msg : RadioChat),
        ¬ (Rolls.said events).MaySpeak msg.fromId msg.radioId →
          (run 40 Login.Server.splitClient events).Quiet
            ((run 40 Login.Server.splitClient events).onChannelChat 40 now id msg) := by
  intro hquiet
  have hmay : ¬ (Rolls.said (mutedWithAdmin "2 x")).MaySpeak hello.fromId hello.radioId := by
    rintro ⟨-, -, hspeak⟩
    simp [Rolls.said, Rolls.see, Rolls.note, Rolls.updateInfo, Rolls.updateSet, Rolls.updateListed,
      mutedWithAdmin, hello] at hspeak
  have hstored : ((run 40 Login.Server.splitClient (mutedWithAdmin "2 x")).onChannelChat 40 1 "id"
      hello).docs (collectionName "5") ≠
        (run 40 Login.Server.splitClient (mutedWithAdmin "2 x")).docs (collectionName "5") := by
    decide +kernel
  exact hstored (congrFun (hquiet _ 1 "id" hello hmay).2.1 (collectionName "5"))

end ChatServer

end ImServer
