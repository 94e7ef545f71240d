import ImServer.Channel.ChannelChat
import ImServer.Channel.LoginInfoList
import ImServer.Lib.Batch

/-!
# What the members of a channel are sent

A chat, a cancellation or a push for the members of a channel goes to the sending pool in portions
of at most 500 members (channel/channel_chat.cpp). The threads of the pool take the portions in any
order. The task for a portion asks redis for the login records of its members and sends to those who
are to get something; the records may have changed since the portion before.

The members come in the order in which redis lists the set.
-/

namespace ImServer

open Login (Text RedisClient)
open LoginInfo (Content PlainId getUserLoginInfo getUserLoginInfoList)

def processCount : ℕ := 500

def newMsgStr : Text := CText.bytes "你有一条新消息"

/-- The message type `CHNN_TALK`. -/
def chnnTalk : ℕ := 7

/-- `APNS_DEV` and `APNS`, the devices that get pushes from the APNS server. -/
def apnsDeviceTypes : List ℤ := [0xfe, 0xff]

/-- What `sendPush` fills in, for an Android device or another one. -/
inductive ChannelPush where
  | android (emsgType : ℕ) (smsgId : String) (stitle sbody stoId sdiveceToken : Text)
    (ediveceType : ℤ)
  | ios (emsgType : ℕ) (smsgId : String) (sbody : Text) (sfromId : String) (stoId stoToken : Text)
    (nunreadNotifyMsgCount versionCode : ℕ) (ediveceType : ℤ)
  deriving DecidableEq, Repr

/-- What a task of the sending pool sends, with the command, the receiver and the connection manager
that it goes to. -/
inductive Sent where
  | chat (commandId : UInt16) (id : String) (msg : RadioChat) (stoId strIp : Text) (nPort : ℤ)
  | cancel (commandId : UInt16) (msg : RadioCancelChat) (stoId strIp : Text) (nPort : ℤ)
  | push (stoId : Text) (push : ChannelPush)
  deriving DecidableEq, Repr

def Sent.stoId : Sent → Text
  | .chat _ _ _ stoId _ _ | .cancel _ _ stoId _ _ | .push stoId _ => stoId

/-- `vesionCode` is left at its default. -/
def sendPush (appName : Text) (fromId : String) (toId : Text) (msgId : String) (pushType : ℤ)
    (pushToken : Text) : Option Sent :=
  if pushToken = [] then none
  else if pushType ∉ apnsDeviceTypes then
    some (.push toId (.android chnnTalk msgId appName newMsgStr toId pushToken pushType))
  else some (.push toId (.ios chnnTalk msgId newMsgStr fromId toId pushToken 0 0 pushType))

namespace Sending

variable (client : RedisClient) (appName : Text)

def members : Sending → Finset Text
  | .sendChat _ _ members | .sendCancel _ members _ | .push _ _ _ members => members

/-- Who has caused it, and gets nothing himself although he is a member. -/
def fromId : Sending → Text
  | .sendChat _ chat _ => CText.bytes chat.fromId
  | .sendCancel cancel _ _ => CText.bytes cancel.fromId
  | .push fromId _ _ _ => CText.bytes fromId

/-- The bodies of the loops of `sendChannelChat`, `sendCancelChatMsg` and `pushChannelChat`. -/
def send : Sending → UserLoginInfo → Option Sent
  | .sendChat id chat _, info =>
    if info.status = 0 ∨ info.userId = CText.bytes chat.fromId then none
    else some (.chat 0xc104 id chat info.userId info.strIp info.nPort)
  | .sendCancel cancel _ isAdmin, info =>
    if info.status = 0 ∨ info.userId = CText.bytes cancel.fromId then none
    else
      some (.cancel (if isAdmin then 0xc108 else 0xc114) cancel info.userId info.strIp info.nPort)
  | .push fromId msgId _ _, info =>
    if info.pushToken = [] ∨ info.status = 1 ∨ info.userId = CText.bytes fromId then none
    else sendPush appName fromId info.userId msgId info.nPushType info.pushToken

/-- The task for a portion, with the records that it finds. If they cannot be read the portion gets
nothing. -/
def perform (task : Sending) (content : Content) (vecMember : List Text) : List Sent :=
  match getUserLoginInfoList client content vecMember with
  | some userInfoList => userInfoList.filterMap (task.send appName)
  | none => []

/-- What is sent to a member with the records at some time. -/
def sentTo (task : Sending) (content : Content) (userId : Text) : Option Sent :=
  (getUserLoginInfo content userId).bind (task.send appName)

section Portion

variable {client : RedisClient} {appName : Text} {task : Sending} {content : Content}
variable {info : UserLoginInfo} {sent : Sent}

theorem stoId_of_send (h : sent ∈ task.send appName info) :
    sent.stoId = info.userId ∧ info.userId ≠ task.fromId := by
  cases task with
  | sendChat id chat members | sendCancel cancel members isAdmin =>
    rw [send] at h
    split at h
    · cases h
    · next hskip =>
      obtain rfl := Option.some.inj h
      exact ⟨rfl, fun heq => hskip (.inr heq)⟩
  | push fromId msgId radioId members =>
    rw [send] at h
    split at h
    · cases h
    · next hskip =>
      refine ⟨?_, fun heq => hskip (.inr (.inr heq))⟩
      rw [sendPush] at h
      split at h
      · cases h
      · split at h
        · obtain rfl := Option.some.inj h
          rfl
        · obtain rfl := Option.some.inj h
          rfl

theorem stoId_of_sentTo {userId : Text} (h : sent ∈ task.sentTo appName content userId) :
    sent.stoId = userId ∧ userId ≠ task.fromId := by
  obtain ⟨info, hinfo, hsend⟩ := Option.bind_eq_some_iff.mp h
  obtain ⟨values, -, rfl⟩ := Option.map_eq_some_iff.mp hinfo
  exact stoId_of_send hsend

/-- The members of a portion are sent what their records ask for. -/
theorem perform_perm (hclient : client.Documented) {vecMember : List Text}
    (hplain : ∀ u ∈ vecMember, PlainId u) (hnodup : vecMember.Nodup) :
    (task.perform client appName content vecMember).Perm
      (vecMember.filterMap (task.sentTo appName content)) := by
  obtain ⟨infos, hinfos, hperm⟩ : ∃ infos, getUserLoginInfoList client content vecMember =
      some infos ∧ infos.Perm (vecMember.dedup.filterMap (getUserLoginInfo content)) :=
    LoginInfo.agrees_of_plain hclient hplain
  rw [hnodup.dedup] at hperm
  rw [perform, hinfos]
  have hsent := hperm.filterMap (task.send appName)
  rwa [List.filterMap_filterMap] at hsent

end Portion

section Portions

variable {client : RedisClient} {appName : Text} {task : Sending}

/-- The portions of the members in some order, as the loop makes them. -/
def portions (vecMember : List Text) : List (List Text) := Batch.cut processCount vecMember []

/-- A list of the members, without a member twice, in any order. -/
def Lists (task : Sending) (vecMember : List Text) : Prop :=
  vecMember.Nodup ∧ ∀ u, u ∈ vecMember ↔ u ∈ task.members

theorem flatMap_perm {vecMember : List Text} {looks : List (List Text × Content)}
    (hlooks : (looks.map Prod.fst).Perm (portions vecMember)) :
    (looks.flatMap Prod.fst).Perm vecMember := by
  have hperm := hlooks.flatten
  rwa [portions, Batch.flatten_cut, List.nil_append, ← List.flatMap_def] at hperm

theorem flatMap_perform_perm (hclient : client.Documented) {looks : List (List Text × Content)}
    (hplain : ∀ look ∈ looks, ∀ u ∈ look.1, PlainId u)
    (hnodup : (looks.flatMap Prod.fst).Nodup) :
    (looks.flatMap fun look => task.perform client appName look.2 look.1).Perm
      (looks.flatMap fun look => look.1.filterMap (task.sentTo appName look.2)) :=
  List.Perm.flatMap_left _ fun look hlook =>
    perform_perm hclient (hplain look hlook) ((List.nodup_flatMap.mp hnodup).1 look hlook)

theorem map_stoId_sublist {sentTo : Text → Option Sent}
    (h : ∀ u, ∀ sent ∈ sentTo u, sent.stoId = u) (users : List Text) :
    ((users.filterMap sentTo).map Sent.stoId).Sublist users := by
  induction users with
  | nil => exact .slnil
  | cons u users ih =>
    cases hsent : sentTo u with
    | none =>
      rw [List.filterMap_cons_none hsent]
      exact ih.cons u
    | some sent =>
      rw [List.filterMap_cons_some hsent, List.map_cons, h u sent hsent]
      exact ih.cons_cons u

/-- Whatever the order of the portions and the changes of the records between them, each member is
sent what one look at his record asks for, so that nobody is sent anything twice and the one who
caused it nothing. -/
theorem members_served (hclient : client.Documented) (hplain : ∀ u ∈ task.members, PlainId u)
    {vecMember : List Text} (hmembers : task.Lists vecMember) {looks : List (List Text × Content)}
    (hlooks : (looks.map Prod.fst).Perm (portions vecMember)) :
    ∃ seen : Text → Content, (∀ look ∈ looks, ∀ u ∈ look.1, seen u = look.2) ∧
      (looks.flatMap fun look => task.perform client appName look.2 look.1).Perm
        (vecMember.filterMap fun u => task.sentTo appName (seen u) u) ∧
      ((looks.flatMap fun look => task.perform client appName look.2 look.1).map
        Sent.stoId).Nodup ∧
      ∀ look ∈ looks, ∀ sent ∈ task.perform client appName look.2 look.1,
        sent.stoId ≠ task.fromId := by
  have hflat := flatMap_perm hlooks
  have hnodup : (looks.flatMap Prod.fst).Nodup := hflat.nodup_iff.mpr hmembers.1
  have hall : ∀ look ∈ looks, ∀ u ∈ look.1, PlainId u := fun look hlook u hu =>
    hplain u ((hmembers.2 u).mp (hflat.mem_iff.mp (List.mem_flatMap.mpr ⟨look, hlook, hu⟩)))
  have : Inhabited Content := ⟨LoginInfo.nobody⟩
  obtain ⟨seen, hseen, heq⟩ := Batch.exists_seen (task.sentTo appName) hnodup
  have hperm : (looks.flatMap fun look => task.perform client appName look.2 look.1).Perm
      (looks.flatMap fun look => look.1.filterMap (task.sentTo appName look.2)) :=
    flatMap_perform_perm hclient hall hnodup
  rw [heq] at hperm
  have hsent := hperm.trans (hflat.filterMap _)
  have hsublist : ((vecMember.filterMap fun u => task.sentTo appName (seen u) u).map
      Sent.stoId).Sublist vecMember :=
    map_stoId_sublist (fun _ _ h => (stoId_of_sentTo h).1) vecMember
  refine ⟨seen, hseen, hsent, ?_, fun look hlook sent hmem => ?_⟩
  · exact (hsent.map Sent.stoId).nodup_iff.mpr (hsublist.nodup hmembers.1)
  · have hmem' := hsent.mem_iff.mp (List.mem_flatMap.mpr ⟨look, hlook, hmem⟩)
    obtain ⟨u, -, hu⟩ := List.mem_filterMap.mp hmem'
    obtain ⟨hstoId, hne⟩ := stoId_of_sentTo hu
    exact hstoId ▸ hne

theorem plainId_singleton {c : UInt8} (h : c ∉ ([32, 37, 95, 0] : List UInt8)) : PlainId [c] := by
  simp only [List.mem_cons, List.not_mem_nil, or_false, not_or] at h
  obtain ⟨hblank, hpercent, hunderscore, hnul⟩ := h
  exact ⟨by simpa using Ne.symm hblank, by simpa using Ne.symm hpercent,
    by simpa using Ne.symm hunderscore, by simpa using Ne.symm hnul, Nat.le_add_left 1 123⟩

/-- A push while the user `a` is online. -/
theorem members_served_push :
    ∃ seen : Text → Content, (∀ look ∈ [([[98], [97]], LoginInfo.online [97])],
      ∀ u ∈ look.1, seen u = look.2) ∧
    ([([[98], [97]], LoginInfo.online [97])].flatMap fun look =>
      (Sending.push "c" "m" "r" {[97], [98]}).perform Login.Server.splitClient [] look.2
        look.1).Perm
      ([[98], [97]].filterMap fun u =>
        (Sending.push "c" "m" "r" {[97], [98]}).sentTo [] (seen u) u) ∧
    (([([[98], [97]], LoginInfo.online [97])].flatMap fun look =>
      (Sending.push "c" "m" "r" {[97], [98]}).perform Login.Server.splitClient [] look.2
        look.1).map Sent.stoId).Nodup ∧
    ∀ look ∈ [([[98], [97]], LoginInfo.online [97])],
      ∀ sent ∈ (Sending.push "c" "m" "r" {[97], [98]}).perform Login.Server.splitClient [] look.2
        look.1, sent.stoId ≠ (Sending.push "c" "m" "r" {[97], [98]}).fromId := by
  refine members_served Login.Server.documented_splitClient (fun u hu => ?_)
    ⟨by decide, fun u => ?_⟩ (.refl _)
  · obtain rfl | rfl := by simpa [Sending.members] using hu
    · exact plainId_singleton (by decide)
    · exact plainId_singleton (by decide)
  · simp [Sending.members, or_comm]

end Portions

end Sending

namespace ChatServer

variable {client : RedisClient} {appName : Text} {size : ℕ} {s : ChatServer}

def isPush : Sending → Bool
  | .push .. => true
  | .sendChat .. | .sendCancel .. => false

/-- A task for the online members and a push for the offline ones, if there are any. -/
def Paired (tasks : List Sending) : Prop :=
  ∃ online offline : List Sending, tasks = online ++ offline ∧ online.length ≤ 1 ∧
    offline.length ≤ 1 ∧ (∀ task ∈ online, isPush task = false) ∧
    ∀ task ∈ offline, isPush task = true

/-- The tasks that an event adds. -/
def Adds (s s' : ChatServer) : Prop := ∃ tasks, s'.sendings = s.sendings ++ tasks ∧ Paired tasks

theorem adds_of_eq {s' : ChatServer} (h : s'.sendings = s.sendings) : Adds s s' :=
  ⟨[], by rw [h, List.append_nil], [], [], rfl, Nat.zero_le _, Nat.zero_le _, nofun, nofun⟩

theorem adds_sendMembers (s : ChatServer) (radioId : String)
    {online offline : Finset Text → Sending} (honline : ∀ set, isPush (online set) = false)
    (hoffline : ∀ set, isPush (offline set) = true) :
    Adds s (s.sendMembers radioId online offline) := by
  have htasks (set : Finset Text) (task : Finset Text → Sending) :
      (if set = ∅ then [] else [task set]).length ≤ 1 := by
    split
    · exact Nat.zero_le 1
    · exact Nat.le_refl 1
  refine ⟨_, List.append_assoc _ _ _, _, _, rfl, htasks _ _, htasks _ _, fun task h => ?_,
    fun task h => ?_⟩
  · obtain rfl := List.mem_singleton.mp (List.mem_ite_nil_left.mp h).2
    exact honline _
  · obtain rfl := List.mem_singleton.mp (List.mem_ite_nil_left.mp h).2
    exact hoffline _

theorem adds_insertChannelChatMsgToDataBase (id : String) (msg : RadioChat) :
    Adds s (s.insertChannelChatMsgToDataBase size id msg) := by
  rw [insertChannelChatMsgToDataBase]
  cases checkChat s.db msg with
  | nonErr =>
    have hkept : (s.insertChannelOfflineMsg id msg).2.sendings = s.sendings := by
      rw [insertChannelOfflineMsg]
      split
      · rfl
      · split <;> rfl
    generalize s.insertChannelOfflineMsg id msg = inserted at hkept ⊢
    obtain ⟨currId, s'⟩ := inserted
    dsimp only at hkept ⊢
    split
    · exact adds_of_eq hkept
    · split
      · exact adds_of_eq hkept
      · obtain ⟨tasks, htasks, hpaired⟩ :=
          adds_sendMembers ((s'.pushMsgToMsgQueue size currId msg).sendAck .nonErr) msg.radioId
            (fun set => (rfl : isPush (.sendChat currId msg set) = false))
            fun set => (rfl : isPush (.push msg.fromId msg.msgId msg.radioId set) = true)
        exact ⟨tasks, htasks.trans (congrArg (· ++ tasks) hkept), hpaired⟩
  | exceptErr | errChatUnhealthy | errRadioDismiss | errRadioNospeak | errRadioIsDelete
  | errRadioAdmin => exact adds_of_eq rfl

theorem sendings_updateChannelOfflineMsg (msg : RadioCancelChat) (isAdmin : Bool) :
    (s.updateChannelOfflineMsg msg isAdmin).2.sendings = s.sendings := by
  rw [updateChannelOfflineMsg]
  cases (s.docs (collectionName msg.radioId)).find? (·.chat.msgId = msg.msgId) with
  | none => rfl
  | some doc =>
    dsimp only
    split <;> rfl

theorem sendings_removeQueued (msg : RadioCancelChat) :
    (s.removeQueued msg).sendings = s.sendings := by
  rw [removeQueued]
  cases (s.docs (collectionName msg.radioId)).find? (·.chat.msgId = msg.msgId) <;> rfl

theorem adds_cancelChatMsgToDataBase (msg : RadioCancelChat) (isAdmin : Bool) :
    Adds s (s.cancelChatMsgToDataBase msg isAdmin) := by
  have hkept := (sendings_updateChannelOfflineMsg (s := s.removeQueued msg) msg isAdmin).trans
    (sendings_removeQueued msg)
  rw [cancelChatMsgToDataBase]
  generalize (s.removeQueued msg).updateChannelOfflineMsg msg isAdmin = updated at hkept ⊢
  obtain ⟨modified, s'⟩ := updated
  dsimp only at hkept ⊢
  split
  · exact adds_of_eq hkept
  · obtain ⟨tasks, htasks, hpaired⟩ : Adds (s'.sendAck .nonErr)
        ((s'.sendAck .nonErr).sendMembers msg.radioId (.sendCancel msg · isAdmin)
          (.push msg.fromId msg.msgId msg.radioId)) :=
      adds_sendMembers _ _ (fun _ => rfl) fun _ => rfl
    exact ⟨tasks, htasks.trans (congrArg (· ++ tasks) hkept), hpaired⟩

theorem adds_handle (client : RedisClient) (size : ℕ) (s : ChatServer) (e : Event) :
    Adds s (s.handle size client e) := by
  cases e with
  | notice login notice => exact adds_of_eq rfl
  | chat now id msg =>
    rw [handle, onChannelChat]
    split
    · exact adds_of_eq rfl
    · split
      · exact adds_of_eq rfl
      · exact adds_insertChannelChatMsgToDataBase id _
  | cancel msg =>
    rw [handle, onChannelCancelChat]
    split
    · exact adds_of_eq rfl
    · exact adds_cancelChatMsgToDataBase msg false
  | adminCancel msg =>
    rw [handle, onChannelAdminCancelChat]
    split
    · exact adds_of_eq rfl
    · cases checkCancelMsgIsAdmin s.db msg with
      | nonErr => exact adds_cancelChatMsgToDataBase msg true
      | exceptErr | errChatUnhealthy | errRadioDismiss | errRadioNospeak | errRadioIsDelete
      | errRadioAdmin => exact adds_of_eq rfl

/-- Users are online or not. -/
def Binary (content : Content) : Prop :=
  ∀ u info, getUserLoginInfo content u = some info → info.status = 0 ∨ info.status = 1

theorem status_of_sentTo {task : Sending} {content : Content} {u : Text} {sent : Sent}
    (h : sent ∈ task.sentTo appName content u) :
    ∃ info, getUserLoginInfo content u = some info ∧
      if isPush task then info.status ≠ 1 else info.status ≠ 0 := by
  obtain ⟨info, hinfo, hsend⟩ := Option.bind_eq_some_iff.mp h
  refine ⟨info, hinfo, ?_⟩
  cases task with
  | sendChat id chat members | sendCancel cancel members isAdmin =>
    rw [Sending.send] at hsend
    split at hsend
    · cases hsend
    · next hskip => exact fun heq => hskip (.inl heq)
  | push fromId msgId radioId members =>
    rw [Sending.send] at hsend
    split at hsend
    · cases hsend
    · next hskip => exact fun heq => hskip (.inr (.inl heq))

/-- All that some portions send, one after the other, as they are taken from the queue of the
pool. -/
def sentBy (client : RedisClient) (appName : Text) (content : Content)
    (order : List (Sending × List Text)) : List Sent :=
  order.flatMap fun portion => portion.1.perform client appName content portion.2

/-- The portions of all tasks, with the members of each task in some order. -/
def allPortions (list : Sending → List Text) (tasks : List Sending) : List (Sending × List Text) :=
  tasks.flatMap fun task => (Sending.portions (list task)).map (task, ·)

theorem perform_portions_perm (hclient : client.Documented) {task : Sending} {content : Content}
    {vecMember : List Text} (hmembers : task.Lists vecMember)
    (hplain : ∀ u ∈ task.members, PlainId u) :
    ((Sending.portions vecMember).flatMap (task.perform client appName content)).Perm
      (vecMember.filterMap (task.sentTo appName content)) := by
  have hflat : (Sending.portions vecMember).flatten = vecMember := by
    rw [Sending.portions, Batch.flatten_cut, List.nil_append]
  have hnodup : (Sending.portions vecMember).flatten.Nodup := by
    rw [hflat]
    exact hmembers.1
  have hperm : ((Sending.portions vecMember).flatMap (task.perform client appName content)).Perm
      ((Sending.portions vecMember).flatMap (List.filterMap (task.sentTo appName content))) := by
    refine List.Perm.flatMap_left _ fun portion hportion => ?_
    refine Sending.perform_perm hclient (fun u hu => ?_)
      ((List.nodup_flatten.mp hnodup).1 _ hportion)
    have hmem : u ∈ (Sending.portions vecMember).flatten :=
      List.mem_flatten.mpr ⟨portion, hportion, hu⟩
    exact hplain u ((hmembers.2 u).mp (hflat ▸ hmem))
  rwa [List.flatMap_def (f := List.filterMap _), ← List.filterMap_flatten, hflat] at hperm

theorem sentBy_perm (hclient : client.Documented) {content : Content} {list : Sending → List Text}
    {tasks : List Sending} (hlist : ∀ task ∈ tasks, task.Lists (list task))
    (hplain : ∀ task ∈ tasks, ∀ u ∈ task.members, PlainId u) {order : List (Sending × List Text)}
    (horder : order.Perm (allPortions list tasks)) :
    (sentBy client appName content order).Perm
      (tasks.flatMap fun task => (list task).filterMap (task.sentTo appName content)) := by
  have hperm := horder.flatMap_right fun portion : Sending × List Text =>
    portion.1.perform client appName content portion.2
  rw [allPortions, List.flatMap_assoc] at hperm
  refine hperm.trans (List.Perm.flatMap_left _ fun task htask => ?_)
  rw [List.flatMap_map]
  exact perform_portions_perm hclient (hlist task htask) (hplain task htask)

theorem nodup_stoId {content : Content} {list : Sending → List Text} {tasks : List Sending}
    (hlist : ∀ task ∈ tasks, task.Lists (list task)) (hlength : tasks.length ≤ 1) :
    ((tasks.flatMap fun task => (list task).filterMap (task.sentTo appName content)).map
      Sent.stoId).Nodup := by
  cases tasks with
  | nil => exact .nil
  | cons task tasks =>
    obtain rfl := List.length_eq_zero_iff.mp (Nat.le_zero.mp (Nat.le_of_succ_le_succ hlength))
    rw [List.flatMap_singleton]
    have hsublist : (((list task).filterMap (task.sentTo appName content)).map
        Sent.stoId).Sublist (list task) :=
      Sending.map_stoId_sublist (fun _ _ h => (Sending.stoId_of_sentTo h).1) (list task)
    exact hsublist.nodup (hlist task List.mem_cons_self).1

theorem exists_of_mem_stoId {content : Content} {list : Sending → List Text} {tasks : List Sending}
    {u : Text}
    (h : u ∈ (tasks.flatMap fun task => (list task).filterMap (task.sentTo appName content)).map
      Sent.stoId) : ∃ task ∈ tasks, ∃ sent, sent ∈ task.sentTo appName content u := by
  obtain ⟨sent, hsent, rfl⟩ := List.mem_map.mp h
  obtain ⟨task, htask, hmem⟩ := List.mem_flatMap.mp hsent
  obtain ⟨v, -, hv⟩ := List.mem_filterMap.mp hmem
  obtain ⟨hstoId, -⟩ := Sending.stoId_of_sentTo hv
  exact ⟨task, htask, sent, hstoId ▸ hv⟩

/-- As long as the records stay as they are, no user is sent two things because of one event, not
even by the tasks for the online and the offline members together. -/
theorem sent_once (hclient : client.Documented) (e : Event) :
    ∃ tasks, (s.handle size client e).sendings = s.sendings ++ tasks ∧
      ∀ (content : Content) (list : Sending → List Text) (order : List (Sending × List Text)),
        Binary content → (∀ task ∈ tasks, task.Lists (list task)) →
        (∀ task ∈ tasks, ∀ u ∈ task.members, PlainId u) → order.Perm (allPortions list tasks) →
        ((sentBy client appName content order).map Sent.stoId).Nodup := by
  obtain ⟨tasks, htasks, online, offline, rfl, honline, hoffline, hsend, hpush⟩ :=
    adds_handle client size s e
  refine ⟨online ++ offline, htasks, fun content list order hbinary hlist hplain horder => ?_⟩
  have hperm : ((sentBy client appName content order).map Sent.stoId).Perm
      (((online ++ offline).flatMap fun task =>
        (list task).filterMap (task.sentTo appName content)).map Sent.stoId) :=
    (sentBy_perm hclient hlist hplain horder).map Sent.stoId
  obtain ⟨hlistOnline, hlistOffline⟩ := List.forall_mem_append.mp hlist
  rw [hperm.nodup_iff, List.flatMap_append, List.map_append]
  refine List.nodup_append.mpr ⟨nodup_stoId hlistOnline honline, nodup_stoId hlistOffline hoffline,
    fun u hu v hv heq => ?_⟩
  subst heq
  obtain ⟨task, htask, sent, hsent⟩ := exists_of_mem_stoId hu
  obtain ⟨task', htask', sent', hsent'⟩ := exists_of_mem_stoId hv
  obtain ⟨info, hinfo, hstatus⟩ := status_of_sentTo hsent
  obtain ⟨info', hinfo', hstatus'⟩ := status_of_sentTo hsent'
  obtain rfl := Option.some.inj (hinfo.symm.trans hinfo')
  rw [hsend task htask, if_neg Bool.false_ne_true] at hstatus
  rw [hpush task' htask', if_pos rfl] at hstatus'
  exact (hbinary u info hinfo).elim hstatus hstatus'

/-- A message that both online and offline members have got is cancelled. -/
def sentServer : ChatServer where
  db := { sets := fun _ => {[97]} }
  docs := fun _ => [⟨"1", { fromId := "b", radioId := "r", msgId := "m", content := "t" }, 0⟩]

theorem sent_once_cancel :
    ∃ tasks, (sentServer.handle 20 Login.Server.splitClient
        (.cancel { fromId := "b", radioId := "r", msgId := "m" })).sendings =
      sentServer.sendings ++ tasks ∧
    ∀ (content : Content) (list : Sending → List Text) (order : List (Sending × List Text)),
      Binary content → (∀ task ∈ tasks, task.Lists (list task)) →
      (∀ task ∈ tasks, ∀ u ∈ task.members, PlainId u) → order.Perm (allPortions list tasks) →
      ((sentBy Login.Server.splitClient [] content order).map Sent.stoId).Nodup :=
  sent_once Login.Server.documented_splitClient _

end ChatServer

end ImServer
