import ImServer.Group.PlainIds
import ImServer.Group.SoundCache

/-!
# Requests about groups that are not there

A select that finds no row of group_t succeeds (group/mysqlhelper.cpp), and the record of the
group then has no master and for the rest what was in its memory before. Here is what the
requests make of a group without a row and without a record in redis, and how the permission of
a group that was created does as an index of the table of permissions.
-/

namespace ImServer

namespace Group

/-- The texts of the rows of a group. Rows that are not there have none that count. -/
structure GroupTexts where
  name : String := ""
  announcement : String := ""
  avatar : String := ""
  remarks : String → String := fun _ => ""

/-- `nmodifytype`, but for the change of the master; the last one is any that modifies nothing. -/
inductive ModifyType where
  | grpAnnouncement
  | grpnameModified
  | grpphotoModified
  | clinicknameModitied
  | otherType
  deriving DecidableEq, Repr

def modifyGroupText (set : GroupTexts → GroupTexts) (userId : String) (d : GroupData)
    (texts : GroupTexts) : ErrCode × GroupTexts :=
  if isMaster d userId = .errGroupMaster then
    (.nonErr, if d.row.isSome then set texts else texts)
  else (.errGroupForbidden, texts)

def modifyGroupAnnouncement (userId content : String) :
    GroupData → GroupTexts → ErrCode × GroupTexts :=
  modifyGroupText (fun texts => { texts with announcement := content }) userId

def modifyGroupName (userId content : String) : GroupData → GroupTexts → ErrCode × GroupTexts :=
  modifyGroupText (fun texts => { texts with name := content }) userId

def modifyGroupAvatar (userId content : String) : GroupData → GroupTexts → ErrCode × GroupTexts :=
  modifyGroupText (fun texts => { texts with avatar := content }) userId

def GroupTexts.setRemarks (userId content : String) (d : GroupData) (texts : GroupTexts) :
    GroupTexts :=
  if (d.members.lookup userId).isSome then
    { texts with remarks := Function.update texts.remarks userId content }
  else texts

def modifyGroupNickName (userId content : String) (d : GroupData) (texts : GroupTexts) :
    ErrCode × GroupTexts :=
  if (isMember d userId).1 = .errGroupMemberexist then (.nonErr, texts.setRemarks userId content d)
  else (.errGroupForbidden, texts)

def modifyGroupProc (modifyType : ModifyType) (userId content : String) (d : GroupData)
    (texts : GroupTexts) : ErrCode × GroupTexts :=
  match modifyType with
  | .grpAnnouncement => modifyGroupAnnouncement userId content d texts
  | .grpnameModified => modifyGroupName userId content d texts
  | .grpphotoModified => modifyGroupAvatar userId content d texts
  | .clinicknameModitied => modifyGroupNickName userId content d texts
  | .otherType => (.errGroupNetworkexception, texts)

/-- The requests that are about a group that is there already, each with what its handler finds
outside. -/
inductive GroupRequest where
  | task (env : Env) (t : Task)
  | modify (modifyType : ModifyType) (msg : GroupModify) (content : String)
  | chat (env : ChatEnv) (msg : Msg.MESGrpChat)
  | chatCancel (msg : Msg.GroupChatCancel)

/-- Whether a code that a task ends with is an error for its callback: an apply that needs a
permission is answered as pending. -/
def ErrCode.isError (err : ErrCode) : Bool :=
  err ≠ .nonErr && err ≠ .errGroupInvitesuccess && err ≠ .errGroupInterpermission

/-- Those who quit lose their remarks. -/
def Task.texts (t : Task) (err : ErrCode) (d : GroupData) (texts : GroupTexts) : GroupTexts :=
  match t with
  | quit msg => if err = .nonErr then texts.setRemarks msg.userId "" d else texts
  | _ => texts

structure RequestResult where
  isError : Bool
  data : GroupData
  texts : GroupTexts

namespace GroupRequest

/-- What the handlers of the packets check. A creation names no group. -/
def checks : GroupRequest → Bool
  | task _ (.create _) => false
  | task _ t => t.checks
  | modify _ msg _ => (Task.modify msg).checks
  | chat _ msg => msg.grpId ≠ "" && msg.fromId ≠ "" && Msg.isGrpIdValid msg.grpId
  | chatCancel msg => checkChatCancel msg

def run (store : Msg.GrpStore) (d : GroupData) (texts : GroupTexts) : GroupRequest → RequestResult
  | task env t =>
    let res := t.run env 0 d
    ⟨res.err.isError, res.data, t.texts res.err d texts⟩
  | modify modifyType msg content =>
    let (err, texts) := modifyGroupProc modifyType msg.userId content d texts
    ⟨err.isError, d, texts⟩
  | chat env msg =>
    let res := onChat env d store msg
    ⟨res.ack.any (· ≠ .nonErr), res.data, texts⟩
  | chatCancel msg =>
    let (ack, d) := onChatCancel d msg
    ⟨ack.any (· ≠ .nonErr), d, texts⟩

/-- What the request puts into statements leaves them what they are: ids are plain, a content, which
goes into them as it is, ends at its quote, and the sender of a chat, who is escaped, has no NUL. -/
def Plain : GroupRequest → Prop
  | task _ t => t.Plain
  | modify _ msg content =>
    Sql.PlainLiteral msg.userId ∧ SqlLiteral.Closes (Sql.cString content).val
  | chat _ msg => Sql.NulFree msg.fromId
  | chatCancel msg => Sql.NulFree msg.fromId

/-- The request changes nothing and is answered with an error. Neither the group nor its texts are
other than before. -/
def Harmless (store : Msg.GrpStore) (d : GroupData) (texts : GroupTexts) (r : GroupRequest) : Prop :=
  (r.run store d texts).data = d ∧ (r.run store d texts).texts = texts ∧
    (r.run store d texts).isError = true

end GroupRequest

/-- There is neither a row of group_t nor a record in redis. -/
structure Unknown (d : GroupData) : Prop where
  row : d.row = none
  cache : d.cache = {}

section Unknown

variable {d : GroupData} {env : Env} {userId : String}

theorem Unknown.getGroupInfo (h : Unknown d) (junk : GroupInfo) :
    getGroupInfo junk d = { junk with masterId := "" } := by
  rw [Group.getGroupInfo, h.cache, h.row]
  rfl

/-- Nobody is the master of a group that is not there, since the ids of users are not empty. -/
theorem Unknown.isMaster_ne (h : Unknown d) (huser : userId ≠ "") :
    isMaster d userId ≠ .errGroupMaster := by
  rw [isMaster, h.getGroupInfo, if_neg huser]
  exact nofun

/-- The record passes for one of a group that takes applies. -/
def TakesApply (env : Env) (applyType : ApplyType) (info : GroupInfo) : Prop :=
  (info.bStatus = .normalGroupstatus ∨ info.bStatus = .depositGroupstatus) ∧
    ¬ (applyType = .face2faceAppy ∧ isLate env.now info.createTime = true) ∧
    info.nGroupNumber + 1 < maxGroupmember

/-- The record lets the user in, or its permission is one that is no error. -/
def LetsIn (env : Env) (info : GroupInfo) : Prop :=
  (info.bStatus = .normalGroupstatus ∨ info.bStatus = .depositGroupstatus) ∧ info.bPermit = 0 ∨
    info.bPermit = 1 ∨ 2 < info.bPermit ∧ (env.beyond info.bPermit).isError = false

theorem Unknown.nonErr_applyAuth (h : Unknown d) (env : Env) (huser : userId ≠ "")
    (applyType : ApplyType) (junk : GroupInfo) :
    verifyGroupApplyAuth env d userId applyType { junk with masterId := "" } = .nonErr ↔
      TakesApply env applyType junk := by
  have hmaster := h.isMaster_ne huser
  unfold verifyGroupApplyAuth TakesApply
  cases junk.bStatus with
  | dismissGroupstatus => simp
  | noGroupstatus => simp
  | normalGroupstatus | depositGroupstatus =>
    by_cases hlate : applyType = .face2faceAppy ∧ isLate env.now junk.createTime = true
    · simp [hlate]
    · simp [hlate, hmaster]

theorem isError_applyAuth {applyType : ApplyType} {info : GroupInfo}
    (h : verifyGroupApplyAuth env d userId applyType info ≠ .nonErr) :
    (verifyGroupApplyAuth env d userId applyType info).isError = true := by
  unfold verifyGroupApplyAuth at h ⊢
  split_ifs at h ⊢
  all_goals first | rfl | exact absurd rfl h

theorem isError_groupPermissionCode (env : Env) (bPermit : UInt8) :
    (groupPermissionCode env bPermit).isError = true ↔
      ¬ (bPermit = 1 ∨ 2 < bPermit ∧ (env.beyond bPermit).isError = false) := by
  unfold groupPermissionCode
  split
  · next hpermit =>
    rw [hpermit]
    exact iff_of_true rfl (by simp)
  · split
    · next hpermit => exact iff_of_false (by decide) (not_not.mpr (.inl hpermit))
    · split
      · next hpermit =>
        rw [hpermit]
        exact iff_of_true rfl (by simp)
      · have hbeyond : 2 < bPermit := by grind
        simp [*]

/-- An apply to a group that is not there is refused, unless the two records that are read for
it pass for one of a group that takes it. -/
theorem Unknown.applyGroup_iff (h : Unknown d) (msg : GroupApply) (huser : msg.userId ≠ "") :
    (applyGroup env msg d).data = d ∧ (applyGroup env msg d).err.isError = true ↔
      ¬ (TakesApply env msg.applyType (env.junk 0) ∧ env.userInfo msg.userId ≠ none ∧
        mayJoin d msg.userId = true ∧ LetsIn env (env.junk 1)) := by
  have hauth := h.nonErr_applyAuth env huser msg.applyType (env.junk 0)
  unfold applyGroup
  simp only [h.getGroupInfo]
  by_cases htakes : TakesApply env msg.applyType (env.junk 0)
  · rw [if_neg (not_not.mpr (hauth.mpr htakes))]
    split
    · next hunknown => simp [hunknown, ErrCode.isError]
    · next hknown =>
      split
      · next hjoin =>
        have hcode := isError_groupPermissionCode env (env.junk 1).bPermit
        rw [and_iff_right htakes, and_iff_right hknown, and_iff_right hjoin]
        unfold LetsIn
        split
        · next hstatus =>
          rw [and_iff_right hstatus]
          by_cases hpermit : (env.junk 1).bPermit = 0
          · rw [if_pos hpermit]
            refine iff_of_false ?_ (not_not.mpr (.inl hpermit))
            split
            · exact nofun
            · exact nofun
          · rw [if_neg hpermit, or_iff_right hpermit]
            split
            · next hnone =>
              have hnone : groupPermissionCode env (env.junk 1).bPermit = .nonErr := hnone.1
              refine iff_of_false nofun ?_
              rw [← hcode, hnone]
              exact nofun
            · exact (and_iff_right rfl).trans hcode
        · next hstatus =>
          rw [or_iff_right fun hpermit => hstatus hpermit.1]
          exact (and_iff_right rfl).trans hcode
      · next hjoin => simp [hjoin, ErrCode.isError]
  · have hne := mt hauth.mp htakes
    rw [if_pos hne]
    exact iff_of_true ⟨rfl, isError_applyAuth hne⟩ fun hpasses => htakes hpasses.1

/-- How many of the invitees, each counted once, join without being asked. -/
def numJoining (env : Env) (d : GroupData) (userIds : List String) : Nat :=
  userIds.dedup.countP fun userId =>
    mayJoin d userId && verifyGroupUserPermission env userId = some 0

theorem length_joining (userIds : List String) :
    (joining (parseInviteeList env d userIds)).length = numJoining env d userIds := by
  rw [numJoining, List.countP_eq_length_filter]
  refine ((List.perm_ext_iff_of_nodup (joining_nodup _) ?_).mpr fun userId => ?_).length_eq
  · exact (List.nodup_dedup userIds).filter _
  · simp [mem_joining]

theorem isError_inviteAuth {info : GroupInfo} {nJoinNum : Nat}
    (h : verifyGroupInviteAuth info nJoinNum ≠ .nonErr) :
    (verifyGroupInviteAuth info nJoinNum).isError = true := by
  unfold verifyGroupInviteAuth at h ⊢
  split
  · rfl
  · split
    · rfl
    · next hnormal hroom =>
      simp only [hnormal, if_neg hroom] at h
      exact absurd rfl h
  · rfl

/-- An invitation to a group that is not there is refused, unless the record passes for one of a
group with room and there is somebody to join. -/
theorem Unknown.inviteGroup_iff (h : Unknown d) (msg : GroupInvite) :
    (inviteGroup env msg d).data = d ∧ (inviteGroup env msg d).err.isError = true ↔
      ¬ ((env.junk 0).bStatus = .normalGroupstatus ∧
        (env.junk 0).nGroupNumber + msg.inviteeIds.length % 2 ^ 16 < maxGroupmember ∧
        env.userInfo msg.inviterId ≠ none ∧ numJoining env d msg.inviteeIds % 2 ^ 16 ≠ 0) := by
  unfold inviteGroup
  simp only [h.getGroupInfo]
  split
  · next hauth =>
    refine iff_of_true ⟨rfl, isError_inviteAuth hauth⟩ ?_
    rintro ⟨hstatus, hroom, -⟩
    refine hauth ?_
    simp only [verifyGroupInviteAuth, hstatus, if_neg (Nat.not_le.mpr hroom)]
  · next hauth =>
    obtain ⟨hstatus, hroom⟩ := nonErr_of_inviteAuth (not_not.mp hauth)
    rw [and_iff_right hstatus, and_iff_right hroom]
    split
    · next hunknown => simp [hunknown, ErrCode.isError]
    · next hknown =>
      rw [and_iff_right hknown]
      simp only [insertMultiGroupMember, length_joining]
      split
      · next hnobody => exact iff_of_true ⟨rfl, rfl⟩ (not_not.mpr hnobody)
      · next hsomebody => exact iff_of_false nofun (not_not.mpr hsomebody)

theorem joins_iff (d : GroupData) (userId : String) :
    (isMember d userId).1 = .errGroupMembernonexist ∨ (isMember d userId).2 = some .quitMember ↔
      mayJoin d userId = true := by
  unfold mayJoin isMember
  cases d.memCache.lookup userId with
  | some status => simp
  | none =>
    cases d.members.lookup userId with
    | none => simp
    | some status => cases status <;> simp

theorem Unknown.joinDirectly_iff (h : Unknown d) (msg : GroupPermit) :
    (joinDirectlyGroupProc env msg d).data = d ∧
        (joinDirectlyGroupProc env msg d).err.isError = true ↔
      ¬ ((env.junk 0).bStatus = .normalGroupstatus ∧ mayJoin d msg.userId = true) := by
  unfold joinDirectlyGroupProc
  simp only [h.getGroupInfo, joins_iff]
  split
  · next hnormal =>
    split
    · next hjoin => exact iff_of_false nofun (not_not.mpr ⟨hnormal, hjoin⟩)
    · next hjoin => exact iff_of_true ⟨rfl, rfl⟩ fun hpasses => hjoin hpasses.2
  · next hnormal => exact iff_of_true ⟨rfl, rfl⟩ fun hpasses => hnormal hpasses.1

theorem Unknown.quitGroup_iff (h : Unknown d) (msg : GroupQuit) (huser : msg.userId ≠ "") :
    (quitGroup env msg d).data = d ∧ (quitGroup env msg d).err.isError = true ↔
      ¬ ((env.junk 0).bStatus = .normalGroupstatus ∧
        (isMember d msg.userId).1 = .errGroupMemberexist) := by
  unfold quitGroup
  simp only [h.getGroupInfo]
  split
  · next hmember => exact iff_of_true ⟨rfl, rfl⟩ fun hpasses => hmember hpasses.2
  · next hmember =>
    split
    · next hnormal => exact iff_of_true ⟨rfl, rfl⟩ fun hpasses => hnormal hpasses.1
    · next hnormal =>
      rw [if_neg fun hmaster => huser hmaster.1.symm]
      exact iff_of_false nofun (not_not.mpr ⟨not_not.mp hnormal, not_not.mp hmember⟩)

theorem Unknown.kickoutGroup (h : Unknown d) (msg : GroupKickOut) (huser : msg.userId ≠ "") :
    (kickoutGroup msg d).data = d ∧ (kickoutGroup msg d).err.isError = true := by
  unfold Group.kickoutGroup
  rw [if_neg (h.isMaster_ne huser)]
  split
  · exact ⟨rfl, rfl⟩
  · exact ⟨rfl, rfl⟩

theorem Unknown.modifyGroupMaster (h : Unknown d) (msg : GroupModify) (huser : msg.userId ≠ "") :
    (modifyGroupMaster msg d).data = d ∧ (modifyGroupMaster msg d).err.isError = true := by
  rw [Group.modifyGroupMaster, if_neg (h.isMaster_ne huser)]
  exact ⟨rfl, rfl⟩

theorem Unknown.modifyGroupText (h : Unknown d) (huser : userId ≠ "") (set : GroupTexts → GroupTexts)
    (texts : GroupTexts) : modifyGroupText set userId d texts = (.errGroupForbidden, texts) :=
  if_neg (h.isMaster_ne huser)

/-- Looking for a user of a group caches nothing. -/
def CachesNothing (d : GroupData) (userId : String) : Prop :=
  (d.memCache = ∅ → d.active = 0) ∧
    (d.memCache.lookup userId = none → d.members.lookup userId = none)

theorem getGrpMems_snd_eq_iff : (getGrpMems d).2 = d ↔ (d.memCache = ∅ → d.active = 0) := by
  unfold getGrpMems
  split
  · next hlength =>
    have hempty := Table.eq_empty hlength
    refine Iff.trans ?_ ((imp_iff_right hempty).trans Table.select_eq_empty_iff.symm).symm
    constructor
    · intro hsame
      exact (congrArg GroupData.memCache hsame).trans hempty
    · intro hselect
      rw [hselect, ← hempty]
  · next hlength =>
    refine iff_of_true rfl fun hempty => absurd ?_ hlength
    rw [hempty]
    rfl

/-- A user who is not among the members that were found is cached if he has a row. -/
theorem getGrpMem_cases (d : GroupData) (userId : String) :
    getGrpMem d userId = ((getGrpMems d).1.lookup userId, (getGrpMems d).2) ∧
        ((getGrpMems d).1.lookup userId = none → d.members.lookup userId = none) ∨
      (getGrpMem d userId).2.memCache.lookup userId ≠ none ∧
        (getGrpMems d).1.lookup userId = none ∧ d.members.lookup userId ≠ none := by
  obtain ⟨memCache, hframe⟩ := getGrpMems_frame d
  unfold getGrpMem
  cases hget : getGrpMems d with | mk grpmems d' =>
  rw [hget] at hframe
  subst hframe
  dsimp only
  cases hfound : grpmems.lookup userId with
  | some status => exact .inl ⟨rfl, nofun⟩
  | none =>
    cases hrow : d.members.lookup userId with
    | none => exact .inl ⟨rfl, fun _ => rfl⟩
    | some status =>
      refine .inr ⟨?_, rfl, nofun⟩
      dsimp only
      rw [AList.lookup_insert]
      exact nofun

theorem CachesNothing.getGrpMem (h : CachesNothing d userId) :
    getGrpMem d userId = (d.memCache.lookup userId, d) := by
  have hsame := getGrpMems_snd_eq_iff.mpr h.1
  have hmems := memCache_getGrpMems d
  rw [hsame] at hmems
  obtain ⟨hget, -⟩ | ⟨-, hnone, hrow⟩ := getGrpMem_cases d userId
  · rw [hget, hsame, hmems]
  · rw [← hmems] at hnone
    exact absurd (h.2 hnone) hrow

theorem getGrpMem_eq_iff : (getGrpMem d userId).2 = d ↔ CachesNothing d userId := by
  refine ⟨fun hsame => ?_, fun h => by rw [h.getGrpMem]⟩
  obtain ⟨hget, hrow⟩ | ⟨hcached, hnone, -⟩ := getGrpMem_cases d userId
  · have hmems := memCache_getGrpMems d
    rw [hget] at hsame
    rw [hsame] at hmems
    rw [← hmems] at hrow
    exact ⟨getGrpMems_snd_eq_iff.mp hsame, hrow⟩
  · -- The hash is not empty then, so it is what was found, and has the user.
    rw [hsame] at hcached
    have hfound : (getGrpMems d).2 = d := by
      refine getGrpMems_snd_eq_iff.mpr fun hempty => ?_
      rw [hempty] at hcached
      exact absurd rfl hcached
    rw [← memCache_getGrpMems, hfound] at hnone
    exact absurd hnone hcached

/-- The user is cached as a member who may chat. -/
def IsCachedActive (d : GroupData) (userId : String) : Prop :=
  ∃ status ∈ d.memCache.lookup userId, status.isActive = true

theorem insertGrpOfflineMsg_stored_iff (written : Bool) (doc : Msg.GrpOfflineMsg)
    (store : Msg.GrpStore) :
    (Msg.insertGrpOfflineMsg written doc store).1 ≠ .failed ↔
      doc.isValid = true ∧ written = true := by
  unfold Msg.insertGrpOfflineMsg
  split
  · next hstored =>
    refine iff_of_true ?_ (Bool.and_eq_true_iff.mp hstored)
    dsimp only
    split
    · exact nofun
    · exact nofun
  · next hstored => exact iff_of_false (not_not.mpr rfl) fun h => hstored (Bool.and_eq_true_iff.mpr h)

theorem CachesNothing.isError_inserted {doc : Msg.GrpOfflineMsg} (h : CachesNothing d doc.fromId)
    (inserted : Bool) (store : Msg.GrpStore) :
    (onGrpChatInserted d doc inserted store).ack.any (fun err => err ≠ .nonErr) = true ↔
      ¬ (IsCachedActive d doc.fromId ∧ inserted = true) := by
  simp only [onGrpChatInserted, h.getGrpMem, IsCachedActive]
  cases d.memCache.lookup doc.fromId with
  | none => simp
  | some status => cases status <;> cases inserted <;> simp [MemberStatus.isActive]

/-- A chat to a group that is not there is refused, unless its sender is a member all the same
and the chat is stored. -/
theorem chat_iff (store : Msg.GrpStore) (env : ChatEnv) {msg : Msg.MESGrpChat}
    (hchecks : (GroupRequest.chat env msg).checks = true) :
    (onChat env d store msg).data = d ∧
        (onChat env d store msg).ack.any (fun err => err ≠ .nonErr) = true ↔
      ¬ (msg.content ≠ "" ∧ (CachesNothing d msg.fromId → IsCachedActive d msg.fromId ∧
        env.now ≠ 0 ∧ msg.msgId ≠ "" ∧ env.written = true)) := by
  simp only [GroupRequest.checks, Bool.and_eq_true, decide_eq_true_eq] at hchecks
  obtain ⟨⟨hgroup, huser⟩, hvalid⟩ := hchecks
  have hnamed : ¬ (msg.grpId = "" ∨ msg.fromId = "" ∨ (!Msg.isGrpIdValid msg.grpId) = true) := by
    simp [hgroup, huser, hvalid]
  by_cases hcontent : msg.content = ""
  · have hcheck : checkChat msg = some (some .errChatUnhealthy) := by
      rw [checkChat, if_neg hnamed, if_pos hcontent]
    simp [onChat, hcheck, hcontent]
  · have hcheck : checkChat msg = none := by
      rw [checkChat, if_neg hnamed, if_neg hcontent]
    rw [onChat_data_of_check hcheck, getGrpMem_eq_iff, and_iff_right hcontent]
    by_cases hcaches : CachesNothing d msg.fromId
    · rw [forall_prop_of_true hcaches, and_iff_right hcaches]
      simp only [onChat, hcheck]
      refine (CachesNothing.isError_inserted hcaches _ _).trans (not_congr (and_congr_right' ?_))
      refine decide_eq_true_iff.trans ((insertGrpOfflineMsg_stored_iff ..).trans ?_)
      rw [Msg.GrpOfflineMsg.isValid, Bool.and_eq_true, decide_eq_true_iff,
        decide_eq_true_iff, and_assoc]
      rfl
    · exact iff_of_false (fun h => hcaches h.1) (not_not.mpr fun h => absurd h hcaches)

theorem chatCancel_iff {msg : Msg.GroupChatCancel} (hchecks : checkChatCancel msg = true) :
    (onChatCancel d msg).2 = d ∧ (onChatCancel d msg).1.any (fun err => err ≠ .nonErr) = true ↔
      ¬ (CachesNothing d msg.fromId → IsCachedActive d msg.fromId) := by
  rw [onChatCancel_data_of_check hchecks, getGrpMem_eq_iff]
  by_cases hcaches : CachesNothing d msg.fromId
  · rw [forall_prop_of_true hcaches, and_iff_right hcaches]
    simp only [onChatCancel, hchecks, Bool.not_true, Bool.false_eq_true, if_false,
      hcaches.getGrpMem]
    unfold IsCachedActive
    cases d.memCache.lookup msg.fromId with
    | none => simp
    | some status => cases status <;> simp [MemberStatus.isActive]
  · exact iff_of_false (fun h => hcaches h.1) (not_not.mpr fun h => absurd h hcaches)

/-- What is left in the memory of the records, or of the members, passes for a group that does
what is asked for. -/
def GroupRequest.Misled (d : GroupData) : GroupRequest → Prop
  | task env (.apply msg) =>
    TakesApply env msg.applyType (env.junk 0) ∧ env.userInfo msg.userId ≠ none ∧
      mayJoin d msg.userId = true ∧ LetsIn env (env.junk 1)
  | task env (.invite msg) =>
    (env.junk 0).bStatus = .normalGroupstatus ∧
      (env.junk 0).nGroupNumber + msg.inviteeIds.length % 2 ^ 16 < maxGroupmember ∧
      env.userInfo msg.inviterId ≠ none ∧ numJoining env d msg.inviteeIds % 2 ^ 16 ≠ 0
  | task env (.permit msg) => (env.junk 0).bStatus = .normalGroupstatus ∧ mayJoin d msg.userId = true
  | task env (.quit msg) =>
    (env.junk 0).bStatus = .normalGroupstatus ∧ (isMember d msg.userId).1 = .errGroupMemberexist
  | task _ _ => False
  | modify .clinicknameModitied msg _ => (isMember d msg.userId).1 = .errGroupMemberexist
  | modify _ _ _ => False
  | chat env msg =>
    msg.content ≠ "" ∧ (CachesNothing d msg.fromId → IsCachedActive d msg.fromId ∧
      env.now ≠ 0 ∧ msg.msgId ≠ "" ∧ env.written = true)
  | chatCancel msg => CachesNothing d msg.fromId → IsCachedActive d msg.fromId

theorem ErrCode.isError_ne {err : ErrCode} (h : err.isError = true) : err ≠ .nonErr := by
  rintro rfl
  cases h

theorem Task.texts_of_isError (t : Task) {err : ErrCode} (h : err.isError = true) (d : GroupData)
    (texts : GroupTexts) : t.texts err d texts = texts := by
  cases t with
  | quit msg => exact if_neg (ErrCode.isError_ne h)
  | _ => rfl

theorem harmless_task_iff (store : Msg.GrpStore) (texts : GroupTexts) (t : Task) :
    (GroupRequest.task env t).Harmless store d texts ↔
      (t.run env 0 d).data = d ∧ (t.run env 0 d).err.isError = true :=
  ⟨fun h => ⟨h.1, h.2.2⟩, fun h => ⟨h.1, t.texts_of_isError h.2 d texts, h.2⟩⟩

theorem harmless_modify_iff (h : Unknown d) (store : Msg.GrpStore) (texts : GroupTexts)
    (modifyType : ModifyType) (msg : GroupModify) (content : String) (huser : msg.userId ≠ "") :
    (GroupRequest.modify modifyType msg content).Harmless store d texts ↔
      ¬ (GroupRequest.modify modifyType msg content).Misled d := by
  cases modifyType with
  | clinicknameModitied =>
    dsimp only [GroupRequest.Harmless, GroupRequest.run, modifyGroupProc, modifyGroupNickName,
      GroupRequest.Misled]
    split
    · next hmember => exact iff_of_false (fun h => by cases h.2.2) (not_not.mpr hmember)
    · next hmember => exact iff_of_true ⟨rfl, rfl, rfl⟩ hmember
  | otherType => exact iff_of_true ⟨rfl, rfl, rfl⟩ id
  | grpAnnouncement | grpnameModified | grpphotoModified =>
    refine iff_of_true ?_ id
    dsimp only [GroupRequest.Harmless, GroupRequest.run, modifyGroupProc, modifyGroupAnnouncement,
      modifyGroupName, modifyGroupAvatar]
    rw [h.modifyGroupText huser]
    exact ⟨rfl, rfl, rfl⟩

/-- A request about a group that is not there changes nothing and is answered with an error
exactly if it is not misled. -/
theorem Unknown.harmless_iff (h : Unknown d) {r : GroupRequest} (hchecks : r.checks = true)
    (store : Msg.GrpStore) (texts : GroupTexts) : r.Harmless store d texts ↔ ¬ r.Misled d := by
  cases r with
  | modify modifyType msg content =>
    simp only [GroupRequest.checks, Task.checks, Bool.and_eq_true, decide_eq_true_eq] at hchecks
    exact harmless_modify_iff h store texts modifyType msg content hchecks.1
  | chat env msg =>
    refine Iff.trans ⟨fun h => ⟨h.1, h.2.2⟩, fun h => ⟨h.1, rfl, h.2⟩⟩ (chat_iff store env hchecks)
  | chatCancel msg =>
    refine Iff.trans ⟨fun h => ⟨h.1, h.2.2⟩, fun h => ⟨h.1, rfl, h.2⟩⟩ (chatCancel_iff hchecks)
  | task env t =>
    refine (harmless_task_iff store texts t).trans ?_
    cases t with
    | create msg => cases hchecks
    | invite msg => exact h.inviteGroup_iff msg
    | permit msg => exact h.joinDirectly_iff msg
    | apply msg =>
      simp only [GroupRequest.checks, Task.checks, Bool.and_eq_true, decide_eq_true_eq] at hchecks
      exact h.applyGroup_iff msg hchecks.1
    | quit msg =>
      simp only [GroupRequest.checks, Task.checks, Bool.and_eq_true, decide_eq_true_eq] at hchecks
      exact h.quitGroup_iff msg hchecks.1
    | kickOut msg =>
      simp only [GroupRequest.checks, Task.checks, Bool.and_eq_true, decide_eq_true_eq] at hchecks
      exact iff_of_true (h.kickoutGroup msg hchecks.1.1) id
    | modify msg =>
      simp only [GroupRequest.checks, Task.checks, Bool.and_eq_true, decide_eq_true_eq] at hchecks
      exact iff_of_true (h.modifyGroupMaster msg hchecks.1) id

end Unknown

/-- Where the table of permissions is looked at, which for an unknown group is what the memory
has. -/
def permissionIndex (junk : GroupInfo) (d : GroupData) : Nat := (getGroupInfo junk d).bPermit.toNat

/-- The group has just been created, in a state that any events with plain ids and texts led to,
with the permission that a client sent in 32 bits. -/
def CreatedWith (npermission : UInt32) (groupId : String) (s' : State) : Prop :=
  ∃ (s : State) (env : Env) (msg : GroupCreate),
    let create : Event := .task env (.create
      { msg with groupId := groupId, permission := npermission.toUInt8 })
    Run.Reaches State.step (fun _ e => e.Plain) {} s ∧ (s.data groupId).row = none ∧
      create.Plain ∧ s.step create = some s' ∧ (s'.data groupId).row ≠ none

section Permissions

variable {s s' : State} {groupId : String}

theorem Sound.reaches {good : State → Event → Prop} (hinit : ∀ groupId, Sound (s.data groupId))
    (h : Run.Reaches State.step good s s') : ∀ groupId, Sound (s'.data groupId) := by
  refine Run.Reaches.invariant (fun s => ∀ groupId, Sound (s.data groupId)) hinit ?_ h
  intro s e s' hsound _ hstep
  exact State.forall_step hsound (Sound.apply hsound e) hstep

theorem permitKept_apply (e : Event) (hrow : (s.data e.groupId).row ≠ none) :
    PermitKept (s.data e.groupId) (e.apply s) := by
  have hrefl : ∀ d, PermitKept d d := fun d => ⟨rfl, fun _ => id⟩
  cases e with
  | task env t => exact (Event.outcome env s t).permitKept hrow
  | chat env msg =>
    obtain hsame | ⟨-, hdata⟩ := onChat_data env (s.data msg.grpId) s.grpStore msg
    · exact (congrArg (PermitKept _) hsame).mpr (hrefl _)
    · exact (congrArg (PermitKept _) hdata).mpr (permitKept_getGrpMem _ _)
  | chatCancel msg =>
    obtain hsame | ⟨-, hdata⟩ := onChatCancel_data (s.data msg.groupId) msg
    · exact (congrArg (PermitKept _) hsame).mpr (hrefl _)
    · exact (congrArg (PermitKept _) hdata).mpr (permitKept_getGrpMem _ _)

theorem permission_reaches {permission : UInt8} {good : State → Event → Prop}
    (hinit : (s.data groupId).row.map GroupRow.permission = some permission)
    (h : Run.Reaches State.step good s s') :
    (s'.data groupId).row.map GroupRow.permission = some permission := by
  refine Run.Reaches.invariant
    (fun s => (s.data groupId).row.map GroupRow.permission = some permission) hinit ?_ h
  intro s e s' hpermit _ hstep
  by_cases hgroup : groupId = e.groupId
  · subst hgroup
    rw [State.step_data hstep, ← hpermit]
    refine (permitKept_apply e ?_).row
    intro hnone
    rw [hnone] at hpermit
    cases hpermit
  · rw [State.step_data_ne hstep hgroup]
    exact hpermit

theorem permission_created {env : Env} {d d' : GroupData} {msg : GroupCreate}
    (houtcome : Outcome env d (.create msg) d') (hnone : d.row = none) (hrow : d'.row ≠ none) :
    d'.row.map GroupRow.permission = some msg.permission := by
  have hinserted : ∀ d', insertGroup env msg d = some d' →
      d'.row.map GroupRow.permission = some msg.permission := by
    intro d' hinsert
    simp only [insertGroup, hnone] at hinsert
    obtain rfl := Option.some.inj hinsert
    rfl
  cases houtcome with
  | same t => exact absurd hnone hrow
  | create msg d' hinsert => exact hinserted d' hinsert
  | createInvited msg d₁ hinsert => exact (permitKept_joined _ _ _).row.trans (hinserted d₁ hinsert)

/-- The index is the last byte of what was sent, at any time. -/
theorem CreatedWith.permissionIndex_eq {npermission : UInt32} {s₁ : State}
    (h : CreatedWith npermission groupId s₁)
    (hreach : Run.Reaches State.step (fun _ e => e.Plain) s₁ s') (junk : GroupInfo) :
    permissionIndex junk (s'.data groupId) = npermission.toNat % 2 ^ 8 := by
  obtain ⟨s₀, env, msg, hbefore, hnone, -, hstep, hrow⟩ := h
  have hsound₀ : ∀ groupId, Sound (s₀.data groupId) :=
    Sound.reaches (fun _ => ⟨fun _ h => (by cases h), fun _ _ h => (by cases h)⟩) hbefore
  have hsound := Sound.reaches (State.forall_step hsound₀ (Sound.apply hsound₀ _) hstep) hreach
  have hdata := State.step_data hstep
  have houtcome := Event.outcome env s₀
    (.create { msg with groupId := groupId, permission := npermission.toUInt8 })
  rw [← hdata] at houtcome
  have hcreated := permission_created houtcome hnone hrow
  have hpermit := permission_reaches hcreated hreach
  obtain ⟨row, hrow', hpermission⟩ := Option.map_eq_some_iff.mp hpermit
  rw [permissionIndex, (hsound groupId).bPermit_eq hrow' junk, hpermission]
  exact UInt32.toNat_toUInt8 npermission

end Permissions

/-- As long as ids and texts are plain, requests about groups that are not there are harmless
exactly if what was in the memory before does not pass for a group, and the permission of a group
is an index of the table exactly if its last byte was one when the group was created. -/
theorem requests_harmless_iff (r : GroupRequest) (d : GroupData) (store : Msg.GrpStore)
    (texts : GroupTexts) (npermission : UInt32) (groupId : String) (s : State) :
    (Unknown d → r.checks = true → r.Plain → (r.Harmless store d texts ↔ ¬ r.Misled d)) ∧
    (CreatedWith npermission groupId s →
      ((∀ s' junk, Run.Reaches State.step (fun _ e => e.Plain) s s' →
        permissionIndex junk (s'.data groupId) < 3) ↔ npermission.toNat % 2 ^ 8 < 3)) := by
  refine ⟨fun hunknown hchecks _ => hunknown.harmless_iff hchecks store texts, fun hcreated => ?_⟩
  constructor
  · intro hindex
    rw [← hcreated.permissionIndex_eq .refl {}]
    exact hindex s {} .refl
  · intro hsmall s' junk hreach
    rw [hcreated.permissionIndex_eq hreach junk]
    exact hsmall

/-- Ann applies for a group that nobody has made. -/
def exampleApply (junk : GroupInfo) : GroupRequest :=
  .task { junk := fun _ => junk } (.apply { userId := "ann", groupId := grp })

/-- Ann makes a group and sends a permission. -/
def exampleCreate (npermission : UInt32) : Event :=
  .task {} (.create { userId := "ann", groupId := grp, permission := npermission.toUInt8 })

theorem createdWith_example (npermission : UInt32)
    (hrow : ((exampleCreate npermission).apply {}).row.isSome = true) :
    ∃ s, State.step {} (exampleCreate npermission) = some s ∧ CreatedWith npermission grp s := by
  obtain ⟨s, hstep⟩ : ∃ s, State.step {} (exampleCreate npermission) = some s := ⟨_, rfl⟩
  have hdata : s.data grp = (exampleCreate npermission).apply {} := State.step_data hstep
  refine ⟨s, hstep, {}, {}, { userId := "ann", groupId := grp }, .refl, rfl, ?_, hstep, ?_⟩
  · have hplain : (exampleCreate 0).Plain := by decide +kernel
    exact fun _ => hplain rfl
  · rw [hdata]
    exact Option.isSome_iff_ne_none.mp hrow

theorem requests_harmless_example :
    (exampleApply {}).Harmless [] {} {} ∧
      ∃ s, State.step {} (exampleCreate 1) = some s ∧
        ∀ s' junk, Run.Reaches State.step (fun _ e => e.Plain) s s' →
          permissionIndex junk (s'.data grp) < 3 := by
  obtain ⟨s, hstep, hcreated⟩ := createdWith_example 1 (by decide +kernel)
  have hiff := requests_harmless_iff (exampleApply {}) {} [] {} 1 grp s
  refine ⟨?_, s, hstep, (hiff.2 hcreated).mpr (by decide)⟩
  have hplain : Sql.PlainLiteral "ann" := by decide +kernel
  refine (hiff.1 ⟨rfl, rfl⟩ (by decide +kernel) hplain).mpr ?_
  rintro ⟨⟨hnormal | hdeposit, -⟩, -⟩
  · cases hnormal
  · cases hdeposit

/-- Where the memory holds a status and no permission, Ann joins a group that is not there; and a
group may have a permission beyond the table. -/
theorem not_requests_harmless :
    Unknown {} ∧ (exampleApply { bStatus := .normalGroupstatus }).checks = true ∧
      ¬ (exampleApply { bStatus := .normalGroupstatus }).Harmless [] {} {} ∧
      ((exampleApply { bStatus := .normalGroupstatus }).run [] {} {}).data.members.lookup "ann" =
        some .applyMember ∧
      ((exampleApply { bStatus := .normalGroupstatus }).run [] {} {}).isError = false ∧
      ∃ s, CreatedWith 7 grp s ∧ permissionIndex {} (s.data grp) = 7 := by
  obtain ⟨s, hstep, hcreated⟩ := createdWith_example 7 (by decide +kernel)
  refine ⟨⟨rfl, rfl⟩, by decide +kernel, ?_, by decide +kernel, by decide +kernel, s, hcreated, ?_⟩
  · intro h
    have herror : ((exampleApply { bStatus := .normalGroupstatus }).run [] {} {}).isError = false := by
      decide +kernel
    rw [h.2.2] at herror
    cases herror
  · exact hcreated.permissionIndex_eq .refl {}

end Group

end ImServer
