import ImServer.Base.JsonWriter
import ImServer.Lib.Run

/-!
# The data of a push

`PostDataGenerator` (ipush/protohandle.cpp) makes the data of a request to the push service from a
message: the header fields and a JSON body. The header is a `CHead`, which each generator keeps
between its calls. Its setters look at what they are given; one that refuses leaves the old value,
and nobody looks at what they return.

A character array whose text does not fit, or which is read without a NUL in it, has no defined
behaviour.
-/

namespace ImServer

/-- `PSvrMsg`, as far as the generators read it. -/
structure PSvrMsg where
  emsgtype : ℤ
  smsgid : List UInt8
  sfromid : List UInt8
  stoid : List UInt8
  stotoken : List UInt8
  sbody : List UInt8
  nunreadnotifymsgcount : UInt32 := 0
  calltype : UInt32 := 0
  scallid : List UInt8 := []
  deriving DecidableEq, Repr

/-- What comes of a call. -/
inductive Generated (α : Type) where
  | undefined
  | null
  | data (a : α)
  deriving DecidableEq, Repr

/-- The settings of the push server. The topic is a C string, and the key signs the time of an
authorization, if it can be read. -/
structure PushConfig where
  topicBundleId : List UInt8
  noNul : 0 ∉ topicBundleId
  authorization : ℤ → Option (List UInt8)

/-- The request header fields. -/
structure Nghttparr where
  method : List UInt8 := CText.bytes "POST"
  path : List UInt8
  apnsId : List UInt8
  apnsTopic : List UInt8
  authorization : List UInt8
  deriving DecidableEq, Repr

structure CApnsPostData where
  nva : Nghttparr
  navArrayLen : Nat := 5
  sToId : List UInt8
  sMsgId : List UInt8
  body : List UInt8
  bodyLen : Nat
  deriving DecidableEq, Repr

def u8TopicLen : Nat := 32

def u8TokenLen : Nat := 64

/-- The authorization, which all headers share. -/
structure Authorization where
  timestampSecAuth : ℤ := 0
  sAuthorization : List UInt8 := []
  deriving DecidableEq, Repr

/-- The array of the topic is given with all its bytes, the other texts up to their NUL. -/
structure CHead where
  sDeviceToken : List UInt8 := []
  sApnsId : List UInt8 := []
  sTopic : List UInt8 := List.replicate u8TopicLen 0
  deriving DecidableEq, Repr

namespace CHead

variable (head : CHead)

def setDeviceToken (token : List UInt8) : Bool × CHead :=
  if token.length ≠ u8TokenLen then (false, head)
  else (true, { head with sDeviceToken := CText.bytes "/3/device/" ++ token })

/-- `SetTopic` copies the text without its NUL, and is not defined if the array is too short. -/
def setTopic (topic : List UInt8) : Generated (Bool × CHead) :=
  if topic = [] then .data (false, head)
  else if u8TopicLen < topic.length then .undefined
  else .data (true, { head with sTopic := topic ++ head.sTopic.drop topic.length })

/-- `SetAPNsId` takes an id of its own. -/
def setApnsId (uuid : List UInt8) : CHead := { head with sApnsId := uuid }

def getNghttp2Nv (auth : Authorization) : Generated Nghttparr :=
  if 0 ∈ head.sTopic then
    .data {
      path := head.sDeviceToken
      apnsId := head.sApnsId
      apnsTopic := CText.cStr head.sTopic
      authorization := auth.sAuthorization }
  else .undefined

end CHead

/-- An authorization is taken for half an hour, also if there was none. -/
def Authorization.holds (auth : Authorization) (tm : ℤ) : Prop :=
  tm - auth.timestampSecAuth < 1800 ∧ auth.timestampSecAuth ≠ 0

instance Authorization.decidableHolds (auth : Authorization) (tm : ℤ) : Decidable (auth.holds tm) :=
  inferInstanceAs (Decidable (_ ∧ _))

/-- `SetAuthorization`. -/
def Authorization.set (auth : Authorization) (config : PushConfig) (tm : ℤ) : Bool × Authorization :=
  if auth.holds tm then (true, auth)
  else
    match config.authorization tm with
    | none => (false, { auth with timestampSecAuth := tm })
    | some sAuthorization => (true, { timestampSecAuth := tm, sAuthorization })

namespace PSvrMsg

variable (msg : PSvrMsg)

/-- `IOS_PUSH_TYPE` of the message. -/
def pushType : ℤ :=
  if msg.emsgtype = 16 then 1
  else if msg.emsgtype = 3 then 2
  else if msg.emsgtype = 6 then 3
  else if msg.emsgtype = 17 then 4
  else if msg.emsgtype = 7 then 5
  else if msg.emsgtype = 18 then 6
  else 0

/-- `getiOSPayLoadJsonStr`, before it is written. A call comes with the time `now`. -/
def iosPayLoadJson (now : ℤ) : Json.Tree :=
  let p2pValue := Json.Tree.null
    |>.set "fromId" (.string msg.sfromid)
    |>.set "callId" (.string msg.scallid)
    |>.set "callType" (.int msg.calltype.toNat)
    |>.set "msgTime" (.int now)
  let extendValue := if msg.emsgtype = 16 then Json.Tree.null.set "p2p_call" p2pValue else .null
  let categoryValue := Json.Tree.null
    |>.set "pushType" (.int msg.pushType)
    |>.set "action" (.int 0)
    |>.set "extend" extendValue
  let apsValue := Json.Tree.null
    |>.set "alert" (.string msg.sbody)
    |>.set "sound" (.string (CText.bytes "default"))
    |>.set "category" categoryValue
  Json.Tree.null.set "aps" apsValue

/-- `CAppOpenJson` of the message. -/
def appOpenJson : Json.Tree :=
  let jroot := Json.Tree.null.set "notify_type" (.int msg.emsgtype)
  let jroot := if msg.stoid = [] then jroot else jroot.set "id" (.string msg.stoid)
  if msg.stoid = [] then jroot
  else if msg.emsgtype = 1 then jroot.set "name" (.string msg.stoid)
  else if msg.emsgtype = 2 then jroot.set "url" (.string msg.stoid)
  else if msg.emsgtype = 3 then jroot.set "extra" (.string msg.stoid)
  else jroot

/-- `GetJson_s` of a `CPayLoad` with the data of the message, before it is written. -/
def payLoadJson : Option Json.Tree :=
  if msg.sbody = [] then none
  else
    let alertValue := Json.Tree.null.set "body" (.string msg.sbody)
    let apsValue := Json.Tree.null
      |>.set "action" msg.appOpenJson
      |>.set "badge" (.int msg.nunreadnotifymsgcount.toInt32.toInt)
      |>.set "sound" (.string (CText.bytes "chime.aiff"))
      |>.set "alert" alertValue
    some (Json.Tree.null.set "aps" apsValue)

end PSvrMsg

/-- What a call takes from elsewhere: the seconds and milliseconds of the clock, and a new id. -/
structure PostEnv where
  tm : ℤ
  now : ℤ
  uuid : List UInt8

/-- `Init` with the settings, and then `SetAPNsId` and `SetDeviceToken`. It is null if `Init`
fails. -/
def CHead.prepare (head : CHead) (auth : Authorization) (config : PushConfig) (env : PostEnv)
    (msg : PSvrMsg) : Generated Unit × CHead × Authorization :=
  match head.setTopic config.topicBundleId with
  | .undefined => (.undefined, head, auth)
  | .null => (.null, head, auth)
  | .data (false, head) => (.null, head, auth)
  | .data (true, head) =>
    match auth.set config env.tm with
    | (false, auth) => (.null, head, auth)
    | (true, auth) =>
      (.data (), ((head.setApnsId env.uuid).setDeviceToken (CText.cStr msg.stotoken)).2, auth)

/-- The data with a body that was copied as a C string. -/
def CApnsPostData.make (nva : Nghttparr) (msg : PSvrMsg) (json : Json.Tree) : CApnsPostData where
  nva
  sToId := msg.stoid
  sMsgId := msg.smsgid
  body := CText.cStr (Json.toStyledString json)
  bodyLen := (Json.toStyledString json).length

/-- Whose generator is asked: `CVoipHttp2Client` or `CApnsClient`. Each keeps a header of its
own. -/
inductive PushClientType where
  | voipHttp2
  | apns
  deriving DecidableEq, Repr

/-- The headers that the generators keep, the authorization that both use, and what they have
made. -/
structure PostDataGenerator where
  voipHttp2 : CHead := {}
  apns : CHead := {}
  auth : Authorization := {}
  made : List (PushClientType × PSvrMsg × Generated CApnsPostData) := []

namespace PostDataGenerator

variable (g : PostDataGenerator) (config : PushConfig) (env : PostEnv) (msg : PSvrMsg)

def generateVoipHttp2PostData : Generated CApnsPostData × PostDataGenerator :=
  let (prepared, head, auth) := g.voipHttp2.prepare g.auth config env msg
  let g := { g with voipHttp2 := head, auth }
  match prepared with
  | .undefined => (.undefined, g)
  | .null => (.null, g)
  | .data () =>
    match head.getNghttp2Nv auth with
    | .undefined => (.undefined, g)
    | .null => (.null, g)
    | .data nva => (.data (.make nva msg (msg.iosPayLoadJson env.now)), g)

def generateApnsPostData : Generated CApnsPostData × PostDataGenerator :=
  let (prepared, head, auth) := g.apns.prepare g.auth config env msg
  let g := { g with apns := head, auth }
  match prepared with
  | .undefined => (.undefined, g)
  | .null => (.null, g)
  | .data () =>
    match msg.payLoadJson with
    | none => (.null, g)
    | some json =>
      match head.getNghttp2Nv auth with
      | .undefined => (.undefined, g)
      | .null => (.null, g)
      | .data nva => (.data (.make nva msg json), g)

def generate (client : PushClientType) : Generated CApnsPostData × PostDataGenerator :=
  match client with
  | .voipHttp2 => g.generateVoipHttp2PostData config env msg
  | .apns => g.generateApnsPostData config env msg

end PostDataGenerator

/-- A message arrives for a client, or an answer with status 403 does. -/
inductive PushEvent where
  | push (client : PushClientType) (msg : PSvrMsg) (env : PostEnv)
  | forbidden

/-- `OnApnsPush` lets a message through that has an id, a token and a body. -/
def PSvrMsg.complete (msg : PSvrMsg) : Prop := msg.smsgid ≠ [] ∧ msg.stotoken ≠ [] ∧ msg.sbody ≠ []

instance PSvrMsg.decidableComplete (msg : PSvrMsg) : Decidable msg.complete :=
  inferInstanceAs (Decidable (_ ∧ _ ∧ _))

namespace PostDataGenerator

def step (config : PushConfig) (g : PostDataGenerator) : PushEvent → PostDataGenerator
  | .push client msg env =>
    if msg.complete then
      let (made, g) := g.generate config env msg client
      { g with made := g.made ++ [(client, msg, made)] }
    else g
  | .forbidden => { g with auth.timestampSecAuth := 0 }

/-- Where a body has the text that is shown. -/
def alert (client : PushClientType) (json : Json.Tree) : Json.Tree :=
  let alert := (json.get (CText.bytes "aps")).get (CText.bytes "alert")
  match client with
  | .voipHttp2 => alert
  | .apns => alert.get (CText.bytes "body")

/-- The data is for the device of the message, with the topic of the settings and a text that says a
value in which the body of the message is shown. -/
def Own (config : PushConfig) (client : PushClientType) (msg : PSvrMsg) :
    Generated CApnsPostData → Prop
  | .undefined => False
  | .null => True
  | .data post =>
    post.nva.path = CText.bytes "/3/device/" ++ msg.stotoken ∧
      post.nva.apnsTopic = config.topicBundleId ∧
      ∃ json, Json.Says post.body json ∧ post.bodyLen = post.body.length ∧
        alert client json = .string msg.sbody

/-- A topic that fits its array, with a NUL if the request is authorized, and then a token of 64
bytes and a body, both of them without a NUL. -/
def Good (config : PushConfig) (g : PostDataGenerator) : PushEvent → Prop
  | .push _ msg env => msg.complete → config.topicBundleId ≠ [] →
    config.topicBundleId.length ≤ u8TopicLen ∧
      ((g.auth.holds env.tm ∨ config.authorization env.tm ≠ none) →
        config.topicBundleId.length < u8TopicLen ∧ msg.stotoken.length = u8TokenLen ∧
          0 ∉ msg.stotoken ∧ 0 ∉ msg.sbody)
  | .forbidden => True

end PostDataGenerator

namespace PSvrMsg

theorem alert_iosPayLoadJson (msg : PSvrMsg) (now : ℤ) :
    PostDataGenerator.alert .voipHttp2 (msg.iosPayLoadJson now) = .string msg.sbody := by
  have hsound : CText.bytes "alert" ≠ CText.bytes "sound" := by decide
  have hcategory : CText.bytes "alert" ≠ CText.bytes "category" := by decide
  simp only [PostDataGenerator.alert, iosPayLoadJson, Json.Tree.get_set_self,
    Json.Tree.get_set_of_ne hsound, Json.Tree.get_set_of_ne hcategory]

theorem alert_payLoadJson {msg : PSvrMsg} (h : msg.sbody ≠ []) :
    ∃ json, msg.payLoadJson = some json ∧
      PostDataGenerator.alert .apns json = .string msg.sbody := by
  refine ⟨_, if_neg h, ?_⟩
  simp only [PostDataGenerator.alert, Json.Tree.get_set_self]

end PSvrMsg

open Json.Tree.NulFree in
/-- The members have names without a NUL, so that what is written is free of it. -/
theorem PSvrMsg.nulFree_iosPayLoadJson (msg : PSvrMsg) (now : ℤ) :
    (msg.iosPayLoadJson now).cut.NulFree := by
  have hextend : ∀ value : Json.Tree, value.cut.NulFree →
      (if msg.emsgtype = 16 then Json.Tree.null.set "p2p_call" value else .null).cut.NulFree := by
    intro value hvalue
    split
    · exact @cutSet _ _ cutNull hvalue "p2p_call" (by decide)
    · exact cutNull
  have hfrom := @cutSet _ _ cutNull (cutString msg.sfromid) "fromId" (by decide)
  have hcall := @cutSet _ _ hfrom (cutString msg.scallid) "callId" (by decide)
  have htype := @cutSet _ _ hcall (cutInt msg.calltype.toNat) "callType" (by decide)
  have hp2p := @cutSet _ _ htype (cutInt now) "msgTime" (by decide)
  have hpush := @cutSet _ _ cutNull (cutInt msg.pushType) "pushType" (by decide)
  have haction := @cutSet _ _ hpush (cutInt 0) "action" (by decide)
  have hcategory := @cutSet _ _ haction (hextend _ hp2p) "extend" (by decide)
  have halert := @cutSet _ _ cutNull (cutString msg.sbody) "alert" (by decide)
  have hsound := @cutSet _ _ halert (cutString (CText.bytes "default")) "sound" (by decide)
  exact @cutSet _ _ cutNull (@cutSet _ _ hsound hcategory "category" (by decide)) "aps" (by decide)

theorem PSvrMsg.nulFree_appOpenJson (msg : PSvrMsg) : msg.appOpenJson.cut.NulFree := by
  have htype : (Json.Tree.null.set "notify_type" (.int msg.emsgtype)).cut.NulFree :=
    .cutSet .cutNull (.cutInt _) (by decide)
  rw [appOpenJson]
  by_cases hid : msg.stoid = []
  · simp only [if_pos hid]
    exact htype
  · simp only [if_neg hid]
    have hboth : ((Json.Tree.null.set "notify_type" (.int msg.emsgtype)).set "id"
        (.string msg.stoid)).cut.NulFree := .cutSet htype (.cutString _) (by decide)
    split
    · exact .cutSet hboth (.cutString _) (by decide)
    split
    · exact .cutSet hboth (.cutString _) (by decide)
    split
    · exact .cutSet hboth (.cutString _) (by decide)
    · exact hboth

theorem PSvrMsg.nulFree_payLoadJson {msg : PSvrMsg} {json : Json.Tree}
    (h : msg.payLoadJson = some json) : json.cut.NulFree := by
  rw [payLoadJson] at h
  split at h
  · cases h
  · cases h
    exact .cutSet .cutNull (.cutSet (.cutSet (.cutSet (.cutSet .cutNull msg.nulFree_appOpenJson
      (by decide)) (.cutInt _) (by decide)) (.cutString _) (by decide))
        (.cutSet .cutNull (.cutString _) (by decide)) (by decide)) (by decide)

theorem CApnsPostData.body_make (nva : Nghttparr) (msg : PSvrMsg) (json : Json.Tree) :
    (CApnsPostData.make nva msg json).body = Json.toStyledString json :=
  CText.cStr_eq_self_iff.mpr (Json.zero_not_mem_toStyledString json)

/-- The text says the body of the message unless there is a NUL in it. -/
theorem CApnsPostData.says_make_iff {client : PushClientType} {tree : Json.Tree} (nva : Nghttparr)
    (msg : PSvrMsg) (hshown : PostDataGenerator.alert client tree = .string msg.sbody)
    (hcut : tree.cut.NulFree) :
    (∃ json, Json.Says (make nva msg tree).body json ∧
      (make nva msg tree).bodyLen = (make nva msg tree).body.length ∧
        PostDataGenerator.alert client json = .string msg.sbody) ↔ 0 ∉ msg.sbody := by
  have hbody := body_make nva msg tree
  constructor
  · rintro ⟨json, hsaid, -, hjson⟩
    have hnulFree : (PostDataGenerator.alert client json).NulFree := by
      cases client with
      | voipHttp2 => exact (hsaid.nulFree.get _).get _
      | apns => exact ((hsaid.nulFree.get _).get _).get _
    rw [hjson] at hnulFree
    exact hnulFree
  · intro hzero
    refine ⟨tree.cut, ⟨hbody.trans (Json.toStyledString_cut tree).symm, hcut⟩, ?_, ?_⟩
    · rw [hbody]
      rfl
    · have halert : PostDataGenerator.alert client tree.cut =
          (PostDataGenerator.alert client tree).cut := by
        cases client with
        | voipHttp2 => simp only [PostDataGenerator.alert, Json.Tree.get_cut]
        | apns => simp only [PostDataGenerator.alert, Json.Tree.get_cut]
      rw [halert, hshown, Json.Tree.cut_string, CText.cStr_eq_self_iff.mpr hzero]

namespace CHead

/-- The array of the topic is empty or has the topic, and the path is empty or that of some token. -/
structure Kept (config : PushConfig) (head : CHead) : Prop where
  topic : config.topicBundleId.length ≤ u8TopicLen →
    head.sTopic.drop config.topicBundleId.length =
      List.replicate (u8TopicLen - config.topicBundleId.length) 0
  path : head.sDeviceToken = [] ∨ ∃ token : List UInt8, token.length = u8TokenLen ∧ 0 ∉ token ∧
    head.sDeviceToken = CText.bytes "/3/device/" ++ token

theorem kept_start (config : PushConfig) : Kept config {} where
  topic _ := List.drop_replicate
  path := .inl rfl

theorem Kept.setDeviceToken {config : PushConfig} {head : CHead} (h : Kept config head)
    (token : List UInt8) : Kept config (head.setDeviceToken (CText.cStr token)).2 := by
  rw [CHead.setDeviceToken]
  split
  · exact h
  · next hlength =>
    exact ⟨h.topic, .inr ⟨CText.cStr token, not_not.mp hlength, CText.zero_not_mem_cStr token, rfl⟩⟩

/-- The path is that of the token exactly if the token is taken as it is. -/
theorem Kept.path_eq_iff {config : PushConfig} {head : CHead} (h : Kept config head)
    (token : List UInt8) :
    (head.setDeviceToken (CText.cStr token)).2.sDeviceToken = CText.bytes "/3/device/" ++ token ↔
      token.length = u8TokenLen ∧ 0 ∉ token := by
  rw [CHead.setDeviceToken]
  split
  · next hlength =>
    refine ⟨fun hpath => ?_, fun ⟨htoken, hzero⟩ => ?_⟩
    · obtain hnone | ⟨old, hold, hzero, hdevice⟩ := h.path
      · have hempty := hnone.symm.trans hpath
        simp [CText.bytes] at hempty
      · have heq : old = token := List.append_cancel_left (hdevice.symm.trans hpath)
        rw [← heq, CText.cStr_eq_self_iff.mpr hzero] at hlength
        exact absurd hold hlength
    · rw [CText.cStr_eq_self_iff.mpr hzero] at hlength
      exact absurd htoken hlength
  · next hlength =>
    refine ⟨fun hpath => ?_, fun ⟨_, hzero⟩ => ?_⟩
    · have heq : CText.cStr token = token := List.append_cancel_left hpath
      exact ⟨heq ▸ not_not.mp hlength, CText.cStr_eq_self_iff.mp heq⟩
    · rw [CText.cStr_eq_self_iff.mpr hzero]

theorem Kept.prepare {config : PushConfig} {head : CHead} (h : Kept config head)
    (auth : Authorization) (env : PostEnv) (msg : PSvrMsg) :
    Kept config (head.prepare auth config env msg).2.1 := by
  rw [CHead.prepare, setTopic]
  by_cases hempty : config.topicBundleId = []
  · rw [if_pos hempty]
    exact h
  · rw [if_neg hempty]
    by_cases hlong : u8TopicLen < config.topicBundleId.length
    · rw [if_pos hlong]
      exact h
    · rw [if_neg hlong]
      have htopic : Kept config { head with
          sTopic := config.topicBundleId ++ head.sTopic.drop config.topicBundleId.length } := by
        refine ⟨fun hle => ?_, h.path⟩
        rw [← h.topic hle]
        exact List.drop_left
      have hid : Kept config (CHead.setApnsId { head with
          sTopic := config.topicBundleId ++ head.sTopic.drop config.topicBundleId.length }
          env.uuid) := ⟨htopic.topic, htopic.path⟩
      dsimp only
      split
      · exact htopic
      · exact hid.setDeviceToken _

section Prepare

variable {config : PushConfig} {head : CHead} {auth : Authorization} {env : PostEnv} {msg : PSvrMsg}

theorem prepare_of_topic_nil (h : config.topicBundleId = []) :
    (head.prepare auth config env msg).1 = .null := by
  rw [prepare, setTopic, if_pos h]

theorem prepare_of_long (h : config.topicBundleId ≠ [])
    (hlong : u8TopicLen < config.topicBundleId.length) :
    (head.prepare auth config env msg).1 = .undefined := by
  rw [prepare, setTopic, if_neg h, if_pos hlong]

theorem prepare_of_unauthorized (h : config.topicBundleId ≠ [])
    (hfits : config.topicBundleId.length ≤ u8TopicLen)
    (hauth : ¬ (auth.holds env.tm ∨ config.authorization env.tm ≠ none)) :
    (head.prepare auth config env msg).1 = .null := by
  obtain ⟨hholds, hnone⟩ := not_or.mp hauth
  rw [prepare, setTopic, if_neg h, if_neg (Nat.not_lt_of_le hfits), Authorization.set,
    if_neg hholds, not_not.mp hnone]

@[simp] theorem setDeviceToken_sTopic (token : List UInt8) :
    (head.setDeviceToken token).2.sTopic = head.sTopic := by
  unfold setDeviceToken
  split <;> rfl

theorem prepare_of_authorized (head : CHead) (msg : PSvrMsg) (h : config.topicBundleId ≠ [])
    (hfits : config.topicBundleId.length ≤ u8TopicLen)
    (hauth : auth.holds env.tm ∨ config.authorization env.tm ≠ none) :
    ∃ head' auth', head.prepare auth config env msg = (.data (), head', auth') ∧
      head'.sTopic = config.topicBundleId ++ head.sTopic.drop config.topicBundleId.length ∧
      head'.sDeviceToken = (head.setDeviceToken (CText.cStr msg.stotoken)).2.sDeviceToken := by
  have hset : ∃ auth', auth.set config env.tm = (true, auth') := by
    rw [Authorization.set]
    by_cases hholds : auth.holds env.tm
    · exact ⟨_, if_pos hholds⟩
    · obtain ⟨sAuthorization, hsome⟩ :=
        Option.ne_none_iff_exists'.mp (hauth.resolve_left hholds)
      rw [if_neg hholds, hsome]
      exact ⟨_, rfl⟩
  obtain ⟨auth', hset⟩ := hset
  rw [prepare, setTopic, if_neg h, if_neg (Nat.not_lt_of_le hfits)]
  dsimp only
  rw [hset]
  refine ⟨_, _, rfl, setDeviceToken_sTopic _, ?_⟩
  rw [setDeviceToken, setDeviceToken]
  split <;> rfl

theorem getNghttp2Nv_of_fits (auth : Authorization) (hfits : config.topicBundleId.length < u8TopicLen)
    (htopic : head.sTopic = config.topicBundleId ++
      List.replicate (u8TopicLen - config.topicBundleId.length) 0) :
    ∃ nva, head.getNghttp2Nv auth = .data nva ∧ nva.path = head.sDeviceToken ∧
      nva.apnsTopic = config.topicBundleId := by
  have hzero : 0 ∈ head.sTopic := by
    rw [htopic, List.mem_append, List.mem_replicate]
    exact .inr ⟨by omega, rfl⟩
  refine ⟨_, if_pos hzero, rfl, ?_⟩
  rw [htopic]
  exact CText.cStr_append_replicate config.noNul _

theorem getNghttp2Nv_of_full (hfull : config.topicBundleId.length = u8TopicLen)
    (htopic : head.sTopic = config.topicBundleId ++
      List.replicate (u8TopicLen - config.topicBundleId.length) 0) :
    head.getNghttp2Nv auth = .undefined := by
  rw [hfull, Nat.sub_self, List.replicate_zero, List.append_nil] at htopic
  exact if_neg (htopic ▸ config.noNul)

end Prepare

end CHead

namespace PostDataGenerator

variable {config : PushConfig} {g : PostDataGenerator} {env : PostEnv} {msg : PSvrMsg}

/-- Both headers are kept in order from one request to the next. -/
def Kept (config : PushConfig) (g : PostDataGenerator) : Prop :=
  g.voipHttp2.Kept config ∧ g.apns.Kept config

theorem Kept.generate (h : g.Kept config) (env : PostEnv) (msg : PSvrMsg)
    (client : PushClientType) : (g.generate config env msg client).2.Kept config := by
  have hvoip := h.1.prepare g.auth env msg
  have hapns := h.2.prepare g.auth env msg
  cases client with
  | voipHttp2 =>
    rw [PostDataGenerator.generate, generateVoipHttp2PostData]
    dsimp only
    split
    · exact ⟨hvoip, h.2⟩
    · exact ⟨hvoip, h.2⟩
    · split <;> exact ⟨hvoip, h.2⟩
  | apns =>
    rw [PostDataGenerator.generate, generateApnsPostData]
    dsimp only
    split
    · exact ⟨h.1, hapns⟩
    · exact ⟨h.1, hapns⟩
    · split
      · exact ⟨h.1, hapns⟩
      · split <;> exact ⟨h.1, hapns⟩

/-- The header of a client. -/
def header (g : PostDataGenerator) : PushClientType → CHead
  | .voipHttp2 => g.voipHttp2
  | .apns => g.apns

/-- The JSON of a client. -/
def json (env : PostEnv) (msg : PSvrMsg) : PushClientType → Option Json.Tree
  | .voipHttp2 => some (msg.iosPayLoadJson env.now)
  | .apns => msg.payLoadJson

section Generate

variable {client : PushClientType}

theorem generate_of_null
    (h : ((g.header client).prepare g.auth config env msg).1 = .null) :
    (g.generate config env msg client).1 = .null := by
  cases client with
  | voipHttp2 => simp_all [generate, generateVoipHttp2PostData, header]
  | apns => simp_all [generate, generateApnsPostData, header]

theorem generate_of_undefined
    (h : ((g.header client).prepare g.auth config env msg).1 = .undefined) :
    (g.generate config env msg client).1 = .undefined := by
  cases client with
  | voipHttp2 => simp_all [generate, generateVoipHttp2PostData, header]
  | apns => simp_all [generate, generateApnsPostData, header]

variable {head : CHead} {auth : Authorization} {tree : Json.Tree}

theorem generate_of_full
    (h : (g.header client).prepare g.auth config env msg = (.data (), head, auth))
    (hjson : json env msg client = some tree) (hnva : head.getNghttp2Nv auth = .undefined) :
    (g.generate config env msg client).1 = .undefined := by
  cases client with
  | voipHttp2 => simp_all [generate, generateVoipHttp2PostData, header]
  | apns => simp_all [generate, generateApnsPostData, header, json]

theorem generate_of_data {nva : Nghttparr}
    (h : (g.header client).prepare g.auth config env msg = (.data (), head, auth))
    (hjson : json env msg client = some tree) (hnva : head.getNghttp2Nv auth = .data nva) :
    (g.generate config env msg client).1 = .data (.make nva msg tree) := by
  cases client with
  | voipHttp2 => simp_all [generate, generateVoipHttp2PostData, header, json]
  | apns => simp_all [generate, generateApnsPostData, header, json]

theorem exists_json (env : PostEnv) (client : PushClientType) (hcomplete : msg.complete) :
    ∃ tree, json env msg client = some tree ∧ alert client tree = .string msg.sbody ∧
      tree.cut.NulFree := by
  cases client with
  | voipHttp2 =>
    exact ⟨_, rfl, msg.alert_iosPayLoadJson env.now, msg.nulFree_iosPayLoadJson env.now⟩
  | apns =>
    obtain ⟨tree, hjson, halert⟩ := PSvrMsg.alert_payLoadJson hcomplete.2.2
    exact ⟨tree, hjson, halert, PSvrMsg.nulFree_payLoadJson hjson⟩

theorem made_generate (g : PostDataGenerator) (config : PushConfig) (env : PostEnv) (msg : PSvrMsg)
    (client : PushClientType) : (g.generate config env msg client).2.made = g.made := by
  cases client with
  | voipHttp2 =>
    rw [PostDataGenerator.generate, generateVoipHttp2PostData]
    dsimp only
    split
    · rfl
    · rfl
    · split <;> rfl
  | apns =>
    rw [PostDataGenerator.generate, generateApnsPostData]
    dsimp only
    split
    · rfl
    · rfl
    · split
      · rfl
      · split <;> rfl

/-- A push is for its own device exactly if its step is good. -/
theorem Kept.own_iff (h : g.Kept config) (hcomplete : msg.complete) :
    Own config client msg (g.generate config env msg client).1 ↔
      g.Good config (.push client msg env) := by
  have hkept : (g.header client).Kept config := by
    cases client with
    | voipHttp2 => exact h.1
    | apns => exact h.2
  simp only [Good, hcomplete, true_implies]
  by_cases hempty : config.topicBundleId = []
  · simp [generate_of_null (CHead.prepare_of_topic_nil hempty), Own, hempty]
  by_cases hlong : u8TopicLen < config.topicBundleId.length
  · rw [generate_of_undefined (CHead.prepare_of_long hempty hlong)]
    exact iff_of_false id fun hgood => absurd (hgood hempty).1 (Nat.not_le_of_lt hlong)
  have hfits := Nat.le_of_not_lt hlong
  by_cases hauth : g.auth.holds env.tm ∨ config.authorization env.tm ≠ none
  · obtain ⟨head, auth, hprepare, htopic, hdevice⟩ :=
      CHead.prepare_of_authorized (g.header client) msg hempty hfits hauth
    obtain ⟨tree, hjson, halert, hcut⟩ := exists_json env client hcomplete
    rw [hkept.topic hfits] at htopic
    obtain hlt | hfull := Nat.lt_or_eq_of_le hfits
    · obtain ⟨nva, hnva, hpath, hnvaTopic⟩ := CHead.getNghttp2Nv_of_fits auth hlt htopic
      rw [generate_of_data hprepare hjson hnva]
      have hsaid := CApnsPostData.says_make_iff nva msg halert hcut
      have hpath_iff := hkept.path_eq_iff msg.stotoken
      rw [← hdevice, ← hpath] at hpath_iff
      constructor
      · rintro ⟨hown, -, hbody⟩ -
        obtain ⟨hlength, hzero⟩ := hpath_iff.mp hown
        exact ⟨hfits, fun _ => ⟨hlt, hlength, hzero, hsaid.mp hbody⟩⟩
      · intro hgood
        obtain ⟨-, hlength, hzero, hbody⟩ := (hgood hempty).2 hauth
        exact ⟨hpath_iff.mpr ⟨hlength, hzero⟩, hnvaTopic, hsaid.mpr hbody⟩
    · rw [generate_of_full hprepare hjson (CHead.getNghttp2Nv_of_full hfull htopic)]
      exact iff_of_false id fun hgood =>
        absurd ((hgood hempty).2 hauth).1 (Nat.not_lt_of_le hfull.ge)
  · rw [generate_of_null (CHead.prepare_of_unauthorized hempty hfits hauth)]
    exact iff_of_true trivial fun _ => ⟨hfits, fun hyes => absurd hyes hauth⟩

end Generate

/-- All that was made is for the devices of the messages: its own token, and a body that says the
message. -/
def Sound (config : PushConfig) (g : PostDataGenerator) : Prop :=
  ∀ made ∈ g.made, Own config made.1 made.2.1 made.2.2

theorem sound_step_iff {e : PushEvent} (h : g.Kept config ∧ g.Sound config) :
    ((g.step config e).Kept config ∧ (g.step config e).Sound config) ↔ g.Good config e := by
  cases e with
  | forbidden => exact iff_of_true h trivial
  | push client msg env =>
    rw [step]
    by_cases hcomplete : msg.complete
    · rw [if_pos hcomplete, ← h.1.own_iff hcomplete]
      have hkept := h.1.generate env msg client
      have hmade : (g.generate config env msg client).2.made = g.made := made_generate ..
      constructor
      · exact fun hsound => hsound.2 _ (List.mem_append_right _ List.mem_cons_self)
      · refine fun hown => ⟨hkept, fun made hmem => ?_⟩
        obtain hold | hnew := List.mem_append.mp hmem
        · exact h.2 made (hmade ▸ hold)
        · cases List.mem_singleton.mp hnew
          exact hown
    · rw [if_neg hcomplete]
      exact iff_of_true h fun hc => absurd hc hcomplete

theorem made_subset_foldl {events : List PushEvent} :
    g.made ⊆ (events.foldl (step config) g).made := by
  induction events generalizing g with
  | nil => exact List.Subset.refl _
  | cons e events ih =>
    refine List.Subset.trans ?_ ih
    cases e with
    | forbidden => exact List.Subset.refl _
    | push client msg env =>
      rw [step]
      split
      · rw [← made_generate g config env msg client]
        exact List.subset_append_left ..
      · exact List.Subset.refl _

theorem Kept.foldl (h : g.Kept config) (events : List PushEvent) :
    (events.foldl (step config) g).Kept config := by
  induction events generalizing g with
  | nil => exact h
  | cons e events ih =>
    refine ih ?_
    cases e with
    | forbidden => exact h
    | push client msg env =>
      rw [step]
      split
      · exact h.generate env msg client
      · exact h

theorem kept_start (config : PushConfig) : Kept config {} :=
  ⟨CHead.kept_start config, CHead.kept_start config⟩

/-- In each run the pushes are for their own devices exactly if its steps are good. -/
theorem own_device_iff (config : PushConfig) (events : List PushEvent) :
    (∀ made ∈ (events.foldl (step config) {}).made, Own config made.1 made.2.1 made.2.2) ↔
      ∀ pre e, pre ++ [e] <+: events → Good config (pre.foldl (step config) {}) e := by
  have hstart : Kept config {} ∧ Sound config {} := ⟨kept_start config, List.forall_mem_nil _⟩
  rw [← Run.foldl_inv_iff (fun g => g.Kept config ∧ g.Sound config) hstart
    fun _ _ => sound_step_iff]
  constructor
  · rintro hsound pre ⟨rest, rfl⟩
    refine ⟨(kept_start config).foldl pre, fun made hmem => hsound made ?_⟩
    rw [List.foldl_append]
    exact made_subset_foldl hmem
  · exact fun hinv => (hinv events List.prefix_rfl).2

/-- The settings without a file for them, and with a key. -/
def kimi : PushConfig where
  topicBundleId := CText.bytes "com.onlyy.kimi.voip"
  noNul := by decide
  authorization := fun _ => some (CText.bytes "bearer")

def pushTo (token body : List UInt8) : PSvrMsg where
  emsgtype := 0
  smsgid := CText.bytes "id"
  sfromid := []
  stoid := []
  stotoken := token
  sbody := body

/-- A message for a token of 64 bytes, and one for another device, with a token of 32 bytes. -/
def twoPushes : List PushEvent :=
  [.push .voipHttp2 (pushTo (List.replicate 64 97) [49]) ⟨1800, 0, []⟩,
    .push .voipHttp2 (pushTo (List.replicate 32 98) [50]) ⟨1801, 0, []⟩]

/-- The body of the second message goes to the device of the first. -/
theorem not_own_device : ∃ post,
    (.voipHttp2, pushTo (List.replicate 32 98) [50], .data post) ∈
      (twoPushes.foldl (step kimi) {}).made ∧
    post.nva.path = CText.bytes "/3/device/" ++ List.replicate 64 97 ∧
    ¬ Own kimi .voipHttp2 (pushTo (List.replicate 32 98) [50]) (.data post) :=
  ⟨_, List.mem_of_getElem? (i := 1) rfl, by decide, fun hown => absurd hown.1 (by decide)⟩

end PostDataGenerator

end ImServer
