import ImServer.Base.PduSetters
import ImServer.Base.ServerLink
import ImServer.Lib.Protobuf
import ImServer.Msg.RelationNotify

/-!
# The notify service

Web servers tell the notify server of changes by gRPC. Each request is copied to a message that is
sent to the server it is for, and answered (notifyserver/grpcnotifyservice.cpp, pdusender.cpp). The
message goes through a link to that server which is chosen at random among those that are connected
and registered (`GetAssocSvrLink` of base/serverlinkmgr.cpp, `SendPdu` of base/packet.cpp). Nothing
is locked between choosing the link and looking at it again.

The protocols of the requests and of the messages number the same fields alike. A request is a
message itself, of less than 2 GiB.
-/

namespace ImServer

open Protobuf

namespace CServerLinkMgr

/-- The link of an entry, if it can be used. -/
def validLink (m : CServerLinkMgr) (r : EntryRef) : Option SocketId :=
  (m.entries r).servConn.filter fun c => (m.links c).bConnect && (m.links c).bRegist

/-- `GetRandomLink`; the draws that do not hit a valid link are left out. -/
def getRandomLink (m : CServerLinkMgr) (rand : Nat) (service : AssocSvrInfo) : Option SocketId :=
  let valid := service.refs.filterMap m.validLink
  valid[rand % valid.length]?

def getAssocSvrLink (m : CServerLinkMgr) (rand : Nat) (serviceId : Int16) : Option SocketId :=
  (m.services.find? (·.serviceId = serviceId)).bind (m.getRandomLink rand)

end CServerLinkMgr

namespace GrpcServer

/-- The links when one of them is chosen, and when it is used. -/
structure Links where
  chosen : CServerLinkMgr
  used : CServerLinkMgr
  rand : Nat := 0

/-- What `SendPdu` returns, and the bytes that it passes to a link. -/
structure Send where
  ret : Int
  handed : Option (SocketId × List UInt8)

/-- `SendPdu` to a service. -/
def Links.sendPdu (links : Links) (serviceId : Int16) (pdu : CImPdu) : Exec Send := do
  match links.chosen.getAssocSvrLink links.rand serviceId with
  | none => return ⟨-1, none⟩
  | some c =>
    if (links.used.links c).bRegist then
      let pdu ← pdu.setSessionId (links.used.links c).sessionId
      let bytes ← pdu.sent
      return ⟨bytes.length, some (c, bytes)⟩
    else return ⟨-1, none⟩

/-- `CPduSender::sendReq`: the message and the command are put into a new PDU, which is sent to a
server of the service. -/
def sendReq (links : Links) (fields : List Field) (commandId : UInt16) (serviceId : Int16) :
    Exec Send := do
  let pdu ← ({} : CImPdu).setPBMsg (encode fields)
  let pdu ← pdu.setCommandId commandId
  links.sendPdu serviceId pdu

/-- The servers are known by numbers, the message server by this one. -/
def Imsvr.msg : Int16 := 2

def Imsvr.login : Int16 := 512

def Imsvr.channel : Int16 := 1024

def cmPhpLoginNotify : UInt16 := 0xa017

def svrGroupRelatinNotify : UInt16 := 0xa019

def svrFriendRelationNotify : UInt16 := 0xa021

def svrCommonMsgNotify : UInt16 := 0xa023

def svrRadioRelatinNotify : UInt16 := 0xa027

def svrRadioPushsetNotify : UInt16 := 0xa029

/-- The number of an enumeration is written with its sign extended to 64 bits. -/
def enumField (number : Nat) (n : Int32) : List Field := scalar number n.toInt64.toUInt64.toNat

structure CMPHPLoginNotify where
  userId : String
  deviceToken : String
  msgTime : UInt64
  loginType : Int32
  extend : String
  loginSubType : Int32

structure SVRRadioMsgNotify where
  radioId : String
  msgId : String
  msgTime : UInt64
  oprUserId : String
  mnpledUserId : List String
  content : String
  notifyType : Int32
  extend : String

structure SVRRadioPushSetNotify where
  msgId : String
  userId : String
  radioId : String
  notifyType : Int32
  status : UInt32
  msgTime : UInt64

/-- `SVRMSGGroupRelationNotify` on the wire. -/
def groupFields (msg : Msg.SVRMSGGroupRelationNotify) : List Field :=
  text 1 (utf8 msg.grpId) ++ text 2 (utf8 msg.msgId) ++ repeated 3 (msg.toIds.map utf8) ++
    scalar 4 msg.msgTime.toNat ++ text 5 (utf8 msg.oprUserId) ++
    repeated 6 (msg.mnpledUserId.map utf8) ++ text 7 (utf8 msg.content) ++
    enumField 8 msg.notifyType ++ text 9 (utf8 msg.operId) ++ text 10 (utf8 msg.extend)

def friendFields (msg : Msg.SVRMSGFriendRelationNotify) : List Field :=
  text 1 (utf8 msg.fromId) ++ text 2 (utf8 msg.toId) ++ text 3 (utf8 msg.msgId) ++
    text 4 (utf8 msg.memoName) ++ enumField 5 msg.notifyType ++ text 6 (utf8 msg.selfIntroduce) ++
    scalar 7 msg.msgTime.toNat ++ text 8 (utf8 msg.operId) ++ text 9 (utf8 msg.extend)

def commonFields (msg : Msg.SVRMSGCommonMsgNotify) : List Field :=
  text 1 (utf8 msg.fromId) ++ repeated 2 (msg.toIds.map utf8) ++ text 3 (utf8 msg.msgId) ++
    enumField 4 msg.notifyType ++ text 5 (utf8 msg.content) ++ scalar 6 msg.msgTime.toNat ++
    text 7 (utf8 msg.extend)

def CMPHPLoginNotify.fields (msg : CMPHPLoginNotify) : List Field :=
  text 1 (utf8 msg.userId) ++ text 2 (utf8 msg.deviceToken) ++ scalar 3 msg.msgTime.toNat ++
    enumField 4 msg.loginType ++ text 5 (utf8 msg.extend) ++ enumField 6 msg.loginSubType

def SVRRadioMsgNotify.fields (msg : SVRRadioMsgNotify) : List Field :=
  text 1 (utf8 msg.radioId) ++ text 2 (utf8 msg.msgId) ++ scalar 3 msg.msgTime.toNat ++
    text 4 (utf8 msg.oprUserId) ++ repeated 5 (msg.mnpledUserId.map utf8) ++
    text 6 (utf8 msg.content) ++ enumField 7 msg.notifyType ++ text 8 (utf8 msg.extend)

def SVRRadioPushSetNotify.fields (msg : SVRRadioPushSetNotify) : List Field :=
  text 1 (utf8 msg.msgId) ++ text 2 (utf8 msg.userId) ++ text 3 (utf8 msg.radioId) ++
    enumField 4 msg.notifyType ++ scalar 5 msg.status.toNat ++ scalar 6 msg.msgTime.toNat

structure GroupRelationNotify where
  grpId : String
  msgId : String
  toIds : List String
  msgTime : UInt64
  oprUserId : String
  mnpledUserId : List String
  content : String
  notifyType : Int32
  operId : String
  extend : String

structure FriendRelationNotify where
  fromId : String
  toId : String
  msgId : String
  memoName : String
  notifyType : Int32
  selfIntroduce : String
  msgTime : UInt64
  operId : String
  extend : String

structure LoginOperationNotify where
  userId : String
  deviceToken : String
  msgTime : UInt64
  loginType : Int32
  extend : String
  loginSubType : Int32

structure CommonMsgNotify where
  fromId : String
  toIds : List String
  msgId : String
  notifyType : Int32
  content : String
  msgTime : UInt64
  extend : String

structure RadioMsgNotify where
  radioId : String
  msgId : String
  msgTime : UInt64
  oprUserId : String
  mnpledUserId : List String
  content : String
  notifyType : Int32
  extend : String

structure RadioPushSetNotify where
  msgId : String
  userId : String
  radioId : String
  notifyType : Int32
  status : UInt32
  msgTime : UInt64

def GroupRelationNotify.fields (request : GroupRelationNotify) : List Field :=
  text 1 (utf8 request.grpId) ++ text 2 (utf8 request.msgId) ++ repeated 3 (request.toIds.map utf8) ++
    scalar 4 request.msgTime.toNat ++ text 5 (utf8 request.oprUserId) ++
    repeated 6 (request.mnpledUserId.map utf8) ++ text 7 (utf8 request.content) ++
    enumField 8 request.notifyType ++ text 9 (utf8 request.operId) ++ text 10 (utf8 request.extend)

def FriendRelationNotify.fields (request : FriendRelationNotify) : List Field :=
  text 1 (utf8 request.fromId) ++ text 2 (utf8 request.toId) ++ text 3 (utf8 request.msgId) ++
    text 4 (utf8 request.memoName) ++ enumField 5 request.notifyType ++
    text 6 (utf8 request.selfIntroduce) ++ scalar 7 request.msgTime.toNat ++
    text 8 (utf8 request.operId) ++ text 9 (utf8 request.extend)

def LoginOperationNotify.fields (request : LoginOperationNotify) : List Field :=
  text 1 (utf8 request.userId) ++ text 2 (utf8 request.deviceToken) ++
    scalar 3 request.msgTime.toNat ++ enumField 4 request.loginType ++
    text 5 (utf8 request.extend) ++ enumField 6 request.loginSubType

def CommonMsgNotify.fields (request : CommonMsgNotify) : List Field :=
  text 1 (utf8 request.fromId) ++ repeated 2 (request.toIds.map utf8) ++
    text 3 (utf8 request.msgId) ++ enumField 4 request.notifyType ++
    text 5 (utf8 request.content) ++ scalar 6 request.msgTime.toNat ++
    text 7 (utf8 request.extend)

def RadioMsgNotify.fields (request : RadioMsgNotify) : List Field :=
  text 1 (utf8 request.radioId) ++ text 2 (utf8 request.msgId) ++ scalar 3 request.msgTime.toNat ++
    text 4 (utf8 request.oprUserId) ++ repeated 5 (request.mnpledUserId.map utf8) ++
    text 6 (utf8 request.content) ++ enumField 7 request.notifyType ++
    text 8 (utf8 request.extend)

def RadioPushSetNotify.fields (request : RadioPushSetNotify) : List Field :=
  text 1 (utf8 request.msgId) ++ text 2 (utf8 request.userId) ++ text 3 (utf8 request.radioId) ++
    enumField 4 request.notifyType ++ scalar 5 request.status.toNat ++
    scalar 6 request.msgTime.toNat

inductive ExceptionCode where
  | noExp
  | expErr
  deriving DecidableEq, Repr

/-- The answers, which name the message or the user of the request. -/
structure Response where
  id : String
  msgTime : Nat
  expcode : ExceptionCode

structure Handled where
  send : Send
  response : Response

def GroupRelationNotify.svr (request : GroupRelationNotify) : Msg.SVRMSGGroupRelationNotify where
  grpId := request.grpId
  msgId := request.msgId
  msgTime := request.msgTime
  content := request.content
  notifyType := request.notifyType
  extend := request.extend
  oprUserId := request.oprUserId
  operId := request.operId
  mnpledUserId := request.mnpledUserId
  toIds := request.toIds

def FriendRelationNotify.svr (request : FriendRelationNotify) : Msg.SVRMSGFriendRelationNotify where
  fromId := request.fromId
  toId := request.toId
  msgTime := request.msgTime
  msgId := request.msgId
  memoName := request.memoName
  selfIntroduce := request.selfIntroduce
  extend := request.extend
  operId := request.operId
  notifyType := request.notifyType

def LoginOperationNotify.svr (request : LoginOperationNotify) : CMPHPLoginNotify where
  userId := request.userId
  msgTime := request.msgTime
  loginType := request.loginType
  deviceToken := request.deviceToken
  extend := request.extend
  loginSubType := request.loginSubType

/-- `extend` is not copied. -/
def CommonMsgNotify.svr (request : CommonMsgNotify) : Msg.SVRMSGCommonMsgNotify where
  fromId := request.fromId
  msgId := request.msgId
  content := request.content
  msgTime := request.msgTime
  notifyType := request.notifyType
  toIds := request.toIds

def RadioMsgNotify.svr (request : RadioMsgNotify) : SVRRadioMsgNotify where
  radioId := request.radioId
  msgId := request.msgId
  msgTime := request.msgTime
  content := request.content
  notifyType := request.notifyType
  extend := request.extend
  oprUserId := request.oprUserId
  mnpledUserId := request.mnpledUserId

def RadioPushSetNotify.svr (request : RadioPushSetNotify) : SVRRadioPushSetNotify where
  msgId := request.msgId
  userId := request.userId
  radioId := request.radioId
  notifyType := request.notifyType
  status := request.status
  msgTime := request.msgTime

section Handlers

variable (links : Links) (now : Nat)

def groupRelationNotify (request : GroupRelationNotify) : Exec Handled := do
  let send ← sendReq links (groupFields request.svr) svrGroupRelatinNotify Imsvr.msg
  return ⟨send, request.msgId, now, .noExp⟩

def friendRelationNotify (request : FriendRelationNotify) : Exec Handled := do
  let send ← sendReq links (friendFields request.svr) svrFriendRelationNotify Imsvr.msg
  return ⟨send, request.msgId, now, .noExp⟩

def loginOperationNotify (request : LoginOperationNotify) : Exec Handled := do
  let send ← sendReq links request.svr.fields cmPhpLoginNotify Imsvr.login
  return ⟨send, request.userId, now, .noExp⟩

def commonMsgNotify (request : CommonMsgNotify) : Exec Handled := do
  let send ← sendReq links (commonFields request.svr) svrCommonMsgNotify Imsvr.msg
  return ⟨send, request.msgId, now, .noExp⟩

def radioMsgNotify (request : RadioMsgNotify) : Exec Handled := do
  let send ← sendReq links request.svr.fields svrRadioRelatinNotify Imsvr.channel
  return ⟨send, request.msgId, now, .noExp⟩

def pushNewmsg : Int32 := 0

def pushHidemsgsoundon : Int32 := 1

def radioPushSetNotify (request : RadioPushSetNotify) : Exec Handled := do
  let send ←
    if pushNewmsg = request.notifyType ∨ pushHidemsgsoundon = request.notifyType then
      sendReq links request.svr.fields svrRadioPushsetNotify Imsvr.login
    else sendReq links request.svr.fields svrRadioPushsetNotify Imsvr.channel
  return ⟨send, request.msgId, now, .noExp⟩

end Handlers

inductive Request where
  | groupRelation (request : GroupRelationNotify)
  | friendRelation (request : FriendRelationNotify)
  | loginOperation (request : LoginOperationNotify)
  | commonMsg (request : CommonMsgNotify)
  | radioMsg (request : RadioMsgNotify)
  | radioPushSet (request : RadioPushSetNotify)

namespace Request

def handle (links : Links) (now : Nat) : Request → Exec Handled
  | groupRelation request => groupRelationNotify links now request
  | friendRelation request => friendRelationNotify links now request
  | loginOperation request => loginOperationNotify links now request
  | commonMsg request => commonMsgNotify links now request
  | radioMsg request => radioMsgNotify links now request
  | radioPushSet request => radioPushSetNotify links now request

/-- All fields of a request, those included that a handler leaves out of its message. -/
def fields : Request → List Field
  | groupRelation request => request.fields
  | friendRelation request => request.fields
  | loginOperation request => request.fields
  | commonMsg request => request.fields
  | radioMsg request => request.fields
  | radioPushSet request => request.fields

def commandId : Request → UInt16
  | groupRelation _ => svrGroupRelatinNotify
  | friendRelation _ => svrFriendRelationNotify
  | loginOperation _ => cmPhpLoginNotify
  | commonMsg _ => svrCommonMsgNotify
  | radioMsg _ => svrRadioRelatinNotify
  | radioPushSet _ => svrRadioPushsetNotify

/-- The server that a request is for. -/
def serviceId : Request → Int16
  | groupRelation _ | friendRelation _ | commonMsg _ => Imsvr.msg
  | loginOperation _ => Imsvr.login
  | radioMsg _ => Imsvr.channel
  | radioPushSet request =>
    if pushNewmsg = request.notifyType ∨ pushHidemsgsoundon = request.notifyType then Imsvr.login
    else Imsvr.channel

end Request

/-- What gRPC passes on: a request whose encoding has less than 2 GiB. -/
structure Incoming where
  request : Request
  fits : byteSize request.fields < 2 ^ 31

/-- A link to a server of the service that is registered when it is used. -/
def Links.IsRegistered (links : Links) (serviceId : Int16) (c : SocketId) : Prop :=
  (∃ service ∈ links.chosen.services, service.serviceId = serviceId ∧
    ∃ r ∈ service.refs, (links.chosen.entries r).servConn = some c) ∧
  (links.used.links c).bRegist = true

/-- A PDU that can be read and has all fields of the request is handed to such a link. -/
def Handed (links : Links) (request : Request) (send : Send) : Prop :=
  ∃ c bytes sessionId body, send.handed = some (c, bytes) ∧
    links.IsRegistered request.serviceId c ∧
    CImPdu.ReadsBack bytes request.commandId sessionId body ∧ decode body = some request.fields

/-- Nobody is told `NO_EXP` unless his request has been handed on, with all of its fields, to a
server of its service. -/
def AckSound (links : Links) (now : Nat) (request : Request) : Prop :=
  ∀ res, request.handle links now = .ok res → res.response.expcode = .noExp →
    Handed links request res.send

/-- The link that is chosen is registered when it is used. Between the two it may be lost. -/
def Links.Usable (links : Links) (serviceId : Int16) : Prop :=
  ∃ c, links.chosen.getAssocSvrLink links.rand serviceId = some c ∧
    (links.used.links c).bRegist = true

/-- Every field of the request is copied. Only the handler of common messages leaves one out. -/
def Request.Copied : Request → Prop
  | .commonMsg request => request.extend = ""
  | .groupRelation _ | .friendRelation _ | .loginOperation _ | .radioMsg _ | .radioPushSet _ => True

section Sending

variable {links : Links} {serviceId : Int16} {c : SocketId}

theorem validLink_eq_some {m : CServerLinkMgr} {r : EntryRef} (h : m.validLink r = some c) :
    (m.entries r).servConn = some c := (Option.filter_eq_some_iff.mp h).1

theorem isRegistered_of_chosen
    (h : links.chosen.getAssocSvrLink links.rand serviceId = some c)
    (hregist : (links.used.links c).bRegist = true) : links.IsRegistered serviceId c := by
  obtain ⟨service, hservice, hrandom⟩ := Option.bind_eq_some_iff.mp h
  obtain ⟨r, hr, hvalid⟩ := List.mem_filterMap.mp (List.mem_of_getElem? hrandom)
  have hmem := List.mem_of_find?_eq_some hservice
  refine ⟨⟨service, hmem, ?_, r, hr, validLink_eq_some hvalid⟩, hregist⟩
  simpa using List.find?_some hservice

/-- Whatever can be serialised is sent if there is a link, though maybe not as a whole. -/
theorem sendReq_spec {fields : List Field} (hsize : byteSize fields < 2 ^ 31) (commandId : UInt16) :
    ∃ send, sendReq links fields commandId serviceId = .ok send ∧
      (∀ c bytes, send.handed = some (c, bytes) →
        (links.chosen.getAssocSvrLink links.rand serviceId = some c ∧
          (links.used.links c).bRegist = true) ∧
        bytes.length < 2 ^ 16 ∧ ∃ more, bytes.drop imPduHeaderLen ++ more = encode fields) ∧
      (links.Usable serviceId → byteSize fields ≤ CImPdu.maxBody →
        ∃ c bytes sessionId, send.handed = some (c, bytes) ∧
          CImPdu.ReadsBack bytes commandId sessionId (encode fields)) := by
  obtain ⟨p, hp, hholds, -⟩ := CImPdu.setPBMsg_lays_out CImPdu.settable_fresh.1 hsize
  obtain ⟨q, hq, hholds, hqheader⟩ := hholds.setCommandId commandId
  have hsend : sendReq links fields commandId serviceId = links.sendPdu serviceId q := by
    simp only [sendReq, hp, Exec.ok_bind, hq]
  rw [hsend, Links.sendPdu]
  cases hchosen : links.chosen.getAssocSvrLink links.rand serviceId with
  | none =>
    refine ⟨⟨-1, none⟩, rfl, fun c bytes h => ?_, ?_⟩
    · cases h
    · rintro ⟨c, hc, -⟩
      rw [hchosen] at hc
      cases hc
  | some c =>
    cases hregist : (links.used.links c).bRegist with
    | false =>
      refine ⟨⟨-1, none⟩, ?_, fun c bytes h => ?_, ?_⟩
      · simp only [hregist, Bool.false_eq_true, if_false, Exec.pure_eq]
      · cases h
      · rintro ⟨c', hc', hregist'⟩
        obtain rfl := Option.some.inj (hchosen.symm.trans hc')
        rw [hregist] at hregist'
        cases hregist'
    | true =>
      obtain ⟨r, hr, hholds, hrheader⟩ := hholds.setSessionId (links.used.links c).sessionId
      obtain ⟨h, hbytes, hshort⟩ := hholds.sent_eq
      obtain ⟨sent, hsent⟩ : ∃ sent, sent = (h.encode ++ encode fields).take r.getLength :=
        ⟨_, rfl⟩
      rw [← hsent] at hbytes
      refine ⟨⟨sent.length, some (c, sent)⟩, ?_, ?_, ?_⟩
      · simp only [hregist, if_true, hr, hbytes, Exec.ok_bind, Exec.pure_eq]
      · rintro c' bytes hhanded
        obtain ⟨rfl, rfl⟩ := Prod.mk.inj (Option.some.inj hhanded)
        refine ⟨⟨rfl, hregist⟩, ?_, (encode fields).drop (r.getLength - imPduHeaderLen), ?_⟩
        · rw [hsent, List.length_take]
          omega
        · rw [hsent, List.drop_take, List.drop_left' (PduHeader.length_encode h),
            List.take_append_drop]
      · intro _ hfits
        obtain ⟨bytes, hbytes', hread⟩ := hholds.readsBack hfits
        obtain rfl := Except.ok.inj (hbytes.symm.trans hbytes')
        have hcmd : r.header.cmdId = commandId := by rw [hrheader, hqheader]
        rw [hcmd] at hread
        exact ⟨c, _, _, rfl, hread⟩

end Sending

namespace Request

/-- The fields of the message that is sent for a request. -/
def svrFields : Request → List Field
  | groupRelation request => groupFields request.svr
  | friendRelation request => friendFields request.svr
  | loginOperation request => request.svr.fields
  | commonMsg request => commonFields request.svr
  | radioMsg request => request.svr.fields
  | radioPushSet request => request.svr.fields

theorem handle_eq (links : Links) (now : Nat) (request : Request) :
    ∃ id, request.handle links now = do
      let send ← sendReq links request.svrFields request.commandId request.serviceId
      return ⟨send, id, now, .noExp⟩ := by
  cases request with
  | groupRelation request => exact ⟨request.msgId, rfl⟩
  | friendRelation request => exact ⟨request.msgId, rfl⟩
  | loginOperation request => exact ⟨request.userId, rfl⟩
  | commonMsg request => exact ⟨request.msgId, rfl⟩
  | radioMsg request => exact ⟨request.msgId, rfl⟩
  | radioPushSet request =>
    refine ⟨request.msgId, ?_⟩
    simp only [handle, radioPushSetNotify, serviceId]
    split <;> rfl

theorem text_append_injective {fields : List Field} {number : Nat} {s : String} :
    fields ++ text number [] = fields ++ text number (utf8 s) ↔ s = "" := by
  rw [List.append_cancel_left_eq, text, text, if_pos rfl]
  split
  · next hempty => exact ⟨fun _ => utf8_eq_nil.mp hempty, fun _ => rfl⟩
  · next hsome =>
    constructor
    · intro h
      cases h
    · exact fun h => absurd (utf8_eq_nil.mpr h) hsome

theorem svrFields_prefix (request : Request) : request.svrFields <+: request.fields := by
  cases request with
  | commonMsg request =>
    refine ⟨text 7 (utf8 request.extend), ?_⟩
    exact congrArg (· ++ text 7 (utf8 request.extend)) (List.append_nil _)
  | groupRelation request => exact List.prefix_refl _
  | friendRelation request => exact List.prefix_refl _
  | loginOperation request => exact List.prefix_refl _
  | radioMsg request => exact List.prefix_refl _
  | radioPushSet request => exact List.prefix_refl _

theorem svrFields_eq_iff (request : Request) :
    request.svrFields = request.fields ↔ request.Copied := by
  cases request with
  | commonMsg request => exact text_append_injective
  | groupRelation request => exact iff_of_true rfl trivial
  | friendRelation request => exact iff_of_true rfl trivial
  | loginOperation request => exact iff_of_true rfl trivial
  | radioMsg request => exact iff_of_true rfl trivial
  | radioPushSet request => exact iff_of_true rfl trivial

theorem byteSize_svrFields_le (request : Request) :
    byteSize request.svrFields ≤ byteSize request.fields := by
  obtain ⟨more, hmore⟩ := request.svrFields_prefix
  rw [← hmore, byteSize_append]
  exact Nat.le_add_right _ _

theorem whole_of_decode {request : Request} {body more : List UInt8}
    (hbody : decode body = some request.fields) (hmore : body ++ more = encode request.svrFields) :
    body = encode request.svrFields ∧ request.svrFields = request.fields := by
  have hall : decode (body ++ more) = some request.svrFields := by
    rw [hmore]
    exact decode_encode _
  have hle := request.svrFields_prefix.length_le
  obtain rfl : more = [] := by
    by_contra hne
    exact absurd (length_lt_of_decode hbody hne hall) (Nat.not_lt.mpr hle)
  rw [List.append_nil] at hmore hall
  exact ⟨hmore, Option.some.inj (hall.symm.trans hbody)⟩

end Request

/-- Every request is answered `NO_EXP`; what is handed on are the first bytes of its message. -/
theorem handle_spec (links : Links) (now : Nat) (incoming : Incoming) :
    ∃ send id, incoming.request.handle links now = .ok ⟨send, id, now, .noExp⟩ ∧
      (∀ c bytes, send.handed = some (c, bytes) →
        (links.chosen.getAssocSvrLink links.rand incoming.request.serviceId = some c ∧
          (links.used.links c).bRegist = true) ∧
        bytes.length < 2 ^ 16 ∧
          ∃ more, bytes.drop imPduHeaderLen ++ more = encode incoming.request.svrFields) ∧
      (links.Usable incoming.request.serviceId →
        byteSize incoming.request.svrFields ≤ CImPdu.maxBody →
          ∃ c bytes sessionId, send.handed = some (c, bytes) ∧
            CImPdu.ReadsBack bytes incoming.request.commandId sessionId
              (encode incoming.request.svrFields)) := by
  have hsize : byteSize incoming.request.svrFields < 2 ^ 31 :=
    Nat.lt_of_le_of_lt incoming.request.byteSize_svrFields_le incoming.fits
  obtain ⟨send, hsend, hspec⟩ :=
    @sendReq_spec links incoming.request.serviceId _ hsize incoming.request.commandId
  obtain ⟨id, hhandle⟩ := incoming.request.handle_eq links now
  rw [hsend] at hhandle
  exact ⟨send, id, hhandle, hspec⟩

/-- An answer is right exactly if a registered link is found and the message has all fields and fits
into a PDU. -/
theorem ackSound_iff (links : Links) (now : Nat) (incoming : Incoming) :
    AckSound links now incoming.request ↔
      links.Usable incoming.request.serviceId ∧
        byteSize incoming.request.fields ≤ CImPdu.maxBody ∧ incoming.request.Copied := by
  obtain ⟨send, id, hhandle, hhanded, hwhole⟩ := handle_spec links now incoming
  obtain ⟨request, hfits⟩ := incoming
  constructor
  · intro h
    obtain ⟨c, bytes, sessionId, body, hlink, -, hread, hbody⟩ := h _ hhandle rfl
    obtain ⟨⟨hchosen, hregist⟩, hshort, more, hmore⟩ := hhanded c bytes hlink
    rw [← hread.body_eq hshort] at hmore
    obtain ⟨hall, hfields⟩ := Request.whole_of_decode hbody hmore
    refine ⟨⟨c, hchosen, hregist⟩, ?_, request.svrFields_eq_iff.mp hfields⟩
    have hlength : byteSize request.fields = (bytes.drop imPduHeaderLen).length := by
      rw [← hread.body_eq hshort, hall, hfields]
      rfl
    have hheader : imPduHeaderLen = 20 := rfl
    have hmax : CImPdu.maxBody = 65515 := rfl
    rw [hlength, List.length_drop]
    omega
  · rintro ⟨husable, hbody, hcopied⟩ res hres -
    obtain rfl := Except.ok.inj (hhandle.symm.trans hres)
    have hfields := request.svrFields_eq_iff.mpr hcopied
    obtain ⟨c, bytes, sessionId, hlink, hread⟩ := hwhole husable (hfields ▸ hbody)
    obtain ⟨⟨hchosen, hregist⟩, -⟩ := hhanded c bytes hlink
    refine ⟨c, bytes, sessionId, _, hlink, isRegistered_of_chosen hchosen hregist, hread, ?_⟩
    rw [hfields]
    exact decode_encode _

/-- A request about the user `ann`, with nothing else in it. -/
def annLogsIn : Incoming where
  request := .loginOperation ⟨"ann", "", 0, 0, "", 0⟩
  fits := by
    have hfields : (Request.loginOperation ⟨"ann", "", 0, 0, "", 0⟩).fields =
        text 1 (utf8 "ann") := by decide
    have hsize : (utf8 "ann").length = 3 := by decide
    rw [hfields, byteSize_text, hsize, lengthSize, varint_of_lt (by decide), varint_of_lt (by decide)]
    decide

/-- No server of the service is known. -/
theorem not_ackSound :
    ∃ (links : Links) (now : Nat) (incoming : Incoming), ¬ AckSound links now incoming.request := by
  refine ⟨⟨{}, {}, 0⟩, 0, annLogsIn, fun h => ?_⟩
  obtain ⟨send, id, hhandle, hhanded, -⟩ := handle_spec ⟨{}, {}, 0⟩ 0 annLogsIn
  obtain ⟨c, bytes, -, -, hlink, -⟩ := h _ hhandle rfl
  obtain ⟨⟨hchosen, -⟩, -⟩ := hhanded c bytes hlink
  cases hchosen

end GrpcServer

end ImServer
