import ImServer.Base.JsonWriter
import ImServer.Lib.FormUrlencoded
import Mathlib.Algebra.Order.Ring.Nat
import Mathlib.Data.List.TakeWhile

/-!
# The forms of the Android push

The texts that are posted to Huawei (apush/hw_handle_protobuf.cpp) and to Xiaomi
(apush/mi_protoc.cpp). They are printed into arrays of a fixed size; what does not fit is written
past the array, unless the function has refused before.

For Huawei the values are encoded, apart from the access token, and the form ends with a separator
and an end of line, which is a field of its own. The size is checked before the values are encoded.
For Xiaomi nothing is encoded and nothing is checked.
-/

namespace ImServer

open FormUrlencoded (Field Entry Plain Ordinary)
open CText (bytes cStr)

/-- Why there is no text for a message: the code refuses it, or it writes past an array. -/
inductive NoText where
  /-- An empty text is returned. -/
  | refused
  /-- A `sprintf` has written past its array. -/
  | overrun
deriving DecidableEq

abbrev Build := Except NoText

/-- `sprintf` into an array of that size, the NUL at the end included. What is printed has no NUL
itself, so the array read as a string is the printed text. -/
def sprintf (size : ℕ) (printed : List UInt8) : Build (List UInt8) :=
  if printed.length < size then .ok printed else .error .overrun

/-- `%d` and `%u`. -/
def decimal (n : ℤ) : List UInt8 := bytes (toString n)

/-- `%04d` and `%02d` of a number that is not negative. -/
def decimalPadded (width n : ℕ) : List UInt8 :=
  List.replicate (width - (bytes (toString n)).length) 48 ++ bytes (toString n)

def isAlnum (c : UInt8) : Bool :=
  (48 ≤ c && c ≤ 57) || (65 ≤ c && c ≤ 90) || (97 ≤ c && c ≤ 122)

/-- What `rfc1738_encode` makes of a byte: letters and digits stay, a blank becomes a plus sign. -/
def rfc1738EncodeByte (c : UInt8) : List UInt8 :=
  if isAlnum c then [c]
  else if c = 32 then [43]
  else [37, Json.hexDigit (c / 16), Json.hexDigit (c % 16)]

def rfc1738Encode (src : List UInt8) : List UInt8 := src.flatMap rfc1738EncodeByte

structure ANDPushMsg where
  eMsgType : Int32
  sTitle : List UInt8
  sBody : List UInt8
  sToId : List UInt8
  sDiveceToken : List UInt8

/-- A member that is only there if it is not empty. -/
def setText (tree : Json.Tree) (key : String) (text : List UInt8) : Json.Tree :=
  if text = [] then tree else tree.set key (.string text)

structure CHwAppOpenJson where
  stype : List UInt8 := []
  sid : List UInt8 := []
  sname : List UInt8 := []
  surl : List UInt8 := []
  sextra : List UInt8 := []

/-- `GetJson`. The members are C strings. -/
def CHwAppOpenJson.getJson (json : CHwAppOpenJson) : List UInt8 :=
  if json.stype = [] then []
  else
    let jroot := Json.Tree.null.set "notify_type" (.string (cStr json.stype))
    let jroot := if json.sid = [] then jroot else jroot.set "id" (.string (cStr json.sid))
    let jroot := if json.sname = [] then jroot else jroot.set "name" (.string (cStr json.sname))
    let jroot := if json.surl = [] then jroot else jroot.set "url" (.string (cStr json.surl))
    let jroot := if json.sextra = [] then jroot else jroot.set "extra" (.string (cStr json.sextra))
    Json.toStyledString jroot

structure CHwPayloadJson where
  uMsgType : ℤ := 0
  uActionType : ℤ := 0
  strContent : List UInt8 := []
  strTitle : List UInt8 := []
  strIntent : List UInt8 := []
  strUrl : List UInt8 := []
  strAppPkgName : List UInt8 := []
  strBiTag : List UInt8 := []
  strIcon : List UInt8 := []

namespace CHwPayloadJson

variable (json : CHwPayloadJson)

def msgBody : Option Json.Tree :=
  if json.strContent = [] ∨ json.strTitle = [] then none
  else some ((Json.Tree.null.set "content" (.string json.strContent)).set "title"
    (.string json.strTitle))

def extMsg : Option Json.Tree :=
  if json.strBiTag ≠ [] then some (Json.Tree.null.set "biTag" (.string json.strBiTag))
  else if json.strIcon ≠ [] then some (Json.Tree.null.set "icon" (.string json.strIcon))
  else none

/-- The parameter of the action: the intent, the address or the package that is opened, by the type
of the action. -/
def actionText : Option (String × List UInt8) :=
  if json.uActionType = 1 then some ("intent", json.strIntent)
  else if json.uActionType = 2 then some ("url", json.strUrl)
  else if json.uActionType = 3 then some ("appPkgName", json.strAppPkgName)
  else none

def actionParam : Option Json.Tree := do
  let (key, text) ← json.actionText
  if text = [] then none
  else
    let jparam := Json.Tree.null.set key (.string text)
    some ((Json.Tree.null.set "type" (.int json.uActionType)).set "param" jparam)

def jmsg : Option Json.Tree := do
  let jmsg := Json.Tree.null.set "type" (.int json.uMsgType)
  if json.uMsgType = 1 then
    let jbody ← json.msgBody
    some (jmsg.set "body" jbody)
  else if json.uMsgType = 3 then
    let jaction ← json.actionParam
    let jmsg := (jmsg.set "action" jaction).set "type" (.int json.uMsgType)
    let jbody ← json.msgBody
    some (jmsg.set "body" jbody)
  else none

def getJson : List UInt8 :=
  match json.jmsg with
  | none => []
  | some jmsg =>
    let jhps := match json.extMsg with
      | none => Json.Tree.null
      | some jext => Json.Tree.null.set "ext" jext
    Json.toStyledString (Json.Tree.null.set "hps" (jhps.set "msg" jmsg))

end CHwPayloadJson

/-- The broken-down time, with the year and the month as they are printed. -/
structure Tm where
  year : ℕ
  mon : ℕ
  mday : ℕ
  hour : ℕ
  min : ℕ
  year_lt : year < 10 ^ 4
  mon_le : mon ≤ 12
  mday_le : mday ≤ 31
  hour_lt : hour < 24
  min_lt : min < 60

/-- What `time` returns, and `gmtime_r` for the time 29100 seconds later. -/
structure Clock where
  time : ℤ
  gmtime : Option Tm

def getExpireTime (clock : Clock) : Build (List UInt8) :=
  if clock.time ≤ 0 then .error .refused
  else
    match clock.gmtime with
    | none => .error .refused
    | some tm => do
      let stime ← sprintf 16 (decimalPadded 4 tm.year ++ 45 :: decimalPadded 2 tm.mon ++
        45 :: decimalPadded 2 tm.mday)
      let sectime ← sprintf 8 (decimalPadded 2 tm.hour ++ 58 :: decimalPadded 2 tm.min)
      .ok (rfc1738Encode stime ++ bytes "T" ++ rfc1738Encode sectime)

def appIntentSize : ℕ := 512

def maxContentSize : ℕ := 201400

/-- `app_data_intent` with its argument. With `%s` it is the format itself. -/
def appDataIntent (data : List UInt8) : List UInt8 :=
  bytes "intent:#Intent;launchFlags=0x10000000;" ++
    bytes "component=com.onlyy.kimi/com.mosant.mosantim.module.home.SplashActivity;S.data=" ++
    data ++ bytes ";end"

def postPushContectStr (accessToken nspTs deviceTokenList payload expireTime : List UInt8) :
    List UInt8 :=
  bytes "access_token=" ++ accessToken ++
    bytes "&nsp_svc=openpush.message.api.send&nsp_ts=" ++ nspTs ++
    bytes "&device_token_list=" ++ deviceTokenList ++ bytes "&payload=" ++ payload ++
    bytes "&expire_time=" ++ expireTime ++ bytes "&\r\n\n"

/-- The size of a format without its arguments. -/
def appDataIntentSize : ℕ := (appDataIntent (bytes "%s")).length

def postPushContectStrSize : ℕ :=
  (postPushContectStr (bytes "%s") (bytes "%s") (bytes "%s") (bytes "%s") (bytes "%s")).length

/-- `_PraseData`: the parts of the form, which are checked for being empty or too long before it is
printed. -/
def praseData (clock : Clock) (pbMsg : ANDPushMsg) (pushSvrToken : List UInt8) :
    Build (List UInt8) := do
  let appType ← sprintf 12 (decimal pbMsg.eMsgType.toInt)
  let listDeviceToken := rfc1738Encode (bytes "[\"" ++ pbMsg.sDiveceToken ++ bytes "\"]")
  let appIntentApend := CHwAppOpenJson.getJson { stype := appType, sid := pbMsg.sToId }
  if appIntentApend = [] then .error .refused
  else if appIntentSize < appIntentApend.length + appDataIntentSize then .error .refused
  else
    let appIntent ← sprintf appIntentSize (appDataIntent (cStr appIntentApend))
    let sPayload := CHwPayloadJson.getJson
      { uMsgType := 3
        uActionType := 1
        strIntent := appIntent
        strTitle := pbMsg.sTitle
        strContent := pbMsg.sBody }
    if sPayload = [] then .error .refused
    else
      let expireTime ← getExpireTime clock
      let nspTs ← sprintf 16 (decimal (clock.time % 2 ^ 32))
      if maxContentSize < postPushContectStrSize + pushSvrToken.length + nspTs.length +
          listDeviceToken.length + sPayload.length + expireTime.length then .error .refused
      else
        sprintf maxContentSize (postPushContectStr (cStr pushSvrToken) (cStr nspTs)
          (cStr listDeviceToken) (cStr (rfc1738Encode sPayload)) (cStr expireTime))

/-- `HwGetHttpPostData`. The buffer is that of a message, and it is empty only if the message is,
which is refused for its title too. -/
def hwGetHttpPostData (clock : Clock) (pbMsg : ANDPushMsg) (pushSvrToken : List UInt8) :
    Build (List UInt8) :=
  if pushSvrToken = [] then .error .refused else praseData clock pbMsg pushSvrToken

def maxVerAppidSize : ℕ := 64

def verAppid (ver appId : List UInt8) : List UInt8 :=
  bytes "\x7b\"ver\":\"" ++ ver ++ bytes "\", \"appId\":\"" ++ appId ++ bytes "\"\x7d"

def maxHeadSize : ℕ := 512

def postPushHeadStr (nspCtx : List UInt8) : List UInt8 :=
  bytes "POST /pushsend.do?nsp_ctx=" ++ nspCtx ++ bytes " HTTP/1.1\r\n" ++
    bytes "Host: api.push.hicloud.com\r\n" ++ bytes "Connection: keep-alive\r\n" ++
    bytes "Content-Type: application/x-www-form-urlencoded\r\n" ++ bytes "Content-Length: "

def postRequestUrl (nspCtx : List UInt8) : List UInt8 :=
  bytes "https://api.push.hicloud.com/pushsend.do?nsp_ctx=" ++ nspCtx

/-- `CHwPostSendBuf::Init`, which keeps the head and the URL. -/
def hwInit (sVer sAppId : List UInt8) : Build (List UInt8 × List UInt8) :=
  if maxVerAppidSize < (verAppid (bytes "%s") (bytes "%s")).length + (cStr sVer).length +
      (cStr sAppId).length + 1 then .error .refused
  else do
    let strVerAppId ← sprintf maxVerAppidSize (verAppid (cStr sVer) (cStr sAppId))
    let shead ← sprintf maxHeadSize (postPushHeadStr (cStr (rfc1738Encode strVerAppId)))
    let strurl ← sprintf maxHeadSize (postRequestUrl (cStr (rfc1738Encode strVerAppId)))
    .ok (shead, strurl)

structure CAppOpenJson where
  utype : ℤ
  sid : List UInt8 := []
  sname : List UInt8 := []
  surl : List UInt8 := []
  sextra : List UInt8 := []

def CAppOpenJson.getJsonValue (json : CAppOpenJson) : Json.Tree :=
  let jroot := Json.Tree.null.set "notify_type" (.int json.utype)
  let jroot := setText jroot "id" json.sid
  let jroot := setText jroot "name" json.sname
  let jroot := setText jroot "url" json.surl
  setText jroot "extra" json.sextra

def miPushPostFormData (token notifyId title description payload : List UInt8) : List UInt8 :=
  bytes "alias=" ++ token ++
    bytes "&restricted_package_name=com.onlyy.kimi&pass_through=0&notify_type=7&notify_id=" ++
    notifyId ++ bytes "&title=" ++ title ++ bytes "&description=" ++ description ++
    bytes "&payload=" ++ payload ++ bytes "&extra.notify_effect=1"

/-- The form for everything but calls, which is the same one. -/
def miPushCommonPostFormData (token notifyId title description payload : List UInt8) :
    List UInt8 :=
  bytes "alias=" ++ token ++
    bytes "&restricted_package_name=com.onlyy.kimi&pass_through=0&notify_type=7&notify_id=" ++
    notifyId ++ bytes "&title=" ++ title ++ bytes "&description=" ++ description ++
    bytes "&payload=" ++ payload ++ bytes "&extra.notify_effect=1"

def notifyIdMax : ℕ := 1000000000

/-- What `GetHttpPostData` sends for a message, as JSON. -/
def miPayload (pbMsg : ANDPushMsg) : List UInt8 :=
  Json.toStyledString
    (CAppOpenJson.getJsonValue { utype := pbMsg.eMsgType.toInt, sid := pbMsg.sToId })

/-- `GetHttpPostData` of the message, with the static `notifyId` before and after it. -/
def miGetHttpPostData (pbMsg : ANDPushMsg) (phoneCall : Bool) (notifyId : ℕ) :
    Build (List UInt8) × ℕ :=
  let form := if phoneCall then miPushPostFormData else miPushCommonPostFormData
  let strSendBody := sprintf 4096 (form (cStr pbMsg.sDiveceToken) (decimal notifyId)
    (cStr pbMsg.sTitle) (cStr pbMsg.sBody) (cStr (miPayload pbMsg)))
  (strSendBody, (if notifyIdMax < notifyId then 0 else notifyId) + 1)

/-- What the application is started with: the type of the message, and the id unless it is empty. -/
def hwData (pbMsg : ANDPushMsg) : Json.Tree :=
  setText (Json.Tree.null.set "notify_type" (.string (decimal pbMsg.eMsgType.toInt))) "id"
    pbMsg.sToId

/-- The message that Huawei shows, with the action that opens the application by an intent. -/
def hwMessage (intent : List UInt8) (pbMsg : ANDPushMsg) : Json.Tree :=
  let action := (Json.Tree.null.set "type" (.int 1)).set "param"
    (Json.Tree.null.set "intent" (.string intent))
  let body := (Json.Tree.null.set "content" (.string pbMsg.sBody)).set "title"
    (.string pbMsg.sTitle)
  let msg := ((Json.Tree.null.set "type" (.int 3)).set "action" action).set "body" body
  Json.Tree.null.set "hps" (Json.Tree.null.set "msg" msg)

def Tm.expireTime (tm : Tm) : List UInt8 :=
  decimalPadded 4 tm.year ++ 45 :: decimalPadded 2 tm.mon ++ 45 :: decimalPadded 2 tm.mday ++
    bytes "T" ++ decimalPadded 2 tm.hour ++ 58 :: decimalPadded 2 tm.min

def deviceTokenList (pbMsg : ANDPushMsg) : List UInt8 :=
  bytes "[\"" ++ pbMsg.sDiveceToken ++ bytes "\"]"

def hwFields (clock : Clock) (tm : Tm) (pbMsg : ANDPushMsg) (pushSvrToken payload : List UInt8) :
    List Field :=
  [(bytes "access_token", pushSvrToken),
    (bytes "nsp_svc", bytes "openpush.message.api.send"),
    (bytes "nsp_ts", decimal (clock.time % 2 ^ 32)),
    (bytes "device_token_list", deviceTokenList pbMsg),
    (bytes "payload", payload),
    (bytes "expire_time", tm.expireTime)]

def miFields (pbMsg : ANDPushMsg) (notifyId : ℕ) (payload : List UInt8) : List Field :=
  [(bytes "alias", pbMsg.sDiveceToken),
    (bytes "restricted_package_name", bytes "com.onlyy.kimi"),
    (bytes "pass_through", bytes "0"),
    (bytes "notify_type", bytes "7"),
    (bytes "notify_id", decimal notifyId),
    (bytes "title", pbMsg.sTitle),
    (bytes "description", pbMsg.sBody),
    (bytes "payload", payload),
    (bytes "extra.notify_effect", bytes "1")]

/-- The form for Huawei is the message's: nothing is written past an array, and the fields are read
as they were meant. -/
structure HwSound (clock : Clock) (pbMsg : ANDPushMsg) (pushSvrToken : List UInt8) : Prop where
  fits : hwGetHttpPostData clock pbMsg pushSvrToken ≠ .error .overrun
  fields : ∀ text, hwGetHttpPostData clock pbMsg pushSvrToken = .ok text →
    ∃ tm data payload, clock.gmtime = some tm ∧ Json.Says data (hwData pbMsg) ∧
      Json.Says payload (hwMessage (appDataIntent data) pbMsg) ∧
      FormUrlencoded.parse text = hwFields clock tm pbMsg pushSvrToken payload

/-- The form for Xiaomi is the message's: nothing is written past an array, and the fields are read
as they were meant. -/
structure MiSound (pbMsg : ANDPushMsg) (phoneCall : Bool) (notifyId : ℕ) : Prop where
  fits : (miGetHttpPostData pbMsg phoneCall notifyId).1 ≠ .error .overrun
  fields : ∀ text, (miGetHttpPostData pbMsg phoneCall notifyId).1 = .ok text →
    ∃ payload, Json.Says payload (CAppOpenJson.getJsonValue
        { utype := pbMsg.eMsgType.toInt, sid := pbMsg.sToId }) ∧
      FormUrlencoded.parse text = miFields pbMsg notifyId payload

theorem sprintf_of_lt {size : ℕ} {printed : List UInt8} (h : printed.length < size) :
    sprintf size printed = .ok printed := if_pos h

theorem length_decimal_natCast (n : ℕ) :
    (decimal n).length = (Nat.toDigits 10 n).length := CText.length_bytes_toString n

theorem length_decimal_natCast_le {n k : ℕ} (hk : 0 < k) (hn : n < 10 ^ k) :
    (decimal n).length ≤ k := by
  rw [length_decimal_natCast]
  exact (Nat.length_toDigits_le_iff (by decide) hk).mpr hn

theorem decimal_negSucc (n : ℕ) : decimal (Int.negSucc n) = 45 :: decimal (n + 1 : ℕ) :=
  CText.bytes_toString_negSucc n

theorem decimal_ne_nil (n : ℤ) : decimal n ≠ [] := by
  cases n with
  | ofNat n => exact CText.bytes_toString_ne_nil n
  | negSucc n =>
    rw [decimal_negSucc]
    exact List.cons_ne_nil _ _

theorem length_decimal_toInt (x : Int32) : (decimal x.toInt).length < 12 := by
  have hlow := x.le_toInt
  have hhigh := x.toInt_lt
  generalize x.toInt = n at hlow hhigh
  cases n with
  | ofNat n =>
    have hle : (decimal (n : ℤ)).length ≤ 10 :=
      length_decimal_natCast_le (by decide) (by simp only [Int.ofNat_eq_natCast] at hhigh; omega)
    exact Nat.lt_of_le_of_lt hle (by decide)
  | negSucc n =>
    have hle : (decimal (n + 1 : ℕ)).length ≤ 10 :=
      length_decimal_natCast_le (by decide) (by omega)
    rw [decimal_negSucc, List.length_cons]
    omega

theorem length_decimalPadded {width n : ℕ} (hwidth : 0 < width) (hn : n < 10 ^ width) :
    (decimalPadded width n).length = width := by
  have hle : (bytes (toString n)).length ≤ width := length_decimal_natCast_le hwidth hn
  rw [decimalPadded, List.length_append, List.length_replicate]
  omega

theorem cStr_decimal (n : ℤ) : cStr (decimal n) = decimal n :=
  CText.cStr_eq_self_iff.mpr (Json.zero_not_mem_toString n)

theorem mem_decimal {n : ℤ} {c : UInt8} (hc : c ∈ decimal n) : c = 45 ∨ 48 ≤ c ∧ c ≤ 57 := by
  cases n with
  | ofNat n => exact .inr (CText.mem_bytes_toString hc)
  | negSucc n =>
    rw [decimal_negSucc] at hc
    exact (List.mem_cons.mp hc).imp_right CText.mem_bytes_toString

theorem special_cases {d : UInt8} (hd : d ∈ ([37, 38, 43] : List UInt8)) :
    d = 37 ∨ d = 38 ∨ d = 43 := by
  simpa only [List.mem_cons, List.not_mem_nil, or_false] using hd

theorem ordinary_decimal (n : ℤ) : Ordinary (decimal n) := by
  have hspecial : ∀ d ∈ ([37, 38, 43] : List UInt8), ¬(d = 45 ∨ 48 ≤ d ∧ d ≤ 57) := fun d hd => by
    obtain rfl | rfl | rfl := special_cases hd <;> decide
  exact fun c hc hmem => hspecial c hmem (mem_decimal hc)

theorem rfc1738Encode_append (src src' : List UInt8) :
    rfc1738Encode (src ++ src') = rfc1738Encode src ++ rfc1738Encode src' :=
  List.flatMap_append

theorem hexDigit_spec {d : UInt8} (h : d.toNat < 16) :
    FormUrlencoded.isHex (Json.hexDigit d) = true ∧
      FormUrlencoded.hexValue (Json.hexDigit d) = d ∧
      Json.hexDigit d ∉ [0, 37, 38, 43] := by
  have hall : ∀ n < 16, FormUrlencoded.isHex (Json.hexDigit (UInt8.ofNat n)) = true ∧
      FormUrlencoded.hexValue (Json.hexDigit (UInt8.ofNat n)) = UInt8.ofNat n ∧
      Json.hexDigit (UInt8.ofNat n) ∉ [0, 37, 38, 43] := by decide
  have hd := hall d.toNat h
  rwa [UInt8.ofNat_toNat] at hd

theorem not_isAlnum {c : UInt8} (h : isAlnum c = true) : c ∉ [0, 37, 38, 43] := by
  intro hmem
  obtain rfl | hmem := List.mem_cons.mp hmem
  · exact absurd h (by decide)
  · obtain rfl | rfl | rfl := special_cases hmem <;> exact absurd h (by decide)

theorem sixteenths (c : UInt8) : 16 * (c / 16) + c % 16 = c := by
  rw [← UInt8.toNat_inj]
  have hlt := c.toNat_lt
  simp only [UInt8.toNat_add, UInt8.toNat_mul, UInt8.toNat_div, UInt8.toNat_mod,
    UInt8.reduceToNat]
  omega

/-- What a byte looks like to the reader, and that it cannot end the value. -/
theorem rfc1738EncodeByte_spec (c : UInt8) :
    (∀ rest, FormUrlencoded.percentDecode
      ((rfc1738EncodeByte c).map FormUrlencoded.plusToBlank ++ rest) =
        c :: FormUrlencoded.percentDecode rest) ∧
    38 ∉ rfc1738EncodeByte c ∧ 0 ∉ rfc1738EncodeByte c ∧ (rfc1738EncodeByte c).length ≤ 3 := by
  rw [rfc1738EncodeByte]
  split_ifs with halnum hblank
  · have hspecial := not_isAlnum halnum
    simp only [List.mem_cons, List.not_mem_nil, or_false, not_or] at hspecial
    obtain ⟨hzero, hpercent, hamp, hplus⟩ := hspecial
    refine ⟨fun rest => ?_, by simpa using Ne.symm hamp, by simpa using Ne.symm hzero, by simp⟩
    rw [List.map_singleton, FormUrlencoded.plusToBlank, if_neg hplus, List.singleton_append,
      FormUrlencoded.percentDecode_cons_of_ne hpercent]
  · subst hblank
    exact ⟨fun rest => FormUrlencoded.percentDecode_cons_of_ne (by decide) rest, by decide,
      by decide, by decide⟩
  · have hlt := c.toNat_lt
    obtain ⟨hhex, hvalue, hdigit⟩ := @hexDigit_spec (c / 16) (by
      rw [UInt8.toNat_div]
      exact Nat.div_lt_of_lt_mul hlt)
    obtain ⟨hhex', hvalue', hdigit'⟩ := @hexDigit_spec (c % 16) (by
      rw [UInt8.toNat_mod]
      exact Nat.mod_lt _ (by decide))
    simp only [List.mem_cons, List.not_mem_nil, or_false, not_or] at hdigit hdigit'
    refine ⟨fun rest => ?_, ?_, ?_, le_rfl⟩
    · simp only [List.map_cons, List.map_nil, FormUrlencoded.plusToBlank, if_neg hdigit.2.2.2,
        if_neg hdigit'.2.2.2, List.cons_append, List.nil_append]
      rw [if_neg (by decide), FormUrlencoded.percentDecode_escape hhex hhex', hvalue, hvalue',
        sixteenths]
    · simp [Ne.symm hdigit.2.2.1, Ne.symm hdigit'.2.2.1]
    · simp [Ne.symm hdigit.1, Ne.symm hdigit'.1]

theorem cStr_rfc1738Encode (src : List UInt8) : cStr (rfc1738Encode src) = rfc1738Encode src := by
  rw [CText.cStr_eq_self_iff]
  rintro hmem
  obtain ⟨c, -, hc⟩ := List.mem_flatMap.mp hmem
  exact (rfc1738EncodeByte_spec c).2.2.1 hc

theorem length_rfc1738Encode_le (src : List UInt8) :
    (rfc1738Encode src).length ≤ 3 * src.length := by
  induction src with
  | nil => exact le_rfl
  | cons c src ih =>
    have hc := (rfc1738EncodeByte_spec c).2.2.2
    rw [rfc1738Encode, List.flatMap_cons, List.length_append, List.length_cons]
    rw [rfc1738Encode] at ih
    omega

/-- A text that is handed on as a C string. -/
def textEntry (name : String) (text : List UInt8) : Entry := ⟨bytes name, cStr text, text⟩

/-- A text that has to be read as it is. -/
def PlainText (text : List UInt8) : Prop := 0 ∉ text ∧ Plain text

instance decidablePlainText (text : List UInt8) : Decidable (PlainText text) :=
  instDecidableAnd

theorem reads_textEntry_iff (name : String) (text : List UInt8) :
    (textEntry name text).Reads ↔ PlainText text := by
  rw [Entry.reads_iff (CText.cStr_eq_or_length_lt text)]
  exact and_congr_left' CText.cStr_eq_self_iff

theorem formed_textEntry {name : String} (hname : Plain (bytes name) ∧ 61 ∉ bytes name)
    (text : List UInt8) : (textEntry name text).Formed :=
  ⟨hname.1, hname.2, .inr (CText.cStr_eq_or_length_lt text)⟩

/-- A field whose text is encoded, so that it reads back whatever bytes it has. -/
def encodedEntry (name : String) (text : List UInt8) : Entry :=
  ⟨bytes name, rfc1738Encode text, text⟩

theorem getExpireTime_eq {clock : Clock} {tm : Tm} (htime : 0 < clock.time)
    (htm : clock.gmtime = some tm) :
    getExpireTime clock = .ok (rfc1738Encode tm.expireTime) := by
  have hdate : (decimalPadded 4 tm.year ++ 45 :: decimalPadded 2 tm.mon ++
      45 :: decimalPadded 2 tm.mday).length < 16 := by
    have hmon : tm.mon < 10 ^ 2 := Nat.lt_of_le_of_lt tm.mon_le (by decide)
    have hmday : tm.mday < 10 ^ 2 := Nat.lt_of_le_of_lt tm.mday_le (by decide)
    simp only [List.length_append, List.length_cons,
      length_decimalPadded (by decide : 0 < 4) tm.year_lt,
      length_decimalPadded (by decide : 0 < 2) hmon, length_decimalPadded (by decide : 0 < 2) hmday]
    decide
  have hclock : (decimalPadded 2 tm.hour ++ 58 :: decimalPadded 2 tm.min).length < 8 := by
    have hhour : tm.hour < 10 ^ 2 := Nat.lt_trans tm.hour_lt (by decide)
    have hmin : tm.min < 10 ^ 2 := Nat.lt_trans tm.min_lt (by decide)
    simp only [List.length_append, List.length_cons,
      length_decimalPadded (by decide : 0 < 2) hhour, length_decimalPadded (by decide : 0 < 2) hmin]
    decide
  have ht : bytes "T" = rfc1738Encode (bytes "T") := by decide
  rw [getExpireTime, if_neg (Int.not_le.mpr htime), htm]
  simp only [sprintf_of_lt hdate, sprintf_of_lt hclock, bind, Except.bind]
  rw [ht, ← rfc1738Encode_append, ← rfc1738Encode_append, Tm.expireTime]
  simp only [List.append_assoc]

/-- What the application gets, as the code writes it. -/
def hwDataText (pbMsg : ANDPushMsg) : List UInt8 :=
  CHwAppOpenJson.getJson { stype := decimal pbMsg.eMsgType.toInt, sid := pbMsg.sToId }

/-- What Huawei gets, as the code writes it. -/
def hwPayloadText (pbMsg : ANDPushMsg) : List UInt8 :=
  Json.toStyledString (hwMessage (appDataIntent (hwDataText pbMsg)) pbMsg)

/-- What is not sent to Huawei: a message that lacks its token, title or body, or whose texts are
too long, and any message when the time is unknown. -/
def HwRefuses (clock : Clock) (pbMsg : ANDPushMsg) (pushSvrToken : List UInt8) : Prop :=
  pushSvrToken = [] ∨ appIntentSize < (hwDataText pbMsg).length + appDataIntentSize ∨
    pbMsg.sTitle = [] ∨ pbMsg.sBody = [] ∨ clock.time ≤ 0 ∨ clock.gmtime = none ∨
    maxContentSize < postPushContectStrSize + pushSvrToken.length +
      (decimal (clock.time % 2 ^ 32)).length +
      (rfc1738Encode (deviceTokenList pbMsg)).length + (hwPayloadText pbMsg).length + 22

/-- What is printed for Huawei. -/
def hwForm (clock : Clock) (tm : Tm) (pbMsg : ANDPushMsg) (pushSvrToken : List UInt8) :
    List UInt8 :=
  postPushContectStr (cStr pushSvrToken) (decimal (clock.time % 2 ^ 32))
    (rfc1738Encode (deviceTokenList pbMsg)) (rfc1738Encode (hwPayloadText pbMsg))
    (rfc1738Encode tm.expireTime)

theorem hwDataText_spec (pbMsg : ANDPushMsg) :
    hwDataText pbMsg ≠ [] ∧ cStr (hwDataText pbMsg) = hwDataText pbMsg := by
  rw [hwDataText, CHwAppOpenJson.getJson, if_neg (decimal_ne_nil _)]
  exact ⟨Json.toStyledString_ne_nil _,
    CText.cStr_eq_self_iff.mpr (Json.zero_not_mem_toStyledString _)⟩

/-- The message as JSON. -/
def hwPayloadJson (intent : List UInt8) (pbMsg : ANDPushMsg) : CHwPayloadJson where
  uMsgType := 3
  uActionType := 1
  strIntent := intent
  strTitle := pbMsg.sTitle
  strContent := pbMsg.sBody

theorem set_type_action_type (n : ℤ) (action : Json.Tree) :
    ((Json.Tree.null.set "type" (.int n)).set "action" action).set "type" (.int n) =
      (Json.Tree.null.set "type" (.int n)).set "action" action := by
  have hne : bytes "type" ≠ bytes "action" ∧ bytes "action" ≠ bytes "type" := by decide
  have hlt : bytes "action" < bytes "type" ∧ ¬bytes "type" < bytes "action" := by decide
  simp only [Json.Tree.set, Json.Tree.insertMember, hne, hlt, if_true, if_false]

theorem getJson_hwPayloadJson {intent : List UInt8} (hintent : intent ≠ []) (pbMsg : ANDPushMsg) :
    (hwPayloadJson intent pbMsg).getJson =
      if pbMsg.sBody = [] ∨ pbMsg.sTitle = [] then []
      else Json.toStyledString (hwMessage intent pbMsg) := by
  have haction : (hwPayloadJson intent pbMsg).actionParam =
      some ((Json.Tree.null.set "type" (.int 1)).set "param"
        (Json.Tree.null.set "intent" (.string intent))) := by
    simp [CHwPayloadJson.actionParam, CHwPayloadJson.actionText, hwPayloadJson, hintent]
  rw [CHwPayloadJson.getJson, CHwPayloadJson.jmsg, haction]
  by_cases hempty : pbMsg.sBody = [] ∨ pbMsg.sTitle = []
  · simp [CHwPayloadJson.msgBody, hwPayloadJson, hempty]
  · have hbody : (hwPayloadJson intent pbMsg).msgBody =
        some ((Json.Tree.null.set "content" (.string pbMsg.sBody)).set "title"
          (.string pbMsg.sTitle)) := if_neg hempty
    rw [hbody, if_neg hempty, hwMessage, ← set_type_action_type]
    rfl

theorem length_appDataIntent (data : List UInt8) :
    (appDataIntent data).length + 2 = data.length + appDataIntentSize := by
  have hformat : (bytes "%s").length = 2 := by decide
  simp only [appDataIntentSize, appDataIntent, List.length_append, hformat]
  omega

theorem appDataIntent_ne_nil (data : List UInt8) : appDataIntent data ≠ [] :=
  List.append_ne_nil_of_right_ne_nil _ (by decide)

theorem isAlnum_decimalPadded {width n : ℕ} {c : UInt8} (hc : c ∈ decimalPadded width n) :
    isAlnum c = true := by
  have hdigit : 48 ≤ c ∧ c ≤ 57 := by
    obtain hc | hc := List.mem_append.mp hc
    · rw [List.eq_of_mem_replicate hc]
      decide
    · exact CText.mem_bytes_toString hc
  simp [isAlnum, hdigit]

theorem length_rfc1738Encode {src : List UInt8} (h : ∀ c ∈ src, isAlnum c = true) :
    (rfc1738Encode src).length = src.length := by
  induction src with
  | nil => rfl
  | cons c src ih =>
    obtain ⟨hc, hsrc⟩ := List.forall_mem_cons.mp h
    rw [rfc1738Encode, List.flatMap_cons, rfc1738EncodeByte, if_pos hc, List.singleton_append,
      List.length_cons, List.length_cons, ← ih hsrc, rfc1738Encode]

theorem length_expireTime (tm : Tm) : (rfc1738Encode tm.expireTime).length = 22 := by
  have hmon : tm.mon < 10 ^ 2 := Nat.lt_of_le_of_lt tm.mon_le (by decide)
  have hmday : tm.mday < 10 ^ 2 := Nat.lt_of_le_of_lt tm.mday_le (by decide)
  have hhour : tm.hour < 10 ^ 2 := Nat.lt_trans tm.hour_lt (by decide)
  have hmin : tm.min < 10 ^ 2 := Nat.lt_trans tm.min_lt (by decide)
  have hpadded : ∀ {width n : ℕ}, 0 < width → n < 10 ^ width →
      (rfc1738Encode (decimalPadded width n)).length = width := fun hwidth hn =>
    (length_rfc1738Encode fun _ => isAlnum_decimalPadded).trans (length_decimalPadded hwidth hn)
  have hcons : ∀ c src, rfc1738Encode (c :: src) = rfc1738EncodeByte c ++ rfc1738Encode src :=
    fun c src => List.flatMap_cons
  simp only [Tm.expireTime, rfc1738Encode_append, hcons, List.length_append,
    hpadded (by decide : 0 < 4) tm.year_lt, hpadded (by decide : 0 < 2) hmon,
    hpadded (by decide : 0 < 2) hmday, hpadded (by decide : 0 < 2) hhour,
    hpadded (by decide : 0 < 2) hmin]
  decide

theorem length_nspTs (clock : Clock) : (decimal (clock.time % 2 ^ 32)).length < 16 := by
  obtain ⟨n, hn⟩ := Int.eq_ofNat_of_zero_le (Int.emod_nonneg clock.time (b := 2 ^ 32) (by decide))
  have hlt : clock.time % 2 ^ 32 < 2 ^ 32 := Int.emod_lt_of_pos _ (by decide)
  rw [hn]
  exact Nat.lt_of_le_of_lt (length_decimal_natCast_le (by decide : 0 < 10) (by omega)) (by decide)

theorem praseData_eq (clock : Clock) (pbMsg : ANDPushMsg) (pushSvrToken : List UInt8) :
    praseData clock pbMsg pushSvrToken =
      if appIntentSize < (hwDataText pbMsg).length + appDataIntentSize then .error .refused
      else if pbMsg.sBody = [] ∨ pbMsg.sTitle = [] then .error .refused
      else (getExpireTime clock).bind fun expireTime =>
        if maxContentSize < postPushContectStrSize + pushSvrToken.length +
            (decimal (clock.time % 2 ^ 32)).length +
            (rfc1738Encode (deviceTokenList pbMsg)).length + (hwPayloadText pbMsg).length +
            expireTime.length then .error .refused
        else
          sprintf maxContentSize (postPushContectStr (cStr pushSvrToken)
            (decimal (clock.time % 2 ^ 32)) (rfc1738Encode (deviceTokenList pbMsg))
            (rfc1738Encode (hwPayloadText pbMsg)) (cStr expireTime)) := by
  rw [praseData]
  simp only [sprintf_of_lt (length_decimal_toInt _), sprintf_of_lt (length_nspTs _), bind,
    Except.bind]
  rw [← hwDataText, if_neg (hwDataText_spec pbMsg).1, (hwDataText_spec pbMsg).2]
  by_cases hdata : appIntentSize < (hwDataText pbMsg).length + appDataIntentSize
  · rw [if_pos hdata, if_pos hdata]
  · have hintent : (appDataIntent (hwDataText pbMsg)).length < appIntentSize := by
      have hlength := length_appDataIntent (hwDataText pbMsg)
      omega
    have hpayload := getJson_hwPayloadJson (appDataIntent_ne_nil (hwDataText pbMsg)) pbMsg
    rw [if_neg hdata, if_neg hdata]
    simp only [sprintf_of_lt hintent]
    rw [← hwPayloadJson, hpayload]
    split
    · rfl
    · have hne : hwPayloadText pbMsg ≠ [] := Json.toStyledString_ne_nil _
      rw [← hwPayloadText, if_neg hne]
      simp only [cStr_decimal, cStr_rfc1738Encode, deviceTokenList]
      rfl

theorem hwGetHttpPostData_eq_refused {clock : Clock} {pbMsg : ANDPushMsg}
    {pushSvrToken : List UInt8} (h : HwRefuses clock pbMsg pushSvrToken) :
    hwGetHttpPostData clock pbMsg pushSvrToken = .error .refused := by
  rw [hwGetHttpPostData, praseData_eq]
  obtain htoken | hdata | htitle | hbody | htime | hgmtime | hsize := h
  · rw [if_pos htoken]
  · rw [if_pos hdata, ite_self]
  · have hempty : pbMsg.sBody = [] ∨ pbMsg.sTitle = [] := .inr htitle
    rw [if_pos hempty, ite_self, ite_self]
  · have hempty : pbMsg.sBody = [] ∨ pbMsg.sTitle = [] := .inl hbody
    rw [if_pos hempty, ite_self, ite_self]
  · rw [getExpireTime, if_pos htime]
    simp [Except.bind]
  · simp [getExpireTime, hgmtime, Except.bind]
  · split
    · rfl
    · split
      · rfl
      · split
        · rfl
        · by_cases htime : 0 < clock.time
          · cases htm : clock.gmtime with
            | none => simp [getExpireTime, htm, Except.bind]
            | some tm =>
              rw [getExpireTime_eq htime htm, Except.bind]
              exact if_pos (by rwa [length_expireTime])
          · rw [getExpireTime, if_pos (Int.not_lt.mp htime), Except.bind]

theorem hwGetHttpPostData_eq_sprintf {clock : Clock} {pbMsg : ANDPushMsg}
    {pushSvrToken : List UInt8} (h : ¬HwRefuses clock pbMsg pushSvrToken) :
    ∃ tm, clock.gmtime = some tm ∧ hwGetHttpPostData clock pbMsg pushSvrToken =
      sprintf maxContentSize (hwForm clock tm pbMsg pushSvrToken) := by
  simp only [HwRefuses, not_or] at h
  obtain ⟨htoken, hdata, htitle, hbody, htime, hgmtime, hsize⟩ := h
  obtain ⟨tm, htm⟩ := Option.ne_none_iff_exists'.mp hgmtime
  refine ⟨tm, htm, ?_⟩
  rw [hwGetHttpPostData, if_neg htoken, praseData_eq, if_neg hdata,
    if_neg (not_or.mpr ⟨hbody, htitle⟩), getExpireTime_eq (Int.not_le.mp htime) htm, Except.bind]
  rw [← length_expireTime tm] at hsize
  rw [if_neg hsize, cStr_rfc1738Encode]
  rfl

def hwEntries (clock : Clock) (tm : Tm) (pbMsg : ANDPushMsg) (pushSvrToken : List UInt8) :
    List Entry :=
  [textEntry "access_token" pushSvrToken,
    textEntry "nsp_svc" (bytes "openpush.message.api.send"),
    textEntry "nsp_ts" (decimal (clock.time % 2 ^ 32)),
    encodedEntry "device_token_list" (deviceTokenList pbMsg),
    encodedEntry "payload" (hwPayloadText pbMsg),
    encodedEntry "expire_time" tm.expireTime]

theorem hwForm_eq_write (clock : Clock) (tm : Tm) (pbMsg : ANDPushMsg) (pushSvrToken : List UInt8) :
    hwForm clock tm pbMsg pushSvrToken =
      FormUrlencoded.write (hwEntries clock tm pbMsg pushSvrToken) ++ 38 :: [13, 10, 10] := by
  have htoken : bytes "access_token=" = bytes "access_token" ++ [61] := by decide
  have hservice : bytes "&nsp_svc=openpush.message.api.send&nsp_ts=" =
      38 :: (bytes "nsp_svc" ++ 61 :: (cStr (bytes "openpush.message.api.send") ++
        38 :: (bytes "nsp_ts" ++ [61]))) := by decide
  have hlist : bytes "&device_token_list=" = 38 :: (bytes "device_token_list" ++ [61]) := by decide
  have hpayload : bytes "&payload=" = 38 :: (bytes "payload" ++ [61]) := by decide
  have hexpire : bytes "&expire_time=" = 38 :: (bytes "expire_time" ++ [61]) := by decide
  have hend : bytes "&\r\n\n" = 38 :: [13, 10, 10] := by decide
  rw [hwForm, postPushContectStr, htoken, hservice, hlist, hpayload, hexpire, hend]
  simp only [FormUrlencoded.write, hwEntries, List.map_cons, List.map_nil, Entry.piece, textEntry,
    encodedEntry, List.intercalate_cons_cons, List.intercalate_singleton, cStr_decimal,
    List.append_assoc, List.cons_append, List.nil_append]

theorem parse_hwForm (clock : Clock) (tm : Tm) (pbMsg : ANDPushMsg) (pushSvrToken : List UInt8) :
    FormUrlencoded.parse (hwForm clock tm pbMsg pushSvrToken) =
      FormUrlencoded.parse (FormUrlencoded.write (hwEntries clock tm pbMsg pushSvrToken)) ++
        [([13, 10, 10], [])] := by
  have hlast : FormUrlencoded.parse [13, 10, 10] = [([13, 10, 10], [])] := by decide
  rw [hwForm_eq_write, FormUrlencoded.parse_append_separator, hlast]

/-- The form for Huawei is sound only where there is none. -/
theorem hwSound_iff_refuses (clock : Clock) (pbMsg : ANDPushMsg) (pushSvrToken : List UInt8) :
    HwSound clock pbMsg pushSvrToken ↔ HwRefuses clock pbMsg pushSvrToken := by
  constructor
  · intro hsound
    by_contra hnot
    obtain ⟨tm, -, heq⟩ := hwGetHttpPostData_eq_sprintf hnot
    rw [sprintf] at heq
    split at heq
    · obtain ⟨tm', data, payload, -, -, -, hfields⟩ := hsound.fields _ heq
      rw [parse_hwForm] at hfields
      have hlast := congrArg List.getLast? hfields
      rw [List.getLast?_concat] at hlast
      have hname := congrArg (Option.map Prod.fst) hlast
      exact absurd hname (by simp [hwFields]; decide)
    · exact hsound.fits heq
  · intro hrefuses
    have heq := hwGetHttpPostData_eq_refused hrefuses
    constructor
    · rw [heq]
      exact fun h => by cases h
    · intro text htext
      rw [heq] at htext
      cases htext

theorem getLast?_decimal (n : ℤ) : ∃ init c, decimal n = init ++ [c] ∧ 48 ≤ c ∧ c ≤ 57 := by
  have hnat : ∀ n : ℕ, ∃ init c, decimal n = init ++ [c] ∧ 48 ≤ c ∧ c ≤ 57 := by
    intro n
    refine ⟨(decimal n).dropLast, (decimal n).getLast (decimal_ne_nil n), ?_, ?_⟩
    · exact (List.dropLast_concat_getLast (decimal_ne_nil n)).symm
    · exact CText.mem_bytes_toString (List.getLast_mem (decimal_ne_nil n))
  cases n with
  | ofNat n => exact hnat n
  | negSucc n =>
    obtain ⟨init, c, hc, hdigit⟩ := hnat (n + 1)
    exact ⟨45 :: init, c, by rw [decimal_negSucc, hc, List.cons_append], hdigit⟩

theorem getJsonValue_eq (pbMsg : ANDPushMsg) :
    CAppOpenJson.getJsonValue { utype := pbMsg.eMsgType.toInt, sid := pbMsg.sToId } =
      .object ((if pbMsg.sToId = [] then [] else [(bytes "id", Json.Tree.string pbMsg.sToId)]) ++
        [(bytes "notify_type", Json.Tree.int pbMsg.eMsgType.toInt)]) := by
  have hne : bytes "id" ≠ bytes "notify_type" := by decide
  have hlt : bytes "id" < bytes "notify_type" := by decide
  by_cases hid : pbMsg.sToId = []
  · simp only [CAppOpenJson.getJsonValue, setText, hid, Json.Tree.set, if_true, List.nil_append]
  · simp only [CAppOpenJson.getJsonValue, setText, hid, Json.Tree.set, Json.Tree.insertMember, hne,
      hlt, if_true, if_false, List.singleton_append]

theorem writeMembers_notifyType {c : UInt8} (hblank : c ≠ 32) (hline : c ≠ 10)
    (document : List UInt8) (n : ℤ) :
    Json.writeIndent 0 (Json.writeMembers 3 (document ++ [c]) [(bytes "notify_type", .int n)]) =
      document ++ c :: bytes "\n   \"notify_type\" : " ++ decimal n ++ [10] := by
  obtain ⟨init, d, hdecimal, hlow, hhigh⟩ := getLast?_decimal n
  have hquoted : Json.quoted (bytes "notify_type") = bytes "\"notify_type\"" := by decide
  have hname : bytes "\n   \"notify_type\" : " =
      10 :: 32 :: 32 :: 32 :: (bytes "\"notify_type\"" ++ bytes " : ") := by decide
  have hd : d ≠ 32 ∧ d ≠ 10 := by
    constructor <;> rintro rfl <;> exact absurd hlow (by decide)
  rw [Json.writeMembers, Json.writeValue, ← decimal, hdecimal, Json.writeIndent_concat hblank hline,
    ← List.append_assoc _ init [d], Json.writeIndent_concat hd.1 hd.2, hquoted, hname]
  simp [List.replicate]

theorem miPayload_eq (pbMsg : ANDPushMsg) :
    miPayload pbMsg = bytes "\x7b" ++
      (if pbMsg.sToId = [] then []
        else bytes "\n   \"id\" : " ++ Json.quoted pbMsg.sToId ++ bytes ",") ++
      bytes "\n   \"notify_type\" : " ++ decimal pbMsg.eMsgType.toInt ++ bytes "\n\x7d\n" := by
  have hopen : Json.writeIndent 0 [] ++ bytes "\x7b" = [] ++ [123] := by decide
  have hclose : bytes "\n\x7d\n" = 10 :: (bytes "\x7d" ++ [10]) := by decide
  have hbrace : bytes "\x7b" = [123] := by decide
  rw [miPayload, getJsonValue_eq, Json.toStyledString, hclose]
  by_cases hid : pbMsg.sToId = []
  · rw [if_pos hid, if_pos hid, List.nil_append, Json.writeValue, hopen,
      writeMembers_notifyType (by decide) (by decide), hbrace]
    simp
  · have hcomma : bytes "," = [44] := by decide
    have hname : Json.quoted (bytes "id") = bytes "\"id\"" := by decide
    have hid' : bytes "\n   \"id\" : " =
        10 :: 32 :: 32 :: 32 :: (bytes "\"id\"" ++ bytes " : ") := by decide
    rw [if_neg hid, if_neg hid, List.singleton_append, Json.writeValue, hopen, Json.writeMembers,
      Json.writeValue, hcomma, writeMembers_notifyType (by decide) (by decide),
      Json.writeIndent_concat (by decide) (by decide), hname, hid', hbrace]
    simp [List.replicate]

/-- The bytes that are not read as they stand are written as they are. -/
theorem mem_escape_iff {c d : UInt8} (hd : d ∈ ([37, 38, 43] : List UInt8)) :
    d ∈ Json.escape c ↔ c = d := by
  obtain ⟨e, he, hescape⟩ | ⟨hc, hescape⟩ | ⟨hescape, -⟩ := Json.escape_eq c
  · have hall : ∀ p ∈ Json.shortEscapes, d ∉ [92, p.2] ∧ p.1 ≠ d := by
      obtain rfl | rfl | rfl := special_cases hd <;> exact List.all_iff_forall_prop.mp (by decide)
    obtain ⟨hmem, hne⟩ := hall _ he
    rw [hescape]
    exact iff_of_false hmem hne
  · have hhigh := (@hexDigit_spec (c / 16) (by
      rw [UInt8.toNat_div]
      exact Nat.div_lt_of_lt_mul c.toNat_lt)).2.2
    have hlow := (@hexDigit_spec (c % 16) (by
      rw [UInt8.toNat_mod]
      exact Nat.mod_lt _ (by decide))).2.2
    have hmem : d ∉ ([92, 117, 48, 48] : List UInt8) := by
      obtain rfl | rfl | rfl := special_cases hd <;> decide
    have hcontrol : Json.isControlCharacter d = false := by
      obtain rfl | rfl | rfl := special_cases hd <;> decide
    have hdigit : d ∈ ([0, 37, 38, 43] : List UInt8) := List.mem_cons_of_mem 0 hd
    have hne : c ≠ d := fun h => Bool.false_ne_true (hcontrol.symm.trans (h ▸ hc))
    refine iff_of_false ?_ hne
    have hparts : ([92, 117, 48, 48, Json.hexDigit (c / 16), Json.hexDigit (c % 16)] : List UInt8) =
        [92, 117, 48, 48] ++ [Json.hexDigit (c / 16), Json.hexDigit (c % 16)] := rfl
    rw [hescape, hparts, List.mem_append, not_or]
    refine ⟨hmem, fun hdigits => ?_⟩
    obtain h | h := List.mem_cons.mp hdigits
    · exact hhigh (h ▸ hdigit)
    · exact hlow (List.mem_singleton.mp h ▸ hdigit)
  · rw [hescape, List.mem_singleton, eq_comm]

theorem startsHex_of_not_isHex {c : UInt8} (hc : FormUrlencoded.isHex c = false)
    (text : List UInt8) : FormUrlencoded.startsHex (c :: text) = false := by
  cases text with
  | nil => rfl
  | cons d text => rw [FormUrlencoded.startsHex, hc, Bool.false_and]

theorem escape_cases (c : UInt8) :
    Json.escape c = [c] ∨ FormUrlencoded.isHex c = false ∧ ∃ rest, Json.escape c = 92 :: rest := by
  obtain ⟨d, hd, hescape⟩ | ⟨hc, hescape⟩ | ⟨hescape, -⟩ := Json.escape_eq c
  · have hall : ∀ p ∈ Json.shortEscapes, FormUrlencoded.isHex p.1 = false :=
      List.all_iff_forall_prop.mp (by decide)
    exact .inr ⟨hall _ hd, _, hescape⟩
  · refine .inr ⟨?_, _, hescape⟩
    simp only [Json.isControlCharacter, Bool.and_eq_true, decide_eq_true_eq] at hc
    have hle : c.toNat ≤ 31 := hc.2
    simp only [FormUrlencoded.isHex, Bool.or_eq_false_iff, Bool.and_eq_false_iff,
      decide_eq_false_iff_not, UInt8.le_iff_toNat_le, UInt8.reduceToNat]
    omega
  · exact .inl hescape

/-- A hexadecimal digit is written as it is, and what is written for another byte does not begin
with one. -/
theorem escape_spec (c : UInt8) :
    (FormUrlencoded.isHex c = true → Json.escape c = [c]) ∧
      (FormUrlencoded.isHex c = false →
        ∃ d rest, Json.escape c = d :: rest ∧ FormUrlencoded.isHex d = false) := by
  obtain hself | ⟨hnot, rest, hescape⟩ := escape_cases c
  · exact ⟨fun _ => hself, fun hnot => ⟨c, [], hself, hnot⟩⟩
  · refine ⟨fun hhex => ?_, fun _ => ⟨92, rest, hescape, by decide⟩⟩
    rw [hnot] at hhex
    cases hhex

theorem startsHex_escape (text tail : List UInt8) :
    FormUrlencoded.startsHex (text.flatMap Json.escape ++ 34 :: tail) =
      FormUrlencoded.startsHex text := by
  have hquote : FormUrlencoded.isHex 34 = false := by decide
  cases text with
  | nil => exact startsHex_of_not_isHex hquote tail
  | cons a text =>
    rw [List.flatMap_cons, List.append_assoc]
    cases ha : FormUrlencoded.isHex a with
    | false =>
      obtain ⟨d, rest, heq, hd⟩ := (escape_spec a).2 ha
      rw [heq, List.cons_append, startsHex_of_not_isHex hd, startsHex_of_not_isHex ha]
    | true =>
      rw [(escape_spec a).1 ha, List.singleton_append]
      cases text with
      | nil =>
        rw [List.flatMap_nil, List.nil_append, FormUrlencoded.startsHex, hquote,
          Bool.and_false]
        rfl
      | cons b text =>
        rw [List.flatMap_cons, List.append_assoc]
        cases hb : FormUrlencoded.isHex b with
        | false =>
          obtain ⟨d, rest, heq, hd⟩ := (escape_spec b).2 hb
          rw [heq, List.cons_append, FormUrlencoded.startsHex, FormUrlencoded.startsHex, hd,
            hb]
        | true =>
          rw [(escape_spec b).1 hb, List.singleton_append, FormUrlencoded.startsHex,
            FormUrlencoded.startsHex]

theorem escaped_escape (text : List UInt8) {tail : List UInt8} (htail : 37 ∉ tail) :
    FormUrlencoded.escaped (text.flatMap Json.escape ++ 34 :: tail) =
      FormUrlencoded.escaped text := by
  induction text with
  | nil =>
    exact FormUrlencoded.escaped_eq_false fun h =>
      (List.mem_cons.mp h).elim (by decide) htail
  | cons c text ih =>
    rw [List.flatMap_cons, List.append_assoc, FormUrlencoded.escaped]
    by_cases hc : c = 37
    · subst hc
      have hescape : Json.escape 37 = [37] := by decide
      rw [hescape, List.singleton_append, FormUrlencoded.escaped, startsHex_escape, ih]
    · have hpercent : 37 ∉ Json.escape c := fun hmem =>
        hc ((mem_escape_iff (by decide)).mp hmem)
      rw [FormUrlencoded.escaped_append hpercent, ih, decide_eq_false hc, Bool.false_and,
        Bool.false_or]

theorem quoted_eq {text : List UInt8} (h : 0 ∉ text) :
    Json.quoted text = 34 :: (text.flatMap Json.escape ++ [34]) := by
  have htext : text.takeWhile (· ≠ 0) = text := CText.cStr_eq_self_iff.mpr h
  rw [Json.quoted, htext, List.cons_append]

/-- A quoted text inside of others is read as it stands if and only if the text is. -/
theorem plain_quoted_iff {front text back : List UInt8} (hfront : Ordinary front)
    (htext : 0 ∉ text) (hback : Ordinary back) :
    Plain (front ++ Json.quoted text ++ back) ↔ Plain text := by
  have hquote : Ordinary (front ++ [34]) := hfront.append (by decide)
  have hsplit : front ++ Json.quoted text ++ back =
      (front ++ [34]) ++ (text.flatMap Json.escape ++ 34 :: back) := by
    rw [quoted_eq htext]
    simp
  have hmem : ∀ {d : UInt8}, d ∈ ([37, 38, 43] : List UInt8) →
      (d ∈ text.flatMap Json.escape ++ 34 :: back ↔ d ∈ text) := by
    intro d hd
    have hne : d ≠ 34 := by
      rintro rfl
      exact absurd hd (by decide)
    rw [List.mem_append, List.mem_cons, List.mem_flatMap]
    simp only [mem_escape_iff hd, exists_eq_right, hne, hback.not_mem hd, or_false]
  rw [hsplit, hquote.plain_append_iff]
  have hescape := escaped_escape text (hback.not_mem (by decide : 37 ∈ ([37, 38, 43] : List UInt8)))
  constructor
  · rintro ⟨hamp, hplus, hesc⟩
    exact ⟨fun h => hamp ((hmem (by decide)).mpr h), fun h => hplus ((hmem (by decide)).mpr h),
      hescape ▸ hesc⟩
  · rintro ⟨hamp, hplus, hesc⟩
    exact ⟨fun h => hamp ((hmem (by decide)).mp h), fun h => hplus ((hmem (by decide)).mp h),
      hescape.trans hesc⟩

/-- The JSON is read as it stands if and only if the receiver's id is. -/
theorem plain_miPayload_iff {pbMsg : ANDPushMsg} (h : 0 ∉ pbMsg.sToId) :
    Plain (miPayload pbMsg) ↔ Plain pbMsg.sToId := by
  have hend : Ordinary (bytes "\n   \"notify_type\" : " ++ (decimal pbMsg.eMsgType.toInt ++
      bytes "\n\x7d\n")) :=
    .append (by decide) ((ordinary_decimal _).append (by decide))
  by_cases hid : pbMsg.sToId = []
  · refine iff_of_true (Ordinary.plain ?_) (by rw [hid]; decide)
    rw [miPayload_eq, if_pos hid, List.append_nil, List.append_assoc, List.append_assoc]
    exact .append (by decide) hend
  · have hsplit : miPayload pbMsg = (bytes "\x7b" ++ bytes "\n   \"id\" : ") ++
        Json.quoted pbMsg.sToId ++ (bytes "," ++ (bytes "\n   \"notify_type\" : " ++
          (decimal pbMsg.eMsgType.toInt ++ bytes "\n\x7d\n"))) := by
      rw [miPayload_eq, if_neg hid]
      simp only [List.append_assoc]
    rw [hsplit]
    exact plain_quoted_iff (by decide) h (.append (by decide) hend)

theorem length_miPayload {pbMsg : ANDPushMsg} (h : 0 ∉ pbMsg.sToId) :
    (miPayload pbMsg).length = 24 + (decimal pbMsg.eMsgType.toInt).length +
      if pbMsg.sToId = [] then 0 else 14 + (pbMsg.sToId.flatMap Json.escape).length := by
  have hbrace : (bytes "\x7b").length = 1 := by decide
  have hname : (bytes "\n   \"id\" : ").length = 11 := by decide
  have hcomma : (bytes ",").length = 1 := by decide
  have htype : (bytes "\n   \"notify_type\" : ").length = 20 := by decide
  have hend : (bytes "\n\x7d\n").length = 3 := by decide
  rw [miPayload_eq]
  split
  · simp only [List.length_append, List.length_nil, hbrace, htype, hend]
    omega
  · rw [quoted_eq h]
    simp only [List.length_append, List.length_cons, List.length_nil, hbrace, hname, hcomma, htype,
      hend]
    omega

def miEntries (pbMsg : ANDPushMsg) (notifyId : ℕ) : List Entry :=
  [textEntry "alias" pbMsg.sDiveceToken,
    textEntry "restricted_package_name" (bytes "com.onlyy.kimi"),
    textEntry "pass_through" (bytes "0"),
    textEntry "notify_type" (bytes "7"),
    textEntry "notify_id" (decimal notifyId),
    textEntry "title" pbMsg.sTitle,
    textEntry "description" pbMsg.sBody,
    textEntry "payload" (miPayload pbMsg),
    textEntry "extra.notify_effect" (bytes "1")]

/-- What is printed for Xiaomi. -/
def miForm (pbMsg : ANDPushMsg) (notifyId : ℕ) : List UInt8 :=
  miPushPostFormData (cStr pbMsg.sDiveceToken) (decimal notifyId) (cStr pbMsg.sTitle)
    (cStr pbMsg.sBody) (miPayload pbMsg)

theorem cStr_miPayload (pbMsg : ANDPushMsg) : cStr (miPayload pbMsg) = miPayload pbMsg :=
  CText.cStr_eq_self_iff.mpr (Json.zero_not_mem_toStyledString _)

theorem miPushCommonPostFormData_eq : miPushCommonPostFormData = miPushPostFormData := rfl

theorem miGetHttpPostData_eq (pbMsg : ANDPushMsg) (phoneCall : Bool) (notifyId : ℕ) :
    (miGetHttpPostData pbMsg phoneCall notifyId).1 = sprintf 4096 (miForm pbMsg notifyId) := by
  rw [miGetHttpPostData, cStr_miPayload, miPushCommonPostFormData_eq, ite_self, miForm]

theorem miForm_eq_write (pbMsg : ANDPushMsg) (notifyId : ℕ) :
    miForm pbMsg notifyId = FormUrlencoded.write (miEntries pbMsg notifyId) := by
  have halias : bytes "alias=" = bytes "alias" ++ [61] := by decide
  have hfixed :
      bytes "&restricted_package_name=com.onlyy.kimi&pass_through=0&notify_type=7&notify_id=" =
        38 :: (bytes "restricted_package_name" ++ 61 :: (cStr (bytes "com.onlyy.kimi") ++
          38 :: (bytes "pass_through" ++ 61 :: (cStr (bytes "0") ++
            38 :: (bytes "notify_type" ++ 61 :: (cStr (bytes "7") ++
              38 :: (bytes "notify_id" ++ [61]))))))) := by
    refine (CText.bytes_ofList _).trans ?_
    decide +kernel
  have htitle : bytes "&title=" = 38 :: (bytes "title" ++ [61]) := by decide
  have hdescription : bytes "&description=" = 38 :: (bytes "description" ++ [61]) := by decide
  have hpayload : bytes "&payload=" = 38 :: (bytes "payload" ++ [61]) := by decide
  have heffect : bytes "&extra.notify_effect=1" =
      38 :: (bytes "extra.notify_effect" ++ 61 :: cStr (bytes "1")) := by decide
  rw [miForm, miPushPostFormData, halias, hfixed, htitle, hdescription, hpayload, heffect]
  simp only [FormUrlencoded.write, miEntries, List.map_cons, List.map_nil, Entry.piece, textEntry,
    List.intercalate_cons_cons, List.intercalate_singleton, cStr_decimal, cStr_miPayload,
    List.append_assoc, List.cons_append, List.nil_append]

/-- What Xiaomi can read as it was meant. None of these texts is encoded, and the id is inside the
JSON. -/
def MiPlain (pbMsg : ANDPushMsg) : Prop :=
  PlainText pbMsg.sDiveceToken ∧ PlainText pbMsg.sTitle ∧ PlainText pbMsg.sBody ∧
    PlainText pbMsg.sToId

/-- The size of the form for Xiaomi, without the NUL at its end. -/
def miSize (pbMsg : ANDPushMsg) (notifyId : ℕ) : ℕ :=
  160 + pbMsg.sDiveceToken.length + (decimal notifyId).length + pbMsg.sTitle.length +
    pbMsg.sBody.length + (decimal pbMsg.eMsgType.toInt).length +
    if pbMsg.sToId = [] then 0 else 14 + (pbMsg.sToId.flatMap Json.escape).length

theorem MiPlain.length_miForm {pbMsg : ANDPushMsg} (h : MiPlain pbMsg) (notifyId : ℕ) :
    (miForm pbMsg notifyId).length = miSize pbMsg notifyId := by
  obtain ⟨htoken, htitle, hbody, hid⟩ := h
  have hfixed :
      (bytes "&restricted_package_name=com.onlyy.kimi&pass_through=0&notify_type=7&notify_id=").length =
        79 := CText.length_bytes_ofList rfl rfl
  have hnames : (bytes "alias=").length + (bytes "&title=").length +
      (bytes "&description=").length + (bytes "&payload=").length = 35 := by decide
  have heffect : (bytes "&extra.notify_effect=1").length = 22 := CText.length_bytes_ofList rfl rfl
  rw [miForm, miPushPostFormData, CText.cStr_eq_self_iff.mpr htoken.1,
    CText.cStr_eq_self_iff.mpr htitle.1, CText.cStr_eq_self_iff.mpr hbody.1, miSize]
  simp only [List.length_append, length_miPayload hid.1]
  omega

theorem nulFree_getJsonValue_iff (pbMsg : ANDPushMsg) :
    (CAppOpenJson.getJsonValue { utype := pbMsg.eMsgType.toInt, sid := pbMsg.sToId }).NulFree ↔
      0 ∉ pbMsg.sToId := by
  have hid : 0 ∉ bytes "id" := by decide
  have htype : 0 ∉ bytes "notify_type" := by decide
  rw [getJsonValue_eq]
  split
  · next hempty => simp [Json.Tree.NulFree, Json.NulFreeMembers, htype, hempty]
  · simp [Json.Tree.NulFree, Json.NulFreeMembers, hid, htype]

theorem formed_of_mem_miEntries {pbMsg : ANDPushMsg} {notifyId : ℕ} {entry : Entry}
    (h : entry ∈ miEntries pbMsg notifyId) : entry.Formed := by
  have hall : ∀ entry ∈ miEntries pbMsg notifyId, entry.Formed := by
    simp only [miEntries, List.forall_mem_cons]
    exact ⟨formed_textEntry (by decide) _, formed_textEntry (by decide) _,
      formed_textEntry (by decide) _, formed_textEntry (by decide) _,
      formed_textEntry (by decide) _, formed_textEntry (by decide) _,
      formed_textEntry (by decide) _, formed_textEntry (by decide) _,
      formed_textEntry (by decide) _, List.forall_mem_nil _⟩
  exact hall entry h

/-- The form for Xiaomi is read as it was meant if and only if all its texts are plain. -/
theorem parse_miForm_iff (pbMsg : ANDPushMsg) (notifyId : ℕ) :
    (∃ payload, Json.Says payload (CAppOpenJson.getJsonValue
        { utype := pbMsg.eMsgType.toInt, sid := pbMsg.sToId }) ∧
      FormUrlencoded.parse (miForm pbMsg notifyId) = miFields pbMsg notifyId payload) ↔
    MiPlain pbMsg := by
  have hread : FormUrlencoded.parse (miForm pbMsg notifyId) =
        miFields pbMsg notifyId (miPayload pbMsg) ↔
      PlainText pbMsg.sDiveceToken ∧ PlainText pbMsg.sTitle ∧ PlainText pbMsg.sBody ∧
        PlainText (miPayload pbMsg) := by
    have hfields : miFields pbMsg notifyId (miPayload pbMsg) =
        (miEntries pbMsg notifyId).map Entry.field := rfl
    have hdecimal : PlainText (decimal notifyId) :=
      ⟨Json.zero_not_mem_toString _, (ordinary_decimal _).plain⟩
    have hpackage : PlainText (bytes "com.onlyy.kimi") := by decide
    have hdigits : PlainText (bytes "0") ∧ PlainText (bytes "7") ∧ PlainText (bytes "1") := by
      decide
    rw [hfields, miForm_eq_write,
      FormUrlencoded.parse_write_iff fun _ => formed_of_mem_miEntries]
    simp only [miEntries, List.forall_mem_cons, reads_textEntry_iff, hpackage, hdigits, hdecimal,
      List.not_mem_nil, false_implies, implies_true, and_true, true_and]
  have hpayload : PlainText (miPayload pbMsg) ↔ Plain (miPayload pbMsg) :=
    and_iff_right (Json.zero_not_mem_toStyledString _)
  constructor
  · rintro ⟨payload, ⟨rfl, hnul⟩, hparse⟩
    have hid : 0 ∉ pbMsg.sToId := (nulFree_getJsonValue_iff pbMsg).mp hnul
    obtain ⟨htoken, htitle, hbody, hplain⟩ := hread.mp hparse
    exact ⟨htoken, htitle, hbody, hid, (plain_miPayload_iff hid).mp (hpayload.mp hplain)⟩
  · rintro ⟨htoken, htitle, hbody, hid⟩
    refine ⟨miPayload pbMsg, ⟨rfl, (nulFree_getJsonValue_iff pbMsg).mpr hid.1⟩, hread.mpr ?_⟩
    exact ⟨htoken, htitle, hbody, hpayload.mpr ((plain_miPayload_iff hid.1).mpr hid.2)⟩

/-- The form for Xiaomi is sound if and only if all its texts are plain and it fits. -/
theorem miSound_iff_plain (pbMsg : ANDPushMsg) (phoneCall : Bool) (notifyId : ℕ) :
    MiSound pbMsg phoneCall notifyId ↔ MiPlain pbMsg ∧ miSize pbMsg notifyId < 4096 := by
  have heq := miGetHttpPostData_eq pbMsg phoneCall notifyId
  constructor
  · rintro ⟨hfits, hfields⟩
    have hlt : (miForm pbMsg notifyId).length < 4096 := by
      by_contra hnot
      exact hfits (heq.trans (if_neg hnot))
    have hplain : MiPlain pbMsg :=
      (parse_miForm_iff pbMsg notifyId).mp (hfields _ (heq.trans (sprintf_of_lt hlt)))
    exact ⟨hplain, hplain.length_miForm notifyId ▸ hlt⟩
  · rintro ⟨hplain, hsize⟩
    rw [← hplain.length_miForm notifyId] at hsize
    rw [sprintf_of_lt hsize] at heq
    constructor
    · rw [heq]
      exact fun h => by cases h
    · intro text htext
      rw [heq] at htext
      obtain rfl := Except.ok.inj htext
      exact (parse_miForm_iff pbMsg notifyId).mpr hplain

theorem length_verAppid (ver appId : List UInt8) :
    (verAppid ver appId).length = 22 + ver.length + appId.length := by
  have hfixed : (bytes "\x7b\"ver\":\"").length + (bytes "\", \"appId\":\"").length +
      (bytes "\"\x7d").length = 22 := by decide
  simp only [verAppid, List.length_append]
  omega

theorem length_postPushHeadStr (nspCtx : List UInt8) :
    (postPushHeadStr nspCtx).length = 154 + nspCtx.length := by
  have hpost : (bytes "POST /pushsend.do?nsp_ctx=").length = 26 := CText.length_bytes_ofList rfl rfl
  have hversion : (bytes " HTTP/1.1\r\n").length = 11 := CText.length_bytes_ofList rfl rfl
  have hhost : (bytes "Host: api.push.hicloud.com\r\n").length = 28 := CText.length_bytes_ofList rfl rfl
  have hconnection : (bytes "Connection: keep-alive\r\n").length = 24 := CText.length_bytes_ofList rfl rfl
  have htype : (bytes "Content-Type: application/x-www-form-urlencoded\r\n").length = 49 :=
    CText.length_bytes_ofList rfl rfl
  have hlength : (bytes "Content-Length: ").length = 16 := CText.length_bytes_ofList rfl rfl
  simp only [postPushHeadStr, List.length_append]
  omega

theorem length_postRequestUrl (nspCtx : List UInt8) :
    (postRequestUrl nspCtx).length = 49 + nspCtx.length := by
  have hfixed :
      (bytes "https://api.push.hicloud.com/pushsend.do?nsp_ctx=").length = 49 := by decide
  rw [postRequestUrl, List.length_append, hfixed]

/-- The arrays of `Init` are large enough for what is not refused. -/
theorem hwInit_ne_overrun (sVer sAppId : List UInt8) :
    hwInit sVer sAppId ≠ .error .overrun := by
  have hformat : (bytes "%s").length = 2 := by decide
  rw [hwInit, length_verAppid, hformat]
  split
  · exact fun h => by cases h
  · next hsize =>
    rw [maxVerAppidSize] at hsize
    have hver : (verAppid (cStr sVer) (cStr sAppId)).length < maxVerAppidSize := by
      rw [length_verAppid, maxVerAppidSize]
      omega
    have hencoded := length_rfc1738Encode_le (verAppid (cStr sVer) (cStr sAppId))
    have hlt : (verAppid (cStr sVer) (cStr sAppId)).length < 64 := hver
    have hhead : (postPushHeadStr (cStr (rfc1738Encode (verAppid (cStr sVer)
        (cStr sAppId))))).length < maxHeadSize := by
      rw [cStr_rfc1738Encode, length_postPushHeadStr, maxHeadSize]
      omega
    have hurl : (postRequestUrl (cStr (rfc1738Encode (verAppid (cStr sVer)
        (cStr sAppId))))).length < maxHeadSize := by
      rw [cStr_rfc1738Encode, length_postRequestUrl, maxHeadSize]
      omega
    simp only [bind, Except.bind, sprintf_of_lt hver, sprintf_of_lt hhead, sprintf_of_lt hurl]
    exact fun h => by cases h

/-- The forms carry the message and fit their arrays: for Huawei only if there is none, for Xiaomi
if and only if each text can be put into a form as it stands and all of them have room. -/
theorem pushForms_sound_iff (clock : Clock) (pbMsg : ANDPushMsg) (pushSvrToken : List UInt8)
    (phoneCall : Bool) (notifyId : ℕ) (sVer sAppId : List UInt8) :
    (HwSound clock pbMsg pushSvrToken ↔ HwRefuses clock pbMsg pushSvrToken) ∧
      (MiSound pbMsg phoneCall notifyId ↔ MiPlain pbMsg ∧ miSize pbMsg notifyId < 4096) ∧
      hwInit sVer sAppId ≠ .error .overrun :=
  ⟨hwSound_iff_refuses clock pbMsg pushSvrToken, miSound_iff_plain pbMsg phoneCall notifyId,
    hwInit_ne_overrun sVer sAppId⟩

/-- A message whose body has a separator of fields, so that the rest of the body is read as a field
of its own. -/
def rockAndRoll : ANDPushMsg where
  eMsgType := 1
  sTitle := bytes "Kimi"
  sBody := bytes "rock & roll"
  sToId := bytes "10001"
  sDiveceToken := bytes "0867012345678901"

theorem not_pushForms_sound : ¬MiSound rockAndRoll false 1 := by
  rw [miSound_iff_plain]
  rintro ⟨⟨-, -, ⟨-, hbody⟩, -⟩, -⟩
  exact absurd hbody.separator (by decide)

end ImServer
