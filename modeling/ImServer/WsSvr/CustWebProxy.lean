import ImServer.Base.JsonReader
import ImServer.Base.JsonShape

/-!
# What agents send

`CCustWebProxy::on_message` (wsSvr/custWebProxy.cpp) reads a message of an agent and makes a task of
it, if the message is a login or if its session belongs to the connection. The task reads the
members that its command asks for (`CCustWebTask::run` and its handlers in wsSvr/custWebTask.cpp).

The functions are `none` where they throw. What a handler does with the members is not modelled
here; it calls no other function on the message that could throw.
-/

namespace ImServer

open Json

namespace CCustWebProxy

def mesLogin : ℤ := 0x1001
def mesChatHeartbrat : ℤ := 0x1009
def sessionClose : ℤ := 0x2001
def sessionPull : ℤ := 0x2003
def sessionTransfer : ℤ := 0x2007
def sessionActive : ℤ := 0x2009
def statusUpdate : ℤ := 0x3001

/-- What a handler reads, in the order in which it does. -/
inductive Request where
  | login (custId serviceId : List UInt8)
  | heartBeat
  | updateCustStatus (custId serviceId : List UInt8) (status : ℤ)
  | sessionClose (custId serviceId userId : List UInt8) (sessionType : ℤ)
  | sessionTransfer (fromCustId fromCustName serviceId toCustId userId : List UInt8)
    (sessionType : ℤ)
  | sessionPull (custId serviceId : List UInt8) (pageInDex pageSize sessionType : ℤ)
  | sessionActive (sessionType : ℤ) (custId serviceId userId : List UInt8)
  | unknown (command : ℤ)
  deriving DecidableEq, Repr

section Handlers

variable (msg : Node)

def loginHandler : Option Request := do
  let custId ← msg.textField "userId"
  let serviceId ← msg.textField "serviceId"
  some (.login custId serviceId)

def updateCustStatus : Option Request := do
  let custId ← msg.textField "userId"
  let serviceId ← msg.textField "serviceId"
  let status ← msg.intField "status"
  some (.updateCustStatus custId serviceId status)

def sessionCloseHandler : Option Request := do
  let custId ← msg.textField "custId"
  let serviceId ← msg.textField "serviceId"
  let userId ← msg.textField "userId"
  let sessionType ← msg.intField "sessionType"
  some (.sessionClose custId serviceId userId sessionType)

/-- The name of the agent is read from the member with his id. -/
def sessionTransferHandler : Option Request := do
  let fromCustId ← msg.textField "fromCustId"
  let fromCustName ← msg.textField "fromCustId"
  let serviceId ← msg.textField "serviceId"
  let toCustId ← msg.textField "toCustId"
  let userId ← msg.textField "userId"
  let sessionType ← msg.intField "sessionType"
  some (.sessionTransfer fromCustId fromCustName serviceId toCustId userId sessionType)

def sessionPullHandler : Option Request := do
  let custId ← msg.textField "userId"
  let serviceId ← msg.textField "serviceId"
  let pageInDex ← msg.intField "pageIndex"
  let pageSize ← msg.intField "pageSize"
  let sessionType ← msg.intField "sessionType"
  some (.sessionPull custId serviceId pageInDex pageSize sessionType)

def sessionActiveHander : Option Request := do
  let sessionType ← msg.intField "sessionType"
  let custId ← msg.textField "custId"
  let serviceId ← msg.textField "serviceId"
  let userId ← msg.textField "userId"
  some (.sessionActive sessionType custId serviceId userId)

/-- The handler of a command. A heartbeat is sent back as it is. -/
def handler (command : ℤ) : Option Request :=
  if command = mesLogin then loginHandler msg
  else if command = mesChatHeartbrat then some .heartBeat
  else if command = statusUpdate then updateCustStatus msg
  else if command = sessionClose then sessionCloseHandler msg
  else if command = sessionTransfer then sessionTransferHandler msg
  else if command = sessionPull then sessionPullHandler msg
  else if command = sessionActive then sessionActiveHander msg
  else some (.unknown command)

/-- `run`: the command is read, and then its handler goes on. Nothing is made of a message without a
command. -/
def run : Option Request := (msg.intField "command").bind (handler msg)

end Handlers

/-- `on_message`, with the message of the task that is added, if any. `matched` tells whether the
connection of a session is the one that the message came on. -/
def onMessage (scan : Scan) (matched : List UInt8 → Bool) (payload : List UInt8) :
    Option (Option Node) :=
  match parse .strictMode scan payload with
  | none => some none
  | some tempVal => do
    let cmd ← tempVal.intField "command"
    let sessionId ← tempVal.textField "sessionId"
    if cmd ≠ mesLogin ∧ matched sessionId = false then some none
    else if payload = CText.bytes "stop-listening" then some none
    else some (some tempVal)

/-- A message, and the task that it makes. A message that is ignored makes none. -/
def handle (scan : Scan) (matched : List UInt8 → Bool) (payload : List UInt8) :
    Option (Option Request) :=
  (onMessage scan matched payload).bind fun task =>
    match task with
    | none => some none
    | some msg => (run msg).map some

/-- The members that the handler of a command reads, with the kinds that the conversions expect. -/
def fields (command : ℤ) : List (String × Kind) :=
  if command = mesLogin then [("userId", .text), ("serviceId", .text)]
  else if command = mesChatHeartbrat then []
  else if command = statusUpdate then [("userId", .text), ("serviceId", .text), ("status", .int)]
  else if command = sessionClose then
    [("custId", .text), ("serviceId", .text), ("userId", .text), ("sessionType", .int)]
  else if command = sessionTransfer then
    [("fromCustId", .text), ("fromCustId", .text), ("serviceId", .text), ("toCustId", .text),
      ("userId", .text), ("sessionType", .int)]
  else if command = sessionPull then
    [("userId", .text), ("serviceId", .text), ("pageIndex", .int), ("pageSize", .int),
      ("sessionType", .int)]
  else if command = sessionActive then
    [("sessionType", .int), ("custId", .text), ("serviceId", .text), ("userId", .text)]
  else []

/-- A message has a command and a session and, if a task is made of it, the members that its command
asks for. -/
def Shaped (matched : List UInt8 → Bool) (msg : Node) : Prop :=
  msg.Fits [("command", .int), ("sessionId", .text)] ∧
    ∀ cmd sessionId, msg.intField "command" = some cmd →
      msg.textField "sessionId" = some sessionId →
      cmd = mesLogin ∨ matched sessionId = true → msg.Fits (fields cmd)

variable {msg : Node}

theorem isSome_handler_iff (hnamed : msg.Named) (command : ℤ) :
    (handler msg command).isSome ↔ msg.Fits (fields command) := by
  have hend := fun request : Request => isSome_some_iff hnamed request
  unfold handler fields
  split_ifs
  · exact isSome_textField_bind fun _ => isSome_textField_bind fun _ => hend _
  · exact hend _
  · exact isSome_textField_bind fun _ => isSome_textField_bind fun _ =>
      isSome_intField_bind fun _ => hend _
  · exact isSome_textField_bind fun _ => isSome_textField_bind fun _ =>
      isSome_textField_bind fun _ => isSome_intField_bind fun _ => hend _
  · exact isSome_textField_bind fun _ => isSome_textField_bind fun _ =>
      isSome_textField_bind fun _ => isSome_textField_bind fun _ => isSome_textField_bind fun _ =>
        isSome_intField_bind fun _ => hend _
  · exact isSome_textField_bind fun _ => isSome_textField_bind fun _ =>
      isSome_intField_bind fun _ => isSome_intField_bind fun _ => isSome_intField_bind fun _ =>
        hend _
  · exact isSome_intField_bind fun _ => isSome_textField_bind fun _ =>
      isSome_textField_bind fun _ => isSome_textField_bind fun _ => hend _
  · exact hend _

theorem parse_stopListening (scan : Scan) :
    parse .strictMode scan (CText.bytes "stop-listening") = none := by
  rfl

theorem handle_eq {scan : Scan} {payload : List UInt8}
    (hparse : parse .strictMode scan payload = some msg) (matched : List UInt8 → Bool) :
    handle scan matched payload =
      (msg.intField "command").bind fun cmd => (msg.textField "sessionId").bind fun sessionId =>
        if cmd ≠ mesLogin ∧ matched sessionId = false then some none
        else (handler msg cmd).map some := by
  have hstop : payload ≠ CText.bytes "stop-listening" := by
    rintro rfl
    rw [parse_stopListening] at hparse
    cases hparse
  rw [handle, onMessage, hparse]
  show Option.bind (Option.bind _ _) _ = _
  cases hcmd : msg.intField "command" with
  | none => rfl
  | some cmd =>
    have hrun : run msg = handler msg cmd := by rw [run, hcmd, Option.bind_some]
    cases msg.textField "sessionId" with
    | none => rfl
    | some sessionId =>
      simp only [Option.bind_some, Option.bind_eq_bind, if_neg hstop, ← hrun]
      split
      · rfl
      · rfl

theorem isSome_handle_iff (scan : Scan) (matched : List UInt8 → Bool) (payload : List UInt8) :
    (handle scan matched payload).isSome ↔
      ∀ msg, parse .strictMode scan payload = some msg → Shaped matched msg := by
  cases hparse : parse .strictMode scan payload with
  | none =>
    have hnone : handle scan matched payload = some none := by
      rw [handle, onMessage, hparse]
      rfl
    rw [hnone]
    refine iff_of_true rfl fun msg hmsg => ?_
    cases hmsg
  | some msg =>
    have hiff : (handle scan matched payload).isSome ↔ Shaped matched msg := by
      rw [Shaped, Node.fits_cons, Node.fits_cons, Node.fits_nil, ← Node.isSome_intField_iff,
        ← Node.isSome_textField_iff, handle_eq hparse]
      cases hcmd : msg.intField "command" with
      | none => simp
      | some cmd =>
        have hnamed : msg.Named := (Node.isSome_intField_iff.mp (by rw [hcmd]; rfl)).1
        cases hsession : msg.textField "sessionId" with
        | none => simp
        | some sessionId =>
          rw [Option.bind_some, Option.bind_some]
          split
          · next hother =>
            refine iff_of_true rfl ⟨⟨rfl, rfl, hnamed⟩, ?_⟩
            intro cmd' sessionId' hcmd' hsession' hmade
            cases hcmd'
            cases hsession'
            rcases hmade with hlogin | hmatched
            · exact absurd hlogin hother.1
            · rw [hother.2] at hmatched
              cases hmatched
          · next hmade =>
            rw [Option.isSome_map, isSome_handler_iff hnamed]
            constructor
            · intro hfits
              refine ⟨⟨rfl, rfl, hnamed⟩, ?_⟩
              intro cmd' sessionId' hcmd' hsession' _
              cases hcmd'
              exact hfits
            · intro hshaped
              refine hshaped.2 cmd sessionId rfl rfl ?_
              by_cases hlogin : cmd = mesLogin
              · exact .inl hlogin
              · exact .inr (Bool.not_eq_false _ ▸ fun hno => hmade ⟨hlogin, hno⟩)
    rw [hiff]
    exact ⟨fun h msg' heq => Option.some.inj heq ▸ h, fun h => h msg rfl⟩

end CCustWebProxy

end ImServer
