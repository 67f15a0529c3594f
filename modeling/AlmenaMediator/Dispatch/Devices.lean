import AlmenaMediator.Dispatch.Protocols

/-!
# Devices and push wake-ups

`dispatch/devices.rs`: the push protocols, mediator side, in which a wallet registers the device its
mediation wakes; and `push/mod.rs`: waking a mediation's devices.
-/

namespace Dispatch

open Didcomm

variable (mediator : Mediator)

/-- Longest FCM token accepted. -/
def maxFcmToken : ℕ := 4096
/-- Longest APNs token accepted. -/
def maxApnsToken : ℕ := 200
def maxPlatform : ℕ := 64

/-- `u8::is_ascii_graphic`. -/
def isAsciiGraphic (b : UInt8) : Bool := 0x21 ≤ b && b ≤ 0x7e

/-- `u8::is_ascii_hexdigit`. -/
def isAsciiHexdigit (b : UInt8) : Bool :=
  (0x30 ≤ b && b ≤ 0x39) || (0x41 ≤ b && b ≤ 0x46) || (0x61 ≤ b && b ≤ 0x66)

def isFcmToken (token : String) : Bool :=
  token != "" && token.utf8ByteSize ≤ maxFcmToken && (utf8 token).all isAsciiGraphic

/-- Hex only: the token goes into the APNs request path. -/
def isApnsToken (token : String) : Bool :=
  token != "" && token.utf8ByteSize ≤ maxApnsToken && (utf8 token).all isAsciiHexdigit

namespace Devices

/-- A member that is a string or `null`; a missing one counts as `null`. -/
def field (name : String) (body : Value) : Option (Option String) :=
  match body.get name with
  | none | some .null => some none
  | some (.string value) => some (some value)
  | some _ => none

/-- The device a `set-device-info` body registers: `some none` removes it, `none` means the body is
not valid. -/
def parseDevice (service : Store.Service) (body : Value) : Option (Option Store.Device) := do
  let token ← field "device_token" body
  match service with
  | .apns =>
    match token with
    | none => some none
    | some token => if isApnsToken token then some (some ⟨token, none⟩) else none
  | .fcm =>
    match token, ← field "device_platform" body with
    | none, none => some none
    | some token, some platform =>
      if isFcmToken token && platform != "" && platform.utf8ByteSize ≤ maxPlatform then
        some (some ⟨token, some platform⟩)
      else none
    | _, _ => none

/-- The service a push message is about, and the name of the message. -/
def serviceOf (type_ : String) : Option (Store.Service × String) :=
  match stripStart pushFcm.toList type_.toList with
  | some name => some (.fcm, String.ofList name)
  | none => (stripStart pushApns.toList type_.toList).map fun name => (.apns, String.ofList name)

/-- `set-device-info`. -/
def set (requester : String) (service : Store.Service) (message : Message) : StoreTask Handled :=
  match parseDevice service message.body with
  | none => return .problem .invalidBody
  | some device => do
    store (.setDevice requester service device)
    let reply ← newMessage ack (.object [("status", .string "OK")])
    return .reply (reply.replyTo message)

/-- `get-device-info`. -/
def get (requester : String) (service : Store.Service) (message : Message) : StoreTask Handled := do
  let devices : List (Store.Service × Store.Device) ← store (.devices requester)
  let device := (devices.find? fun d => d.1 == service).map Prod.snd
  let platform := if service = .fcm then
      [("device_platform", Value.ofOption (device.bind Store.Device.platform))]
    else []
  let info ← newMessage (pushProtocol service ++ deviceInfo)
    (.object (("device_token", .ofOption (device.map Store.Device.token)) :: platform))
  return .reply (info.replyTo message)

/-- Handles a message of a service's push protocol by its name. -/
def handleName (requester : String) (service : Store.Service) (name : String) (message : Message) :
    StoreTask Handled :=
  if name = setDeviceInfo then set requester service message
  else if name = getDeviceInfo then get requester service message
  else return .problem .unsupportedType

/-- Handles a push protocol message from an authenticated DID. -/
def handle (requester : String) (message : Message) : StoreTask Handled :=
  match serviceOf message.type_ with
  | none => return .problem .unsupportedType
  | some (service, name) =>
    -- Only the services this mediator can push through.
    if !(mediator.pusher.any fun services => services.contains service) then
      return .problem .unsupportedType
    else do
      let mediated : Bool ← store (.hasMediation requester)
      if !mediated then return .problem .noMediation
      handleName requester service name message

end Devices

/-! ## Waking devices -/

namespace Push

/-- Sends a wake-up to each device. Tokens the service rejects are forgotten. -/
def wakeEach (mediation : String) : List (Store.Service × Store.Device) → StoreTask Unit
  | [] => return ()
  | (service, device) :: devices => do
    let sent : Except String Sent ← call (.push service device.token)
    if let .ok .invalidToken := sent then store (.removeDevice mediation service device.token)
    wakeEach mediation devices

/-- Wakes the mediation's devices unless a push already went out since the wallet last picked up.
The marker of a sent push lasts at most `holdSecs`. -/
def wake (services : List Store.Service) (mediation : String) (holdSecs : ℕ) : StoreTask Unit := do
  let all : List (Store.Service × Store.Device) ← store (.devices mediation)
  let devices := all.filter fun d => services.contains d.1
  if devices = [] then return ()
  let now : ℕ ← call .now
  let claimed : Bool ← store (.claimPush mediation now holdSecs)
  if claimed then wakeEach mediation devices

/-- The task that `Mediator::wake` starts. -/
def wakeTask (mediation : String) : Task Unit :=
  void (wake (mediator.pusher.getD []) mediation mediator.limits.queue.ttlSecs).run

end Push

end Dispatch
