import AlmenaMediator.Dispatch.Protocols

/-!
# Message Pickup

`dispatch/pickup.rs`: Message Pickup 3.0 (the mediator side). Live mode needs a WebSocket session;
over HTTP it is refused.
-/

namespace Dispatch

open Didcomm

variable (mediator : Mediator)

/-- Most messages one `delivery` carries, whatever `limit` asks for. -/
def maxBatch : ℕ := 100

/-- The wallet of the mediation is picking up: pushes may resume after the minimum interval. -/
def pickedUp (mediation : String) : StoreTask Unit :=
  if mediator.pusher.isSome then do
    let now : ℕ ← call .now
    store (.releasePush mediation now mediator.limits.pushMinIntervalSecs)
  else return ()

/-- Whether live mode is on for `mediation` on the session. -/
def isLiveFor (session : Option ℕ) (mediation : String) : Task Bool :=
  match session with
  | none => return false
  | some session => do
    let live : Option String ← call (.liveMediation session)
    return live == some mediation

namespace Pickup

/-- The body of a `status`. -/
def statusBody (summary : Store.QueueSummary) (recipient : Option String) (now : ℕ) (live : Bool) :
    Value :=
  let times := match summary.oldest, summary.newest with
    | some oldest, some newest => [("oldest_received_time", Value.ofNat oldest),
        ("newest_received_time", .ofNat newest), ("longest_waited_seconds", .ofNat (now - oldest))]
    | _, _ => []
  let filter := match recipient with
    | some did => [("recipient_did", Value.string did)]
    | none => []
  .object ([("message_count", .ofNat summary.count), ("total_bytes", .ofNat summary.totalBytes),
    ("live_delivery", .bool live)] ++ times ++ filter)

/-- The `status` of a queue. -/
def status (mediation : String) (recipient : Option String) (request : Message) (live : Bool) :
    StoreTask Handled := do
  let now : ℕ ← call .now
  let summary : Store.QueueSummary ←
    store (.summary mediation recipient now mediator.limits.queue.ttlSecs)
  let status ← newMessage statusType (statusBody summary recipient now live)
  return .reply (status.replyTo request)

/-- Adds a queued message to a `delivery`. -/
def attach (delivery : Message) (q : Store.Queued) : Message :=
  delivery.attachment ((Attachment.ofBytes (utf8 q.message)).withId q.id)

/-- `delivery-request`: the oldest messages, or a status if there are none. -/
def deliveryRequest (requester : String) (recipient : Option String) (message : Message)
    (live : Bool) : StoreTask Handled :=
  match (message.body.get "limit").bind Value.asU64 with
  | none | some 0 => return .problem .invalidBody
  | some limit => do
    let now : ℕ ← call .now
    let queued : List Store.Queued ← store
      (.peek requester recipient (min limit maxBatch) now mediator.limits.queue.ttlSecs)
    if queued = [] then status mediator requester recipient message live
    else do
      let body := match recipient with
        | some did => [("recipient_did", Value.string did)]
        | none => []
      let delivery ← newMessage deliveryType (.object body)
      return .reply (queued.foldl attach (delivery.replyTo message))

/-- The ids a `messages-received` lists. -/
def receivedIds (message : Message) : Option (List String) := do
  let ids ← (message.body.get "message_id_list").bind Value.asArray
  ids.mapM Value.asStr

/-- `messages-received`: removes the messages acknowledged. -/
def messagesReceived (requester : String) (recipient : Option String) (message : Message)
    (live : Bool) : StoreTask Handled :=
  match receivedIds message with
  | none => return .problem .invalidBody
  | some ids => do
    let _ ← store (.remove requester ids)
    status mediator requester recipient message live

/-- `live-delivery-change`: turns live mode on or off for the session. -/
def liveDeliveryChange (requester : String) (recipient : Option String) (message : Message)
    (session : Option ℕ) : StoreTask Handled :=
  match (message.body.get "live_delivery").bind Value.asBool, session with
  | none, _ => return .problem .invalidBody
  | some true, none => return .problem .liveModeNotSupported
  | some true, some session => do
    let _ : Unit ← call (.enable session requester)
    status mediator requester recipient message true
  | some false, some session => do
    let _ : Unit ← call (.disable session)
    status mediator requester recipient message false
  | some false, none => status mediator requester recipient message false

/-- Handles a message by its type, when live mode is `live`. -/
def handleType (requester : String) (recipient : Option String) (message : Message)
    (session : Option ℕ) (live : Bool) : StoreTask Handled :=
  if message.type_ = statusRequest then status mediator requester recipient message live
  else if message.type_ = Dispatch.deliveryRequest then
    deliveryRequest mediator requester recipient message live
  else if message.type_ = Dispatch.messagesReceived then
    messagesReceived mediator requester recipient message live
  else if message.type_ = Dispatch.liveDeliveryChange then
    liveDeliveryChange mediator requester recipient message session
  else return .problem .unsupportedType

/-- Handles a message about `recipient`'s messages, or all. -/
def handleFor (requester : String) (recipient : Option String) (message : Message)
    (session : Option ℕ) : StoreTask Handled := do
  let live : Bool ← isLiveFor session requester
  handleType mediator requester recipient message session live

/-- Reads `recipient_did`, which must be one of the requester's when given. -/
def handleFiltered (requester : String) (message : Message) (session : Option ℕ) :
    StoreTask Handled :=
  match message.body.get "recipient_did" with
  | none | some .null => handleFor mediator requester none message session
  | some (.string did) => do
    let recipients : List String ← store (.recipients requester)
    if !recipients.contains did then return .problem (.unknownRecipient did)
    handleFor mediator requester (some did) message session
  | some _ => return .problem .invalidBody

/-- Handles a Message Pickup message from an authenticated DID that arrived on `session` (a
WebSocket) or over HTTP (`none`). -/
def handle (requester : String) (message : Message) (session : Option ℕ) : StoreTask Handled := do
  let mediated : Bool ← store (.hasMediation requester)
  if !mediated then return .problem .noMediation
  pickedUp mediator requester
  handleFiltered mediator requester message session

end Pickup

end Dispatch
