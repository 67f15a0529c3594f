import AlmenaMediator.Dispatch.Devices
import AlmenaMediator.Dispatch.Mediation
import AlmenaMediator.Dispatch.Pickup

/-!
# Receiving messages

`dispatch/mod.rs`: unpacks what arrives, runs the protocols addressed to the mediator itself, queues
`forward` payloads and packs the replies.
-/

namespace Dispatch

open Didcomm

variable (prim : Primitives) (mediator : Mediator) (resolver : Resolver)

/-- Idle mediations removed per batch. -/
def cleanupBatch : ℕ := 100

/-- Authcrypts `reply` from the mediator to `recipient`; `forward` wraps it for the recipient's
mediators. -/
def packReply (reply : Message) (recipient : String) (forward : Bool) :
    Task (Option PackedMessage) := do
  let supply : Supply ← call .supply
  match ((reply.withFrom mediator.identity.did).withTo [recipient]).packEncrypted prim resolver
      mediator.identity.secrets supply recipient (some mediator.identity.did) none
      { PackOptions.default with forward := forward } with
  | .ok packed => return some packed
  | .error _ => return none

/-- Queues a reply for a sender that the mediation registered. -/
def queueReply (reply : Message) (sender mediation : String) : Task Unit := do
  let packed ← packReply prim mediator resolver reply sender false
  match packed with
  | none => return ()
  | some packed => do
    let queued ← (queue mediator mediation sender packed.message).run
    match queued with
    | .ok _ => wake mediator mediation
    | .error _ => return ()

/-- Sends a reply to the sender's `DIDCommMessaging` service in the background, if federation is on
and there is one. -/
def relayReply (reply : Message) (sender : String) : Task Unit :=
  if mediator.federation then do
    let packed ← packReply prim mediator resolver reply sender true
    match packed.bind fun p => p.serviceUri.map fun uri => (uri, p.message) with
    | none => return ()
    | some (uri, message) =>
      -- The sender routes through us unregistered.
      if (ownEndpoints mediator).contains uri then return ()
      else call (.spawnDeliver uri message)
  else return ()

/-- Delivers a reply that cannot go back on the connection: into the sender's queue when it is
mediated here, else to its `DIDCommMessaging` service. -/
def sendReply (reply : Message) (sender : String) : Task Unit := do
  let owner : Except Store.StoreError (Option String) ← (store (.mediationOf (didOf sender))).run
  match owner with
  | .ok (some mediation) => queueReply prim mediator resolver reply (didOf sender) mediation
  | .ok none => relayReply prim mediator resolver reply (didOf sender)
  | .error _ => return ()

/-- Whether a reply goes back on the connection: when the request asks for it, which is implied on a
WebSocket. -/
def routesBack (request : Message) (websocket : Bool) : Bool :=
  match (Value.lookup "return_route" request.extraHeaders).bind Value.asStr with
  | some route => route == "all" || route == "thread"
  | none => websocket

/-- Packs `reply` for the sender of `request` to travel back on the same connection when the request
asks for it. Otherwise an authenticated sender gets it through `sendReply`; an anonymous one gets
nothing. -/
def routeBack (request reply : Message) (websocket authenticated : Bool) : Task Outcome :=
  match request.from_ with
  | none => return .accepted
  | some sender =>
    if routesBack request websocket then do
      let packed ← packReply prim mediator resolver reply sender false
      match packed with
      | some packed => return .reply packed.message
      | none => return .accepted
    else if authenticated then do
      sendReply prim mediator resolver reply sender
      return .accepted
    else return .accepted

/-- Whether a message type is of a protocol between a wallet and its mediator. -/
def isWalletType (type_ : String) : Bool :=
  startsWith type_ coordinateMediation || startsWith type_ pickup || startsWith type_ pushFcm ||
    startsWith type_ pushApns

/-- A message of a protocol between a wallet and its mediator. -/
def handleWallet (requester : Option String) (message : Message) (session : Option ℕ) :
    StoreTask Handled :=
  match requester with
  | none => return .problem .unauthenticated
  | some requester => do
    -- The wallet is alive: its mediation is not idle.
    let now : ℕ ← call .now
    store (.touchMediation requester now)
    if startsWith message.type_ pickup then Pickup.handle mediator requester message session
    else if startsWith message.type_ coordinateMediation then
      Mediation.handle prim mediator resolver requester message
    else Devices.handle mediator requester message

/-- Runs the protocol a message belongs to. -/
def handleMessage (requester : Option String) (message : Message) (session : Option ℕ) :
    Handling Handled :=
  if message.type_ = forwardType then do
    forward prim mediator resolver message
    return .nothing
  else if message.type_ = pingType then do
    let response : Option Message ← trustPing message
    match response with
    | some response => return .reply response
    | none => return .nothing
  else if message.type_ = queriesType then do
    let disclosed : Except Problem Message ←
      discoverFeatures message mediator.limits.maxMessageBytes (mediator.pusher.getD [])
    match disclosed with
    | .ok disclose => return .reply disclose
    | .error problem => return .problem problem
  else if message.type_ = problemReportType then return .nothing
  else if isWalletType message.type_ then
    orRefuse (handleWallet prim mediator resolver requester message session)
  else return .problem .unsupportedType

/-- Answers a message with what its handler decided. -/
def answer (message : Message) (handled : Handled) (websocket authenticated : Bool) :
    Task Outcome :=
  match handled with
  | .nothing => return .accepted
  | .reply reply => routeBack prim mediator resolver message reply websocket authenticated
  | .problem problem => do
    let report ← problem.report message
    routeBack prim mediator resolver message report websocket authenticated

/-- Runs the protocol a message belongs to, unless the message has expired. -/
def handleAt (now : ℕ) (requester : Option String) (message : Message) (session : Option ℕ) :
    Handling Handled :=
  if message.isExpiredAt now then return .problem .expired
  else handleMessage prim mediator resolver requester message session

/-- Handles an unpacked message. -/
def handleUnpacked (message : Message) (metadata : UnpackMetadata) (session : Option ℕ) :
    Handling Outcome := do
  -- Unpack guarantees `from` is the authcrypt sender when authenticated.
  let requester := message.from_.filter fun _ => metadata.authenticated
  let now : ℕ ← call .now
  let handled ← handleAt prim mediator resolver now requester message session
  answer prim mediator resolver message handled session.isSome metadata.authenticated

/-- `Mediator::handle`: handles one envelope. `session` is the live-capable connection it came on (a
WebSocket), or `none` for HTTP. -/
def handle (packed : String) (session : Option ℕ) : Handling Outcome :=
  match unpack prim resolver mediator.identity.secrets packed with
  | .error error => refuse (.unpack error)
  | .ok (message, metadata) =>
    if !metadata.encrypted then
      refuse (.unpack (.malformed "the mediator accepts encrypted messages only"))
    else handleUnpacked prim mediator resolver message metadata session

/-- `Mediator::live_delivery`: packs a live push as a `delivery` for the session's mediation. -/
def liveDelivery (session : ℕ) (queued : Store.Queued) : Task (Option String) := do
  let live : Option String ← call (.liveMediation session)
  match live with
  | none => return none
  | some mediation => do
    let delivery ← newMessage deliveryType (.object [])
    let packed ← packReply prim mediator resolver (Pickup.attach delivery queued) mediation false
    return packed.map PackedMessage.message

/-- Removes idle mediations in at most `batches` batches, until one is not full. Returns how many
went. -/
def removeIdleLoop (cutoff : ℕ) : (batches : ℕ) → StoreTask ℕ
  | 0 => return 0
  | batches + 1 => do
    let removed : List String ← store (.removeIdleMediations cutoff cleanupBatch)
    if removed.length < cleanupBatch then return removed.length
    else do
      let total ← removeIdleLoop cutoff batches
      return removed.length + total

/-- `remove_idle`, in as many batches as it takes. -/
def removeIdle (ttlSecs now batches : ℕ) : StoreTask ℕ :=
  removeIdleLoop (now - ttlSecs) batches

/-! ## What runs in the mediator -/

/-- The tasks of a mediator: those of its connections and those in the background. -/
inductive Job
  /-- A message arrives, on a session or over HTTP. -/
  | receive (resolver : Resolver) (packed : String) (session : Option ℕ)
  /-- A connection takes a live push. -/
  | livePush (resolver : Resolver) (session : ℕ) (queued : Store.Queued)
  | wake (mediation : String)
  | deliver (uri message : String)
  /-- A round of a relay worker. -/
  | retry
  /-- A round of the cleanup, of at most so many batches. -/
  | cleanup (batches : ℕ)

/-- What a job runs. -/
def Job.program : Job → Task Unit
  | .receive resolver packed session => void (handle prim mediator resolver packed session).run
  | .livePush resolver session queued => void (liveDelivery prim mediator resolver session queued)
  | .wake mediation => Push.wakeTask mediator mediation
  | .deliver uri message => Dispatch.deliver prim uri message
  | .retry => do
    let now : ℕ ← call .now
    void (retryDue now).run
  | .cleanup batches =>
    if mediator.limits.mediationTtlSecs = 0 then return ()
    else do
      let now : ℕ ← call .now
      void (removeIdle mediator.limits.mediationTtlSecs now batches).run

end Dispatch
