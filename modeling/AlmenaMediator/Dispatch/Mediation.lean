import AlmenaMediator.Dispatch.Protocols
import AlmenaMediator.Dispatch.Relay

/-!
# Mediation and forward

`dispatch/mediation.rs`: Coordinate Mediation 3.0 (the mediator side) and Routing 2.0 `forward`.
-/

namespace Dispatch

open Didcomm

variable (prim : Primitives) (mediator : Mediator) (resolver : Resolver)

/-- How old a possession proof may be. -/
def proofMaxAgeSecs : ℕ := 300

/-- How far a possession proof may be ahead of our clock. -/
def proofMaxSkewSecs : ℕ := 60

/-- Addition of `u64`s, which wraps. -/
def addU64 (a b : ℕ) : ℕ := (a + b) % 2 ^ 64

/-- Whether a verified proof is from `did`, for this mediator, on behalf of this mediation, and
recent. -/
def checkClaims (requester did : String) (proof : PossessionProof) (now : ℕ) : Except String Unit :=
  if proof.iss ≠ did then .error "proof is for another DID"
  else if proof.aud ≠ mediator.identity.did then .error "proof is for another mediator"
  else if proof.sub ≠ requester then .error "proof is for another mediation"
  else if addU64 proof.iat proofMaxAgeSecs < now ∨ addU64 now proofMaxSkewSecs < proof.iat then
    .error "proof is not recent"
  else .ok ()

/-- A recipient DID other than the mediation's own must come with a proof that the requester
controls it. -/
def checkProof (requester did : String) (update : Value) : Task (Except String Unit) :=
  if !mediator.limits.recipientProof || did == requester then return .ok ()
  else
    match (update.get "proof").bind Value.asStr with
    | none => return .error "no proof"
    | some token =>
      match PossessionProof.unpack prim token resolver with
      | .error _ => return .error "proof does not verify"
      | .ok proof => do
        let now : ℕ ← call .now
        return checkClaims mediator requester did proof now

/-- A DID without fragment, query or path. -/
def isDid (value : String) : Bool :=
  startsWith value "did:" && 4 < value.utf8ByteSize && didOf value == value

/-- Registers or removes one recipient DID. Returns the result to report. -/
def updateRecipient (requester did action : String) (update : Value) : StoreTask String := do
  if !isDid did then return "client_error"
  if action = "add" then
    let proved : Except String Unit ← checkProof prim mediator resolver requester did update
    match proved with
    | .error _ => return "client_error"
    | .ok _ =>
      let result : Store.AddRecipient ←
        store (.addRecipient requester did mediator.limits.maxRecipientDids)
      match result with
      | .added => return "success"
      | .alreadyYours => return "no_change"
      | .takenByOther | .limitReached => return "client_error"
  else if action = "remove" then
    let result : Store.RemoveRecipient ← store (.removeRecipient requester did)
    match result with
    | .removed => return "success"
    | .notRegistered => return "no_change"
    | .notYours => return "client_error"
  else return "client_error"

/-- A string member of an update, or the empty text. -/
def member (name : String) (update : Value) : String :=
  ((update.get name).bind Value.asStr).getD ""

/-- The updates of a `recipient-update`, one after the other. -/
def updateRecipients (requester : String) : List Value → StoreTask (List Value)
  | [] => return []
  | update :: updates => do
    let did := member "recipient_did" update
    let action := member "action" update
    let result ← updateRecipient prim mediator resolver requester did action update
    let rest ← updateRecipients requester updates
    return .object [("recipient_did", .string did), ("action", .string action),
      ("result", .string result)] :: rest

def dids (list : List String) : Value :=
  .array (list.map fun did => .object [("recipient_did", .string did)])

/-- The page of `all` that `paginate` asks for. -/
def page (all : List String) (paginate : Value) : Option Value := do
  let limit ← (paginate.get "limit").bind Value.asU64
  let offset ← (paginate.get "offset").bind Value.asU64
  let offset := min offset all.length
  let page := (all.drop offset).take limit
  return .object [("dids", dids page),
    ("pagination", .object [("count", .ofNat page.length), ("offset", .ofNat offset),
      ("remaining", .ofNat (all.length - offset - page.length))])]

namespace Mediation

/-- `mediate-request`: every request is granted. -/
def grant (requester : String) (message : Message) : StoreTask Handled := do
  let now : ℕ ← call .now
  store (.grantMediation requester now)
  let grant ← newMessage mediateGrant
    (.object [("routing_did", .array [.string mediator.identity.did])])
  return .reply (grant.replyTo message)

/-- `recipient-update`. -/
def update (requester : String) (message : Message) : StoreTask Handled := do
  let mediated : Bool ← store (.hasMediation requester)
  if !mediated then return .problem .noMediation
  match (message.body.get "updates").bind Value.asArray with
  | none => return .problem .invalidBody
  | some updates =>
    let updated ← updateRecipients prim mediator resolver requester updates
    let response ← newMessage recipientUpdateResponse (.object [("updated", .array updated)])
    return .reply (response.replyTo message)

/-- The body of a `recipient`: all DIDs, or the page asked for. -/
def queryBody (all : List String) (message : Message) : Option Value :=
  match message.body.get "paginate" with
  | none => some (.object [("dids", dids all)])
  | some paginate => page all paginate

/-- `recipient-query`. -/
def query (requester : String) (message : Message) : StoreTask Handled := do
  let mediated : Bool ← store (.hasMediation requester)
  if !mediated then return .problem .noMediation
  let all : List String ← store (.recipients requester)
  match queryBody all message with
  | none => return .problem .invalidBody
  | some body =>
    let list ← newMessage recipientType body
    return .reply (list.replyTo message)

/-- Handles a Coordinate Mediation message from an authenticated DID. -/
def handle (requester : String) (message : Message) : StoreTask Handled :=
  if message.type_ = mediateRequest then grant mediator requester message
  else if message.type_ = recipientUpdate then update prim mediator resolver requester message
  else if message.type_ = recipientQuery then query requester message
  else return .problem .unsupportedType

end Mediation

/-! ## Forward -/

/-- Something was queued for the mediation: wakes its devices in the background, unless a live
session will deliver it anyway. -/
def wake (mediation : String) : Task Unit :=
  if mediator.pusher.isSome then do
    let live : Bool ← call (.isLive mediation)
    if live then return () else call (.spawnWake mediation)
  else return ()

/-- Queues one encrypted message for `recipient` of the mediation and pushes it to the mediation's
live sessions. Waking its devices is the caller's. -/
def queue (mediation recipient payload : String) : Handling Unit := do
  let received : ℕ ← call .now
  let id : Option String ←
    orRefuse (store (.enqueue mediation recipient payload received mediator.limits.queue))
  match id with
  | none => refuse .queueFull
  | some id =>
    call (.notify mediation
      { id := id, recipient := recipient, received := received, message := payload })

/-- Queues each payload. -/
def queueEach (mediation recipient : String) : List String → Handling Unit
  | [] => return ()
  | payload :: payloads => do
    queue mediator mediation recipient payload
    queueEach mediation recipient payloads

/-- The encrypted message an attachment of a `forward` carries. -/
def payloadOf (attachment : Attachment) : Except ReceiveError String := do
  let payload ← match attachment.data.json, attachment.data.base64 with
    | some json, _ => pure (prim.value.toText json)
    | none, some base64 =>
      match b64Decode base64 with
      | .error _ => .error (.badForward "attachment is not base64url")
      | .ok bytes =>
        match fromUtf8 bytes with
        | none => .error (.badForward "attachment is not UTF-8")
        | some text => pure text
    | none, none => .error (.badForward "only json and base64 attachments are supported")
  match Jwe.parse prim payload with
  | .error _ => .error (.badForward "attachment is not an encrypted DIDComm message")
  | .ok _ => pure payload

/-- The recipient of a `forward` and its payloads; everything is checked before anything is
queued. -/
def readForward (message : Message) : Except ReceiveError (String × List String) := do
  let next ← match (message.body.get "next").bind Value.asStr with
    | some next => pure next
    | none => .error (.badForward "forward without next")
  let attachments ← match message.attachments.getD [] with
    | [] => .error (.badForward "forward without attachments")
    | attachments => pure attachments
  let payloads ← attachments.mapM (payloadOf prim)
  return (next, payloads)

/-- Routing 2.0: queues each attached message for `next` when it is a recipient DID (or one of its
key ids) registered with this mediator, and relays it to `next`'s own mediator otherwise. -/
def forward (message : Message) : Handling Unit := do
  match readForward prim message with
  | .error error => refuse error
  | .ok (next, payloads) =>
    let mediation : Option String ← orRefuse (store (.mediationOf (didOf next)))
    match mediation with
    | none => relay prim mediator resolver next payloads
    | some mediation =>
      queueEach mediator mediation (didOf next) payloads
      wake mediator mediation

end Dispatch
