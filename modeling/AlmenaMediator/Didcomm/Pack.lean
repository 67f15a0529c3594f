import AlmenaMediator.Didcomm.Crypto.Jwe
import AlmenaMediator.Didcomm.Crypto.Jws
import AlmenaMediator.Didcomm.Did.Document
import AlmenaMediator.Didcomm.Message

/-!
# Packing messages

`pack.rs`: signing and encrypting messages, and wrapping an encrypted message for the mediators on
its route. What packing draws from its surroundings (message ids, the clock, random numbers) is the
`Supply`, an argument of the model.
-/

namespace Didcomm

variable (prim : Primitives) (resolver : Resolver) (secrets : Secrets)

/-- Options for `Message.packEncrypted`. -/
structure PackOptions where
  /-- Wrap the authcrypt envelope in an anoncrypt one so that `skid` is not visible outside. -/
  protectSender : Bool
  /-- Content encryption for anoncrypt layers. -/
  anoncryptEnc : ContentEncryption
  /-- Wrap the message in `forward` messages for the recipient's mediators. -/
  forward : Bool
  deriving DecidableEq, Repr

/-- `PackOptions::default`. -/
def PackOptions.default : PackOptions where
  protectSender := false
  anoncryptEnc := .a256CbcHs512
  forward := true

/-- Message type of Routing 2.0 `forward` messages. -/
def forwardType : String := "https://didcomm.org/routing/2.0/forward"

/-- A packed encrypted message and the keys used. -/
structure PackedMessage where
  message : String
  /-- Sender key (authcrypt), if any. -/
  fromKid : Option String
  /-- Signing key, if the message was signed first. -/
  signByKid : Option String
  /-- Recipient keys the content key was wrapped to. -/
  toKids : List String
  /-- Where to send the message, if the recipient has a service. -/
  serviceUri : Option String
  /-- Whether the message is wrapped in `forward` messages for mediators. -/
  forwarded : Bool
  deriving DecidableEq, Repr

/-- What successive calls get from the surroundings while packing. -/
structure Supply where
  /-- Message ids (`Message::new`). -/
  uuid : ℕ → String
  /-- Readings of the clock. -/
  now : ℕ → ℕ
  /-- Draws of the random number generator. -/
  draw : ℕ → Random

/-! ## Keys -/

/-- The recipient's `keyAgreement` keys usable for DIDComm: just `to_` if it is a key id, else all
of them. -/
def keyAgreementKeys (doc : DidDocument) (to_ : String) : Result (List Recipient) := do
  let keys ← if containsChar to_ '#' then do
      let key ← doc.keyAgreementKey to_
      pure [⟨to_, key⟩]
    else
      pure ((doc.keyAgreementMethods.filter fun m => m.key.curve.isKeyAgreement).map fun m =>
        ⟨m.id, m.key⟩)
  if keys = [] then .error (.noCompatibleKeys (to_ ++ " has no keyAgreement keys"))
  pure keys

/-- A message is encrypted to at least one key: the one that is named, or all that are usable. -/
theorem keyAgreementKeys_cases {doc : DidDocument} {to_ : String} {keys : List Recipient}
    (h : keyAgreementKeys doc to_ = .ok keys) :
    keys ≠ [] ∧ ((∃ key, doc.keyAgreementKey to_ = .ok key ∧ keys = [⟨to_, key⟩]) ∨
      keys = (doc.keyAgreementMethods.filter fun m => m.key.curve.isKeyAgreement).map fun m =>
        ⟨m.id, m.key⟩) := by
  -- both branches end in the same check that there is a key
  have hguard : ∀ found : List Recipient, (if found = [] then do
      Except.error (Error.noCompatibleKeys (to_ ++ " has no keyAgreement keys"))
      pure found else pure found : Result (List Recipient)) = .ok keys →
        keys ≠ [] ∧ keys = found := by
    intro found hfound
    obtain ⟨hne, hfound⟩ := guard_eq_ok.mp hfound
    obtain rfl := pure_eq_ok.mp hfound
    exact ⟨hne, rfl⟩
  rw [keyAgreementKeys] at h
  split_ifs at h
  · obtain ⟨key, hkey, h⟩ := bind_eq_ok.mp h
    obtain ⟨hne, hkeys⟩ := hguard [⟨to_, key⟩] h
    exact ⟨hne, .inl ⟨key, hkey, hkeys⟩⟩
  · obtain ⟨found, hfound, h⟩ := bind_eq_ok.mp h
    obtain rfl := pure_eq_ok.mp hfound
    exact (hguard _ h).imp_right .inr

/-- The keys on the curve of the first one. -/
def onFirstCurve (keys : List Recipient) : List Recipient :=
  keys.filter fun r => keys.head?.map (·.key.curve) == some r.key.curve

/-- The key ids to try as `whom`: just `whom` if it is a key id, which must be `listed`, else
all. -/
def candidateKids (lookup : String → Result PublicKey) (listed : List String) (whom : String) :
    Result (List String) :=
  if containsChar whom '#' then do
    let _ ← lookup whom
    pure [whom]
  else .ok listed

/-- The first of the sender's key ids we hold a secret for that shares a curve with at least one
recipient key, and those recipient keys. -/
def authcryptKeysIn (from_ : String) (recipientKeys : List Recipient) :
    List String → Result (Sender × List Recipient)
  | [] => .error (.noCompatibleKeys
      ("no key of " ++ from_ ++ " we hold shares a curve with the recipient"))
  | kid :: kids => do
    match ← secrets kid with
    | none => authcryptKeysIn from_ recipientKeys kids
    | some secret =>
      let matching := recipientKeys.filter fun r => r.key.curve == secret.curve
      if matching = [] then authcryptKeysIn from_ recipientKeys kids
      else pure (⟨kid, secret⟩, matching)

def findAuthcryptKeys (senderDoc : DidDocument) (from_ : String) (recipientKeys : List Recipient) :
    Result (Sender × List Recipient) := do
  let kids ← candidateKids senderDoc.keyAgreementKey senderDoc.keyAgreement from_
  authcryptKeysIn secrets from_ recipientKeys kids

/-- The first of the signer's key ids we hold a secret for and that can sign. -/
def signingKeyIn (signBy : String) : List String → Result (String × SecretKey)
  | [] => .error (.secretNotFound ("signing key for " ++ signBy))
  | kid :: kids => do
    match ← secrets kid with
    | some secret =>
      if secret.curve.signatureAlg.isSome then pure (kid, secret) else signingKeyIn signBy kids
    | none => signingKeyIn signBy kids

/-- The signing key for `signBy`, a DID or one of its `authentication` key ids. -/
def findSigningKey (signBy : String) : Result (String × SecretKey) := do
  let doc ← resolver (didOf signBy)
  let kids ← candidateKids doc.authenticationKey doc.authentication signBy
  signingKeyIn secrets signBy kids

/-! ## Routing -/

def firstEndpointOf : List Service → Result (Option DidCommEndpoint)
  | [] => .ok none
  | service :: services => do
    let endpoints ← service.didcommEndpoints
    match endpoints.find? fun e => e.accept.isEmpty || e.accept.contains "didcomm/v2" with
    | some endpoint => pure (some endpoint)
    | none => firstEndpointOf services

/-- The first endpoint of a document that accepts DIDComm v2. -/
def firstDidcommEndpoint (doc : DidDocument) : Result (Option DidCommEndpoint) :=
  firstEndpointOf doc.didcommServices

/-- Where a message goes and the hops it is wrapped for, first hop first. -/
structure Route where
  uri : String
  routingKeys : List String
  deriving DecidableEq, Repr

/-- The transport URI and routing keys of `to_`'s `DIDCommMessaging` service. If its `uri` is a DID,
that DID is a mediator: it goes first in the routing keys, and the URI comes from its own
service. -/
def routePlan (to_ : String) : Result (Option Route) := do
  let doc ← resolver (didOf to_)
  match ← firstDidcommEndpoint doc with
  | none => pure none
  | some endpoint =>
    if startsWith endpoint.uri "did:" then do
      let mediator ← resolver endpoint.uri
      let mediatorEndpoint ← okOr
        (.noCompatibleKeys ("mediator " ++ mediator.id ++ " has no DIDComm service"))
        (← firstDidcommEndpoint mediator)
      if startsWith mediatorEndpoint.uri "did:" then
        .error (.unsupported "a mediator whose endpoint is another DID")
      pure (some ⟨mediatorEndpoint.uri, mediator.id :: endpoint.routingKeys⟩)
    else pure (some ⟨endpoint.uri, endpoint.routingKeys⟩)

/-- A message made ready for transport by `route`. -/
structure Routed where
  /-- The message, wrapped in `forward`s if the route has hops. -/
  message : String
  /-- Where to send it; `none` if the recipient has no DIDComm service. -/
  serviceUri : Option String
  /-- The hop the outermost `forward` is encrypted to; `none` when nothing was wrapped. -/
  firstHop : Option String
  deriving DecidableEq, Repr

/-- The `forward` that asks `hop` to pass `envelope` on to `next`. -/
def forwardMessage (supply : Supply) (i : ℕ) (hop next : String) (envelope : Value) : Message :=
  ((Message.new (supply.uuid i) (supply.now i) forwardType
      (.object [("next", .string next)])).withTo [didOf hop]).attachment
    ((Attachment.ofJson envelope).withMediaType encryptedTyp)

/-- Wraps `packed` in a `forward` to `next`, encrypted to the keys of `hop`. -/
def wrapForHop (supply : Supply) (enc : ContentEncryption) (i : ℕ) (hop next packed : String) :
    Result String := do
  let envelope ← ofJson (prim.value.fromStr packed)
  let forward := forwardMessage supply i hop next envelope
  let hopDoc ← resolver (didOf hop)
  let keys ← keyAgreementKeys hopDoc hop
  let jwe ← Jwe.anoncrypt prim (supply.draw i) (utf8 (forward.toPlaintextJson prim))
    (onFirstCurve keys) enc
  pure (jwe.toJson prim)

/-- Wraps `packed` for each hop, from the last to the first; the last hop's `next` is the recipient,
every other's the hop after it. -/
def wrapForHops (supply : Supply) (enc : ContentEncryption) (recipient : String) :
    List String → String → Result String
  | [], packed => .ok packed
  | hop :: hops, packed => do
    let inner ← wrapForHops supply enc recipient hops packed
    wrapForHop prim resolver supply enc hops.length hop (hops.head?.getD recipient) inner

/-- Wraps an already encrypted message for each routing hop of `to_`'s `DIDCommMessaging`
service. -/
def route (supply : Supply) (packed to_ : String) (enc : ContentEncryption) : Result Routed := do
  match ← routePlan resolver to_ with
  | none => pure { message := packed, serviceUri := none, firstHop := none }
  | some plan =>
    let message ← wrapForHops prim resolver supply enc (didOf to_) plan.routingKeys packed
    pure { message := message, serviceUri := some plan.uri, firstHop := plan.routingKeys.head? }

/-! ## Packing -/

namespace Message

/-- Signs the message. Returns the JWS and the signing key id. -/
def packSigned (m : Message) (signBy : String) : Result (String × String) := do
  m.validate
  if m.from_ ≠ some (didOf signBy) then
    .error (.inconsistent "the signer must be the message's from")
  let (kid, key) ← findSigningKey resolver secrets signBy
  let jws ← Jws.sign prim (utf8 (m.toPlaintextJson prim)) kid key
  pure (jws.toJson prim, kid)

/-- What gets encrypted: the plaintext, or the signed message if a signer is given. -/
def payloadToEncrypt (m : Message) (signBy : Option String) : Result (String × Option String) :=
  match signBy with
  | some signBy => do
    if m.to_ = none then .error (.malformed "a signed and encrypted message needs to")
    let (jws, kid) ← m.packSigned prim resolver secrets signBy
    pure (jws, some kid)
  | none => .ok (m.toPlaintextJson prim, none)

/-- Encrypts `payload` to the recipient's keys. Returns the envelope, the sender's key id and the
recipients' key ids. -/
def encryptPayload (supply : Supply) (payload : String) (from_ : Option String)
    (recipientKeys : List Recipient) (options : PackOptions) :
    Result (String × Option String × List String) :=
  match from_ with
  | some from_ => do
    let senderDoc ← resolver (didOf from_)
    let (sender, recipients) ← findAuthcryptKeys secrets senderDoc from_ recipientKeys
    let jwe ← Jwe.authcrypt prim (supply.draw 0) (utf8 payload) sender recipients
    let inner := jwe.toJson prim
    let outer ← if options.protectSender then do
        let jwe ← Jwe.anoncrypt prim (supply.draw 1) (utf8 inner) recipients options.anoncryptEnc
        pure (jwe.toJson prim)
      else pure inner
    pure (outer, some sender.kid, recipients.map (·.kid))
  | none => do
    let recipients := onFirstCurve recipientKeys
    let jwe ← Jwe.anoncrypt prim (supply.draw 0) (utf8 payload) recipients options.anoncryptEnc
    pure (jwe.toJson prim, none, recipients.map (·.kid))

/-- The rest of a supply, for the routing that follows the two draws of encryption. -/
def restOf (supply : Supply) : Supply where
  uuid := supply.uuid
  now := supply.now
  draw i := supply.draw (i + 2)

/-- Encrypts the message for `to_` (a DID, or one of its `keyAgreement` key ids). With `from_` it is
authcrypt, without it anoncrypt. With `signBy` it is signed before encryption. -/
def packEncrypted (m : Message) (supply : Supply) (to_ : String) (from_ signBy : Option String)
    (options : PackOptions) : Result PackedMessage := do
  m.validate
  if from_.any fun f => m.from_ != some (didOf f) then
    .error (.inconsistent "the sender must be the message's from")
  if m.to_.any fun recipients => !recipients.contains (didOf to_) then
    .error (.inconsistent "the recipient is not in the message's to")
  let (payload, signByKid) ← m.payloadToEncrypt prim resolver secrets signBy
  let recipientDoc ← resolver (didOf to_)
  let recipientKeys ← keyAgreementKeys recipientDoc to_
  let (message, fromKid, toKids) ←
    encryptPayload prim resolver secrets supply payload from_ recipientKeys options
  if options.forward then do
    let routed ← route prim resolver (restOf supply) message to_ options.anoncryptEnc
    pure { message := routed.message, fromKid := fromKid, signByKid := signByKid, toKids := toKids,
           serviceUri := routed.serviceUri, forwarded := routed.firstHop.isSome }
  else
    pure { message := message, fromKid := fromKid, signByKid := signByKid, toKids := toKids,
           serviceUri := none, forwarded := false }

end Message

end Didcomm
