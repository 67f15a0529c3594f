import AlmenaMediator.Didcomm.Wire

/-!
# DID documents

`did/document.rs`: resolved DID documents with typed keys, key lookup by verification relationship,
and the endpoints of `DIDCommMessaging` services; and the two lookups the crate is given, of
documents (`DidResolver`) and of private keys (`SecretsResolver`), as functions.
-/

namespace Didcomm

/-- A verification method with its key decoded. -/
structure VerificationMethod where
  /-- Absolute DID URL. -/
  id : String
  controller : String
  key : PublicKey
  deriving DecidableEq, Repr

/-- A service entry; `endpoint` is kept as JSON. -/
structure Service where
  /-- Absolute DID URL. -/
  id : String
  kind : String
  endpoint : Value
  deriving DecidableEq, Repr

/-- Service type of DIDComm v2 endpoints. -/
def didcommServiceType : String := "DIDCommMessaging"

/-- One `serviceEndpoint` object of a `DIDCommMessaging` service. -/
structure DidCommEndpoint where
  uri : String
  accept : List String
  routingKeys : List String
  deriving DecidableEq, Repr

/-- Reads a JSON array of strings, as serde does for `Vec<String>`. -/
def stringsOfValue : Value → Except String (List String)
  | .array items => items.mapM fun item =>
    match item.asStr with
    | some s => .ok s
    | none => .error "invalid type: expected a string"
  | _ => .error "invalid type: expected a sequence"

/-- `#[serde(default)]` on a list of strings. -/
def stringsOrDefault : Option Value → Except String (List String)
  | some v => stringsOfValue v
  | none => .ok []

/-- The derived reader of `DidCommEndpoint`: an object with the fields' names, or the fields in
order. -/
def DidCommEndpoint.ofValue : Value → Except String DidCommEndpoint
  | .object members => do
    let uri ← match Value.lookup "uri" members with
      | some (.string uri) => .ok uri
      | some _ => .error "invalid type: expected a string"
      | none => .error "missing field uri"
    let accept ← stringsOrDefault (Value.lookup "accept" members)
    let routingKeys ← stringsOrDefault (Value.lookup "routingKeys" members)
    pure { uri := uri, accept := accept, routingKeys := routingKeys }
  | .array (.string uri :: rest) =>
    match rest with
    | [] => pure { uri := uri, accept := [], routingKeys := [] }
    | [accept] => do pure { uri := uri, accept := ← stringsOfValue accept, routingKeys := [] }
    | [accept, routingKeys] => do
      pure { uri := uri, accept := ← stringsOfValue accept,
             routingKeys := ← stringsOfValue routingKeys }
    | _ => .error "trailing characters"
  | _ => .error "invalid type: expected struct DidCommEndpoint"

/-- The endpoints of a `DIDCommMessaging` service, in the owner's order of preference. Empty for
other service types. -/
def Service.didcommEndpoints (service : Service) : Result (List DidCommEndpoint) :=
  if service.kind ≠ didcommServiceType then .ok []
  else match service.endpoint with
    | .array items => items.mapM fun v => ofJson (DidCommEndpoint.ofValue v)
    | .object members => do pure [← ofJson (DidCommEndpoint.ofValue (.object members))]
    | _ => .error (.malformed "DIDCommMessaging serviceEndpoint")

/-- A resolved DID document. -/
structure DidDocument where
  id : String
  alsoKnownAs : List String
  verificationMethod : List VerificationMethod
  /-- Absolute DID URLs of methods in `verificationMethod`. -/
  authentication : List String
  assertionMethod : List String
  keyAgreement : List String
  service : List Service
  deriving DecidableEq, Repr

namespace DidDocument

def method (doc : DidDocument) (id : String) : Option VerificationMethod :=
  doc.verificationMethod.find? fun m => m.id == id

/-- Methods listed under `keyAgreement`, in document order. -/
def keyAgreementMethods (doc : DidDocument) : List VerificationMethod :=
  doc.keyAgreement.filterMap doc.method

/-- The key of `kid` if it is listed in a verification relationship of this document. -/
def keyIn (doc : DidDocument) (listed : List String) (relationship kid : String) :
    Result PublicKey :=
  if ¬ kid ∈ listed then .error (.didUrlNotFound (kid ++ " (" ++ relationship ++ ")"))
  else okOr (.didUrlNotFound kid) ((doc.method kid).map VerificationMethod.key)

/-- The key of `kid` if it is a `keyAgreement` method of this document. -/
def keyAgreementKey (doc : DidDocument) (kid : String) : Result PublicKey :=
  doc.keyIn doc.keyAgreement "keyAgreement" kid

/-- The key of `kid` if it is an `authentication` method of this document. -/
def authenticationKey (doc : DidDocument) (kid : String) : Result PublicKey :=
  doc.keyIn doc.authentication "authentication" kid

def didcommServices (doc : DidDocument) : List Service :=
  doc.service.filter fun s => s.kind == didcommServiceType

/-- `doc` lists `kid` in a relationship and holds `key` for it. -/
structure Holds (doc : DidDocument) (listed : List String) (kid : String) (key : PublicKey) :
    Prop where
  /-- The relationship names the key id. -/
  mem : kid ∈ listed
  /-- The first verification method of that id has the key. -/
  method : (doc.method kid).map VerificationMethod.key = some key

/-- A key is found in a relationship exactly when it is listed there and the document has it. -/
theorem keyIn_eq_ok {doc : DidDocument} {listed : List String} {relationship kid : String}
    {key : PublicKey} : doc.keyIn listed relationship kid = .ok key ↔ doc.Holds listed kid key := by
  unfold keyIn
  rw [guard_eq_ok, not_not, okOr_eq_ok]
  exact ⟨fun h => ⟨h.1, h.2⟩, fun h => ⟨h.mem, h.method⟩⟩

end DidDocument

/-- Resolves DIDs to DID documents. -/
abbrev Resolver := String → Result DidDocument

/-- Looks up our private keys by key id; `none` when we hold no secret for it. -/
abbrev Secrets := String → Result (Option SecretKey)

end Didcomm
