import AlmenaMediator.Didcomm.Did.Reading
import Mathlib.Data.List.DropRight

/-!
# `did:peer` numalgo 2

`did/peer.rs`: a DID that lists keys and services in its own text. `peer2` writes it, with the names
of the services' members abbreviated; `resolvePeer2` reads it back as a DID document.
-/

namespace Didcomm

variable (prim : Primitives) (base58 : Base58)

/-- Verification relationship of a key in a `did:peer:2`. -/
inductive Purpose
  | assertion
  /-- Key agreement. -/
  | encryption
  /-- Authentication. -/
  | verification
  | capabilityInvocation
  | capabilityDelegation
  deriving DecidableEq, Repr

namespace Purpose

def code : Purpose → Char
  | assertion => 'A'
  | encryption => 'E'
  | verification => 'V'
  | capabilityInvocation => 'I'
  | capabilityDelegation => 'D'

def fromCode : Char → Option Purpose
  | 'A' => some assertion
  | 'E' => some encryption
  | 'V' => some verification
  | 'I' => some capabilityInvocation
  | 'D' => some capabilityDelegation
  | _ => none

end Purpose

/-! ## Abbreviations -/

/-- Long and short member names (`ABBREVIATIONS`). -/
def abbreviations : List (String × String) :=
  [("type", "t"), ("serviceEndpoint", "s"), ("routingKeys", "r"), ("accept", "a")]

/-- The other form of a member name, if it has one. -/
def swapName (abbreviate : Bool) (name : String) : String :=
  let swapped := abbreviations.findSome? fun (long, short) =>
    if abbreviate then if long = name then some short else none
    else if short = name then some long else none
  swapped.getD name

/-- The other form of the `DIDCommMessaging` type value. -/
def swapType (abbreviate : Bool) (name : String) (v : Value) : Option Value :=
  if name = "t" ∨ name = "type" then
    if abbreviate then if v.asStr = some didcommServiceType then some (.string "dm") else none
    else if v.asStr = some "dm" then some (.string didcommServiceType) else none
  else none

mutual

/-- Recursively swaps the long and short forms of member names and of the `DIDCommMessaging` type
value. -/
def renameKeys (abbreviate : Bool) : Value → Value
  | .object members => .object (renameMembers abbreviate [] members)
  | .array items => .array (renameItems abbreviate items)
  | .null => .null
  | .bool b => .bool b
  | .number n => .number n
  | .string s => .string s

/-- Inserts the members, renamed, into `out`. -/
def renameMembers (abbreviate : Bool) (out : List (String × Value)) :
    List (String × Value) → List (String × Value)
  | [] => out
  | (name, v) :: members =>
    let name := swapName abbreviate name
    let v := (swapType abbreviate name v).getD (renameKeys abbreviate v)
    renameMembers abbreviate (Value.insert name v out) members

def renameItems (abbreviate : Bool) : List Value → List Value
  | [] => []
  | v :: vs => renameKeys abbreviate v :: renameItems abbreviate vs

end

/-! ## Writing -/

/-- A key's element: its purpose and its multikey. -/
def keyElement (key : Purpose × PublicKey) : String :=
  String.singleton key.1.code ++ Multikey.encode base58 key.2

/-- A service's element. -/
def serviceElement (service : Value) : String :=
  "S" ++ b64Encode (prim.value.toVec (renameKeys true service))

/-- Builds a `did:peer:2` from keys (in order: they become `#key-1`, `#key-2`, …) and services. -/
def peer2 (keys : List (Purpose × PublicKey)) (services : List Value) : Result String := do
  let did := keys.foldl (fun did key => did ++ "." ++ keyElement base58 key) "did:peer:2"
  let did := services.foldl (fun did service => did ++ "." ++ serviceElement prim service) did
  pure did

/-! ## Reading -/

/-- Moves a field of a service into its endpoint. -/
def moveField (moved : List (String × Value) × List (String × Value)) (field : String) :
    List (String × Value) × List (String × Value) :=
  match Value.lookup field moved.1 with
  | some v => (Value.swapRemove field moved.1, Value.insert field v moved.2)
  | none => moved

/-- Older peer DIDs put a URI string in `serviceEndpoint` with `routingKeys` and `accept` next to
it; DIDComm v2.0 wants them inside endpoint objects. -/
def normalizeDidcommService : Value → Value
  | .object obj =>
    if (Value.lookup "type" obj).bind Value.asStr ≠ some didcommServiceType then .object obj
    else match Value.lookup "serviceEndpoint" obj with
      | some (.string uri) =>
        let (obj, endpoint) := ["accept", "routingKeys"].foldl moveField
          (obj, [("uri", .string uri)])
        .object (Value.insert "serviceEndpoint" (.object endpoint) obj)
      | _ => .object obj
  | other => other

/-- The id of the service after `n` others, where it has none. -/
def positionalId (n : ℕ) : String := if n = 0 then "#service" else "#service-" ++ toString n

/-- Fills in the id of the service after `n` others. -/
def withServiceId (n : ℕ) : Value → Value
  | .object obj =>
    if Value.containsKey "id" obj then .object obj
    else .object (Value.insert "id" (.string (positionalId n)) obj)
  | other => other

/-- What resolving collects from the elements of a DID. -/
structure Elements where
  vms : List Value
  authentication : List Value
  assertion : List Value
  keyAgreement : List Value
  services : List Value

/-- Adds a key id to the relationship of its purpose, if it has one. -/
def Elements.relate (found : Elements) (purpose : Purpose) (id : Value) : Elements :=
  match purpose with
  | .verification => { found with authentication := found.authentication ++ [id] }
  | .assertion => { found with assertion := found.assertion ++ [id] }
  | .encryption => { found with keyAgreement := found.keyAgreement ++ [id] }
  | .capabilityInvocation | .capabilityDelegation => found

/-- `str::trim_end_matches('=')`. -/
def trimPadding (text : List Char) : List Char := text.rdropWhile (· == '=')

/-- The id of the key after `n` others. -/
def keyId (n : ℕ) : String := "#key-" ++ toString (n + 1)

/-- Reads an element of a `did:peer:2`. -/
def readElement (did : String) (found : Elements) : List Char → Result Elements
  | [] => .error (.malformed "empty did:peer:2 element")
  | 'S' :: value => do
    let bytes ← b64Decode (String.ofList (trimPadding value))
    let service ← ofJson (prim.value.fromSlice bytes)
    let service := normalizeDidcommService (renameKeys false service)
    let service := withServiceId found.services.length service
    pure { found with services := found.services ++ [service] }
  | code :: value => do
    let purpose ← okOr (.malformed ("did:peer:2 purpose " ++ String.singleton code))
      (Purpose.fromCode code)
    let _ ← Multikey.decode prim base58 (String.ofList value) -- fail early on a bad key
    let id := keyId found.vms.length
    let vm : Value := .object [("id", .string id), ("type", .string "Multikey"),
      ("controller", .string did), ("publicKeyMultibase", .string (String.ofList value))]
    pure ({ found with vms := found.vms ++ [vm] }.relate purpose (.string id))

/-- Resolves a `did:peer:2`. -/
def resolvePeer2 (did : String) : Result DidDocument := do
  let elements ← okOr (.didNotFound did) (stripPrefix did "did:peer:2.")
  let found ← (elements.toList.splitOn '.').foldlM
    (readElement prim base58 did) ⟨[], [], [], [], []⟩
  DidDocument.fromJson prim base58 (.object
    [("id", .string did), ("verificationMethod", .array found.vms),
      ("authentication", .array found.authentication), ("assertionMethod", .array found.assertion),
      ("keyAgreement", .array found.keyAgreement), ("service", .array found.services)])

end Didcomm
