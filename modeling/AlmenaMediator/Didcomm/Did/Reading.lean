import AlmenaMediator.Didcomm.Did.Document
import AlmenaMediator.Didcomm.Did.Multikey

/-!
# Reading and writing DID documents

`DidDocument::from_json` and `to_json` (`did/document.rs`). Verification methods may be embedded in
relationships or referenced, and relative references are made absolute. The lists that `from_json`
pushes to are what its helpers return here.
-/

namespace Didcomm

variable (prim : Primitives) (base58 : Base58)

/-- A string member that may be absent or `null`. -/
def Jwk.optional (name : String) (members : List (String × Value)) :
    Except String (Option String) :=
  match Value.lookup name members with
  | some (.string s) => .ok (some s)
  | some .null | none => .ok none
  | some _ => .error "invalid type: expected a string"

/-- A string member. -/
def Jwk.required (name : String) (members : List (String × Value)) : Except String String :=
  match Value.lookup name members with
  | some (.string s) => .ok s
  | some _ => .error "invalid type: expected a string"
  | none => .error ("missing field " ++ name)

/-- The derived reader of `Jwk` for objects. -/
def Jwk.ofMembers (members : List (String × Value)) : Except String Jwk := do
  pure { kty := ← Jwk.required "kty" members, crv := ← Jwk.required "crv" members,
         x := ← Jwk.required "x" members, y := ← Jwk.optional "y" members,
         d := ← Jwk.optional "d" members, kid := ← Jwk.optional "kid" members }

/-- An item of a sequence that holds an optional string. -/
def Jwk.item : Value → Except String (Option String)
  | .string s => .ok (some s)
  | .null => .ok none
  | _ => .error "invalid type: expected a string"

/-- The derived reader of `Jwk`: an object with the fields' names, or the fields in order. -/
def Jwk.ofValue : Value → Except String Jwk
  | .object members => Jwk.ofMembers members
  | .array (.string kty :: .string crv :: .string x :: rest) => do
    let rest ← rest.mapM Jwk.item
    match rest with
    | [] => pure ⟨kty, crv, x, none, none, none⟩
    | [y] => pure ⟨kty, crv, x, y, none, none⟩
    | [y, d] => pure ⟨kty, crv, x, y, d, none⟩
    | [y, d, kid] => pure ⟨kty, crv, x, y, d, kid⟩
    | _ => .error "trailing characters"
  | _ => .error "invalid type: expected struct Jwk"

namespace DidDocument

/-- The items of a value, none when it is absent or no array (`array`). -/
def items (v : Option Value) : List Value := (v.bind Value.asArray).getD []

def stringList (v : Option Value) : List String := (items v).filterMap Value.asStr

/-- Makes a relative reference absolute. -/
def absolute (did id : String) : String := if startsWith id "#" then did ++ id else id

/-- The key of a verification method; `none` when its format is not supported. -/
def methodKey (vm : Value) : Result (Option PublicKey) :=
  let field name := (vm.get name).bind Value.asStr
  match vm.get "publicKeyJwk" with
  | some jwk => do
    let jwk ← ofJson (Jwk.ofValue jwk)
    let key ← PublicKey.fromJwk prim jwk
    pure (some key)
  | none =>
    match field "publicKeyMultibase", field "publicKeyBase58" with
    | some multibase, _ => do
      let key ← Multikey.decode prim base58 multibase
      pure (some key)
    | none, some text =>
      let curve := match (field "type").getD "" with
        | "Ed25519VerificationKey2018" => some Curve.ed25519
        | "X25519KeyAgreementKey2019" => some Curve.x25519
        | _ => none
      match curve with
      | some curve => do
        let raw ← okOr (.malformed "publicKeyBase58") (base58.decode text)
        let key ← PublicKey.fromBytes prim curve raw
        pure (some key)
      | none => .ok none
    | none, none => .ok none

def parseMethod (did : String) (vm : Value) : Result (Option VerificationMethod) := do
  let field name := (vm.get name).bind Value.asStr
  let id ← okOr (.malformed "verification method without id") (field "id")
  match ← methodKey prim base58 vm with
  | some key =>
    pure (some { id := absolute did id, controller := (field "controller").getD did, key := key })
  | none => pure none

/-- The methods a document lists; those in other formats are skipped. -/
def parseMethods (did : String) : List Value → Result (List VerificationMethod)
  | [] => .ok []
  | vm :: vms => do
    let method ← parseMethod prim base58 did vm
    let methods ← parseMethods did vms
    pure (method.toList ++ methods)

/-- References become absolute ids; embedded methods are added to the document's methods (unless
already there) and referenced. Returns the ids and the methods. -/
def parseRelationship (did : String) :
    List Value → List VerificationMethod → Result (List String × List VerificationMethod)
  | [], methods => .ok ([], methods)
  | .string reference :: entries, methods => do
    let (ids, methods) ← parseRelationship did entries methods
    pure (absolute did reference :: ids, methods)
  | .object members :: entries, methods => do
    match ← parseMethod prim base58 did (.object members) with
    | some method =>
      let methods := if methods.any fun m => m.id == method.id then methods else methods ++ [method]
      let (ids, methods) ← parseRelationship did entries methods
      pure (method.id :: ids, methods)
    | none => parseRelationship did entries methods
  | _ :: _, _ => .error (.malformed "verification relationship entry")

/-- The service at a position of a document. A single endpoint object of a `DIDCommMessaging`
service is wrapped in a list. -/
def parseService (did : String) (i : ℕ) (service : Value) : Result Service := do
  let kind ← okOr (.malformed "service without type") ((service.get "type").bind Value.asStr)
  let id := ((service.get "id").bind Value.asStr).getD ("#service-" ++ toString i)
  let endpoint := (service.get "serviceEndpoint").getD .null
  let endpoint := if kind = didcommServiceType ∧
    endpoint.isObject then .array [endpoint] else endpoint
  pure { id := absolute did id, kind := kind, endpoint := endpoint }

def parseServices (did : String) (i : ℕ) : List Value → Result (List Service)
  | [] => .ok []
  | service :: services => do
    let service ← parseService did i service
    let services ← parseServices did (i + 1) services
    pure (service :: services)

/-- Reads a DID document from JSON. -/
def fromJson (value : Value) : Result DidDocument := do
  let obj ← okOr (.malformed "DID document is not an object") value.asObject
  let did ← okOr (.malformed "DID document without id")
    ((Value.lookup "id" obj).bind Value.asStr)
  let methods ← parseMethods prim base58 did (items (Value.lookup "verificationMethod" obj))
  let (authentication, methods) ←
    parseRelationship prim base58 did (items (Value.lookup "authentication" obj)) methods
  let (assertionMethod, methods) ←
    parseRelationship prim base58 did (items (Value.lookup "assertionMethod" obj)) methods
  let (keyAgreement, methods) ←
    parseRelationship prim base58 did (items (Value.lookup "keyAgreement" obj)) methods
  let service ← parseServices did 0 (items (Value.lookup "service" obj))
  pure { id := did, alsoKnownAs := stringList (Value.lookup "alsoKnownAs" obj),
         verificationMethod := methods, authentication := authentication,
         assertionMethod := assertionMethod, keyAgreement := keyAgreement, service := service }

variable {prim base58} in
/-- References are read one by one. -/
theorem parseRelationship_strings {did : String} (ids : List String)
    (methods : List VerificationMethod) :
    parseRelationship prim base58 did (ids.map Value.string) methods =
      .ok (ids.map (absolute did), methods) := by
  induction ids with
  | nil => rfl
  | cons id ids ih => exact bind_eq_ok.mpr ⟨_, ih, rfl⟩

/-! ## Writing -/

/-- A JWK as JSON; what it does not have is left out. -/
def jwkValue (jwk : Jwk) : Value :=
  .object ([("kty", .string jwk.kty), ("crv", .string jwk.crv), ("x", .string jwk.x)] ++
    (jwk.y.toList.map fun y => ("y", .string y)) ++ (jwk.d.toList.map fun d => ("d", .string d)) ++
    (jwk.kid.toList.map fun kid => ("kid", .string kid)))

def strings (items : List String) : Value := .array (items.map .string)

/-- A member that is left out when it is an empty list. -/
def unlessEmpty (name : String) (items : List Value) : List (String × Value) :=
  if items = [] then [] else [(name, .array items)]

/-- Writes the document as JSON, with every key as a `JsonWebKey2020` method and relationships as
references. -/
def toJson (doc : DidDocument) : Value :=
  let methods := doc.verificationMethod.map fun m => Value.object
    [("id", .string m.id), ("type", .string "JsonWebKey2020"), ("controller", .string m.controller),
      ("publicKeyJwk", jwkValue (m.key.toJwk prim))]
  let services := doc.service.map fun s => Value.object
    [("id", .string s.id), ("type", .string s.kind), ("serviceEndpoint", s.endpoint)]
  .object ([("@context", strings ["https://www.w3.org/ns/did/v1",
      "https://w3id.org/security/suites/jws-2020/v1"]), ("id", .string doc.id)] ++
    unlessEmpty "alsoKnownAs" (doc.alsoKnownAs.map .string) ++
    [("verificationMethod", .array methods)] ++
    unlessEmpty "authentication" (doc.authentication.map .string) ++
    unlessEmpty "assertionMethod" (doc.assertionMethod.map .string) ++
    unlessEmpty "keyAgreement" (doc.keyAgreement.map .string) ++
    unlessEmpty "service" services)

end DidDocument

end Didcomm
