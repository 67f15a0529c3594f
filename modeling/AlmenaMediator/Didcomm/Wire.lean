import AlmenaMediator.Didcomm.Json

/-!
# Wire types

The structs the DIDComm crate reads from and writes to JSON: keys (`jwk.rs`, `crypto/keys.rs`),
encrypted envelopes (`crypto/jwe.rs`), signed envelopes (`crypto/jws.rs`), plaintext messages
(`message.rs`) and the claims of its two JWTs (`from_prior.rs`, `possession.rs`).
-/

namespace Didcomm

/-! ## Keys -/

/-- The curves DIDComm v2.0 uses. -/
inductive Curve
  | ed25519
  | x25519
  | p256
  | p384
  | p521
  | secp256k1
  deriving DecidableEq, Repr

namespace Curve

/-- Parses the JWK `crv` value. -/
def fromJwkCrv : String → Result Curve
  | "Ed25519" => .ok ed25519
  | "X25519" => .ok x25519
  | "P-256" => .ok p256
  | "P-384" => .ok p384
  | "P-521" => .ok p521
  | "secp256k1" => .ok secp256k1
  | other => .error (.unsupported ("curve " ++ other))

/-- The JWK `crv` value. -/
def jwkCrv : Curve → String
  | ed25519 => "Ed25519"
  | x25519 => "X25519"
  | p256 => "P-256"
  | p384 => "P-384"
  | p521 => "P-521"
  | secp256k1 => "secp256k1"

/-- The JWK `kty` value. -/
def jwkKty : Curve → String
  | ed25519 | x25519 => "OKP"
  | _ => "EC"

/-- Whether DIDComm uses this curve for ECDH key agreement. -/
def isKeyAgreement : Curve → Bool
  | x25519 | p256 | p384 | p521 => true
  | ed25519 | secp256k1 => false

/-- The JWS `alg` for signatures made with this curve, if it signs. -/
def signatureAlg : Curve → Option String
  | ed25519 => some "EdDSA"
  | p256 => some "ES256"
  | secp256k1 => some "ES256K"
  | _ => none

/-- Length in bytes of a private scalar and of each public coordinate. -/
def fieldLen : Curve → ℕ
  | p384 => 48
  | p521 => 66
  | _ => 32

/-- Every curve is read back from its JWK name. -/
@[simp] theorem fromJwkCrv_jwkCrv (c : Curve) : fromJwkCrv c.jwkCrv = .ok c := by
  cases c <;> rfl

end Curve

/-- A public key: its curve and its raw bytes (the 32-byte key, or the compressed SEC1 point). -/
structure PublicKey where
  curve : Curve
  bytes : Bytes
  deriving DecidableEq, Repr

/-- A private key: its curve and its raw bytes (seed for Ed25519, scalar otherwise). -/
structure SecretKey where
  curve : Curve
  bytes : Bytes
  deriving DecidableEq, Repr

/-- A JWK as it appears on the wire; `d` is present only for private keys. -/
structure Jwk where
  kty : String
  crv : String
  x : String
  y : Option String
  d : Option String
  kid : Option String
  deriving DecidableEq, Repr

/-! ## Encrypted envelopes -/

/-- JWE content encryption algorithms DIDComm allows. -/
inductive ContentEncryption
  | a256CbcHs512
  | a256Gcm
  | xc20p
  deriving DecidableEq, Repr

/-- Key-wrapping algorithm (JWE `alg`). -/
inductive KeyWrap
  /-- Anoncrypt. -/
  | ecdhEsA256Kw
  /-- Authcrypt. -/
  | ecdh1PuA256Kw
  deriving DecidableEq, Repr

/-- The `alg` text, as the KDF binds it. -/
def KeyWrap.name : KeyWrap → String
  | ecdhEsA256Kw => "ECDH-ES+A256KW"
  | ecdh1PuA256Kw => "ECDH-1PU+A256KW"

/-- A recipient of a JWE: its key id (`header.kid`) and its wrapped content key. -/
structure JweRecipient where
  kid : String
  encryptedKey : String
  deriving DecidableEq, Repr

/-- A JWE in general JSON serialization. -/
structure Jwe where
  «protected» : String
  recipients : List JweRecipient
  iv : String
  ciphertext : String
  tag : String
  deriving DecidableEq, Repr

/-- The decoded protected header of a JWE. -/
structure JweProtectedHeader where
  typ : Option String
  alg : KeyWrap
  enc : ContentEncryption
  epk : Jwk
  skid : Option String
  apu : Option String
  apv : String
  deriving DecidableEq, Repr

/-! ## Signed envelopes -/

/-- One signature of a JWS; `header` is the key id of its unprotected header. -/
structure JwsSignature where
  «protected» : String
  signature : String
  header : Option String
  deriving DecidableEq, Repr

/-- A JWS in general JSON serialization. -/
structure Jws where
  payload : String
  signatures : List JwsSignature
  deriving DecidableEq, Repr

/-- The two JSON serializations accepted on input. -/
inductive JwsInput
  | general (payload : String) (signatures : List JwsSignature)
  | flattened (payload : String) (signature : JwsSignature)
  deriving DecidableEq, Repr

/-- The decoded protected header of a JWS. -/
structure JwsProtectedHeader where
  typ : Option String
  alg : String
  kid : Option String
  deriving DecidableEq, Repr

/-! ## Messages -/

/-- The `data` of an attachment. -/
structure AttachmentData where
  jws : Option Value
  hash : Option String
  links : Option (List String)
  base64 : Option String
  json : Option Value
  deriving DecidableEq

/-- An attachment. -/
structure Attachment where
  id : Option String
  description : Option String
  filename : Option String
  mediaType : Option String
  format : Option String
  lastmodTime : Option ℕ
  byteCount : Option ℕ
  data : AttachmentData
  deriving DecidableEq

/-- A DIDComm plaintext message; headers it does not name are kept in `extraHeaders`. -/
structure Message where
  id : String
  type_ : String
  typ : Option String
  from_ : Option String
  to_ : Option (List String)
  thid : Option String
  pthid : Option String
  createdTime : Option ℕ
  expiresTime : Option ℕ
  body : Value
  attachments : Option (List Attachment)
  fromPrior : Option String
  extraHeaders : List (String × Value)
  deriving DecidableEq

/-! ## JWT claims -/

/-- Claims of a `from_prior` JWT: `iss` is the prior DID, `sub` the new one. -/
structure FromPrior where
  iss : String
  sub : String
  aud : Option String
  exp : Option ℕ
  nbf : Option ℕ
  iat : Option ℕ
  jti : Option String
  deriving DecidableEq, Repr

/-- Claims of a possession proof. -/
structure PossessionProof where
  /-- The DID whose control is proven; the signer. -/
  iss : String
  /-- Who the proof is for. -/
  aud : String
  /-- On whose behalf. -/
  sub : String
  /-- When it was signed (epoch seconds). -/
  iat : ℕ
  deriving DecidableEq, Repr

end Didcomm
