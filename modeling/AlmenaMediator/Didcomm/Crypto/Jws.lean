import AlmenaMediator.Didcomm.Crypto.Keys
import AlmenaMediator.Library.Splitting

/-!
# JSON Web Signatures

`crypto/jws.rs`: signed envelopes with a single signature, and the compact JWTs of `from_prior` and
possession proofs.
-/

namespace Didcomm

variable (prim : Primitives)

/-- Media type of a DIDComm signed message. -/
def signedTyp : String := "application/didcomm-signed+json"

def signatureAlg (alg : Option String) : Result String := okOr (.unsupported "key cannot sign") alg

namespace Jws

/-- Signs `payload` as a DIDComm signed message. `kid` goes in both headers. -/
def sign (payload : Bytes) (kid : String) (key : SecretKey) : Result Jws := do
  let alg ← signatureAlg (key.publicKey prim).curve.signatureAlg
  let header : JwsProtectedHeader := { typ := some signedTyp, alg := alg, kid := some kid }
  let protectedText := b64Encode (prim.jwsHeader.toVec header)
  let payload := b64Encode payload
  let signature ← key.sign prim (utf8 (protectedText ++ "." ++ payload))
  pure { payload := payload,
         signatures := [{ «protected» := protectedText, signature := b64Encode signature,
                          header := some kid }] }

/-- Parses a JWS in general or flattened JSON serialization. -/
def parse (json : String) : Result Jws := do
  match ← ofJson (prim.jwsInput (utf8 json)) with
  | .general payload signatures => pure { payload := payload, signatures := signatures }
  | .flattened payload signature => pure { payload := payload, signatures := [signature] }

/-- The one signature DIDComm allows, with its decoded protected header. -/
def single (jws : Jws) : Result (JwsSignature × JwsProtectedHeader) :=
  match jws.signatures with
  | [signature] => do
    let header ← ofJson (prim.jwsHeader.fromSlice (← b64Decode signature.protected))
    pure (signature, header)
  | _ => .error (.malformed "a signed message must carry exactly one signature")

def protectedHeader (jws : Jws) : Result JwsProtectedHeader := do
  let (_, header) ← jws.single prim
  pure header

/-- The signer's key id: from the protected header if there, else from the unprotected one. If both
are present they must agree. -/
def signerKid (jws : Jws) : Result String := do
  let (signature, header) ← jws.single prim
  match header.kid, signature.header with
  | some a, some b =>
    if a ≠ b then .error (.inconsistent "JWS kid headers differ") else pure a
  | some kid, none | none, some kid => pure kid
  | none, none => .error (.malformed "JWS without kid")

/-- Checks the signature with `key` and returns the decoded payload. The header `alg` must be the
one the key's curve signs with. -/
def verify (jws : Jws) (key : PublicKey) : Result Bytes := do
  let (signature, header) ← jws.single prim
  let alg ← signatureAlg key.curve.signatureAlg
  if header.alg ≠ alg then
    .error (.inconsistent
      ("JWS alg " ++ header.alg ++ " does not match a " ++ key.curve.jwkCrv ++ " key"))
  key.verify prim (utf8 (signature.protected ++ "." ++ jws.payload))
    (← b64Decode signature.signature)
  b64Decode jws.payload

def toJson (jws : Jws) : String := prim.jwsText jws

end Jws

/-- A parsed, not yet verified, compact JWT. -/
structure Compact where
  header : JwsProtectedHeader
  payload : Bytes
  signingInput : String
  signature : Bytes
  deriving DecidableEq, Repr

namespace Compact

def parse (token : String) : Result Compact := do
  let (signingInput, signature) ← okOr (.malformed "compact JWS")
    (Splitting.rsplitOnce '.' token.toList)
  let (header, payload) ← okOr (.malformed "compact JWS") (Splitting.splitOnce '.' signingInput)
  let header ← ofJson (prim.jwsHeader.fromSlice (← b64Decode (String.ofList header)))
  let payload ← b64Decode (String.ofList payload)
  let signature ← b64Decode (String.ofList signature)
  pure { header := header, payload := payload, signingInput := String.ofList signingInput,
         signature := signature }

def verify (jwt : Compact) (key : PublicKey) : Result Unit := do
  let alg ← signatureAlg key.curve.signatureAlg
  if jwt.header.alg ≠ alg then .error (.inconsistent "JWT alg does not match the key")
  key.verify prim (utf8 jwt.signingInput) jwt.signature

/-- A verified compact JWT carries a signature the key's check accepts. -/
theorem verify_sound {jwt : Compact} {key : PublicKey} (h : jwt.verify prim key = .ok ()) :
    key.curve.signatureAlg = some jwt.header.alg ∧
      prim.verifies key.curve key.bytes (utf8 jwt.signingInput) jwt.signature := by
  unfold verify signatureAlg at h
  obtain ⟨alg, halg, h⟩ := bind_eq_ok.mp h
  rw [okOr_eq_ok] at halg
  by_cases heq : jwt.header.alg = alg
  · have hv : key.verify prim (utf8 jwt.signingInput) jwt.signature = .ok () := by
      simpa [heq] using h
    exact ⟨by rw [halg, heq], ((PublicKey.verify_eq_ok prim).mp hv).2⟩
  · simp [heq, bind, Except.bind] at h

end Compact

end Didcomm
