import AlmenaMediator.Didcomm.Crypto.Jws
import AlmenaMediator.Didcomm.Did.Document

/-!
# DID rotation and possession proofs

The compact JWTs of the crate, read from a token: the `from_prior` header (`from_prior.rs`) and the
proof that a wallet controls a DID it registers (`possession.rs`). Both must be signed with an
`authentication` key of their issuer.
-/

namespace Didcomm

variable (prim : Primitives)

/-- `token` is a compact JWT signed with the authentication key `kid` of `iss`, in the document the
resolver gives for `iss`. -/
structure SignedBy (resolver : Resolver) (token kid iss : String) (jwt : Compact) : Prop where
  /-- The token parses as this JWT. -/
  parsed : Compact.parse prim token = .ok jwt
  /-- The header names the key. -/
  headerKid : jwt.header.kid = some kid
  /-- The key id belongs to the issuer. -/
  kidOf : didOf kid = iss
  /-- The issuer's document lists the key under `authentication`, and its key, whose curve signs
  with the header's `alg`, accepts the signature. -/
  signature : ∃ doc key, resolver iss = .ok doc ∧ doc.Holds doc.authentication kid key ∧
    key.curve.signatureAlg = some jwt.header.alg ∧
    prim.verifies key.curve key.bytes (utf8 jwt.signingInput) jwt.signature

namespace FromPrior

def check (claims : FromPrior) : Result Unit :=
  if claims.iss = claims.sub then
    .error (.malformed "from_prior iss and sub are the same DID")
  else if didOf claims.iss ≠ claims.iss ∨ didOf claims.sub ≠ claims.sub then
    .error (.malformed "from_prior iss and sub must be DIDs")
  else .ok ()

/-- Verifies a `from_prior` JWT: the signing key must be an `authentication` key of `iss`. Returns
the claims and the issuer kid. -/
def unpack (token : String) (resolver : Resolver) : Result (FromPrior × String) := do
  let jwt ← Compact.parse prim token
  let claims ← ofJson (prim.fromPrior.fromSlice jwt.payload)
  claims.check
  let kid ← okOr (.malformed "from_prior without kid") jwt.header.kid
  if didOf kid ≠ claims.iss then
    .error (.inconsistent "from_prior kid is not of the issuer DID")
  let doc ← resolver claims.iss
  let key ← doc.authenticationKey kid
  jwt.verify prim key
  pure (claims, kid)

/-- Checked claims are about two different DIDs. -/
theorem check_sound {claims : FromPrior} (h : claims.check = .ok ()) :
    claims.iss ≠ claims.sub ∧ didOf claims.iss = claims.iss ∧ didOf claims.sub = claims.sub := by
  unfold check at h
  rw [guard_eq_ok, guard_eq_ok] at h
  obtain ⟨hne, hdid, -⟩ := h
  push Not at hdid
  exact ⟨hne, hdid⟩

/-- An accepted `from_prior` JWT is signed by its issuer, which is not its subject. -/
theorem unpack_sound {token kid : String} {resolver : Resolver} {claims : FromPrior}
    (h : unpack prim token resolver = .ok (claims, kid)) :
    ∃ jwt, SignedBy prim resolver token kid claims.iss jwt ∧
      prim.fromPrior.fromSlice jwt.payload = .ok claims ∧ claims.iss ≠ claims.sub := by
  simp only [unpack, error_bind, bind_eq_ok, ofJson_eq_ok, okOr_eq_ok, guard_eq_ok, pure_eq_ok,
    Prod.mk.injEq] at h
  obtain ⟨jwt, hparse, claims', hclaims, ⟨⟩, hcheck, kid', hkid, hkidOf, doc, hdoc, key, hkey, ⟨⟩,
    hverify, rfl, rfl⟩ := h
  have hiss : didOf kid' = claims'.iss := not_not.mp hkidOf
  exact ⟨jwt, ⟨hparse, hkid, hiss, doc, key, hdoc, DidDocument.keyIn_eq_ok.mp hkey,
    Compact.verify_sound prim hverify⟩, hclaims, (check_sound hcheck).1⟩

end FromPrior

namespace PossessionProof

def check (claims : PossessionProof) : Result Unit :=
  if didOf claims.iss ≠ claims.iss then .error (.malformed "the proof's iss must be a DID")
  else .ok ()

/-- Verifies the signature: it must come from an `authentication` key of `iss`. Checking `aud`,
`sub` and `iat` is up to the caller. -/
def unpack (token : String) (resolver : Resolver) : Result PossessionProof := do
  let jwt ← Compact.parse prim token
  let claims ← ofJson (prim.possession.fromSlice jwt.payload)
  claims.check
  let kid ← okOr (.malformed "possession proof without kid") jwt.header.kid
  if didOf kid ≠ claims.iss then
    .error (.inconsistent "the proof's kid is not of its DID")
  let doc ← resolver claims.iss
  let key ← doc.authenticationKey kid
  jwt.verify prim key
  pure claims

/-- An accepted possession proof is signed by its issuer. -/
theorem unpack_sound {token : String} {resolver : Resolver} {claims : PossessionProof}
    (h : unpack prim token resolver = .ok claims) :
    ∃ jwt kid, SignedBy prim resolver token kid claims.iss jwt ∧
      prim.possession.fromSlice jwt.payload = .ok claims := by
  simp only [unpack, error_bind, bind_eq_ok, ofJson_eq_ok, okOr_eq_ok, guard_eq_ok, pure_eq_ok] at h
  obtain ⟨jwt, hparse, claims', hclaims, -, -, kid, hkid, hkidOf, doc, hdoc, key, hkey, ⟨⟩, hverify,
    rfl⟩ := h
  have hiss : didOf kid = claims'.iss := not_not.mp hkidOf
  exact ⟨jwt, kid, ⟨hparse, hkid, hiss, doc, key, hdoc, DidDocument.keyIn_eq_ok.mp hkey,
    Compact.verify_sound prim hverify⟩, hclaims⟩

end PossessionProof

end Didcomm
