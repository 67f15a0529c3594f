import AlmenaMediator.Didcomm.Primitives

/-!
# Key operations

`crypto/keys.rs`: reading and writing public keys, signing, verification and Diffie-Hellman over
the curve crates of `Primitives`.
-/

namespace Didcomm

variable (prim : Primitives)

/-- Decodes a key from its raw bytes. -/
def PublicKey.fromBytes (curve : Curve) (bytes : Bytes) : Result PublicKey :=
  match prim.decodePoint curve bytes with
  | some canonical => .ok ⟨curve, canonical⟩
  | none => .error (.invalidKey (curve.jwkCrv ++ " public key"))

/-- Reads a public JWK. -/
def PublicKey.fromJwk (jwk : Jwk) : Result PublicKey := do
  let curve ← Curve.fromJwkCrv jwk.crv
  if jwk.kty ≠ curve.jwkKty then
    .error (.invalidKey ("kty " ++ jwk.kty ++ " with crv " ++ jwk.crv))
  else do
    let x ← b64Decode jwk.x
    if curve.jwkKty = "OKP" then PublicKey.fromBytes prim curve x
    else do
      let y ← okOr (.invalidKey "EC JWK without y") jwk.y
      let y ← b64Decode y
      if x.length ≠ curve.fieldLen ∨ y.length ≠ curve.fieldLen then
        .error (.invalidKey (jwk.crv ++ " coordinate length"))
      else PublicKey.fromBytes prim curve (0x04 :: (x ++ y))

/-- Public JWK, without `kid`. -/
def PublicKey.toJwk (key : PublicKey) : Jwk :=
  let coordinates : String × Option String :=
    match key.curve with
    | .ed25519 | .x25519 => (b64Encode key.bytes, none)
    | curve =>
      let point := (prim.uncompress curve key.bytes).drop 1
      (b64Encode (point.take curve.fieldLen), some (b64Encode (point.drop curve.fieldLen)))
  { kty := key.curve.jwkKty, crv := key.curve.jwkCrv, x := coordinates.1, y := coordinates.2,
    d := none, kid := none }

/-- Verifies `signature` over `message` with the algorithm the key's curve implies. -/
def PublicKey.verify (key : PublicKey) (message signature : Bytes) : Result Unit :=
  match key.curve.signatureAlg with
  | some _ =>
    if prim.verifies key.curve key.bytes message signature then .ok ()
    else .error (.crypto "signature")
  | none => .error (.unsupported ("signatures with " ++ key.curve.jwkCrv))

/-- The public half of a private key. -/
def SecretKey.publicKey (key : SecretKey) : PublicKey := ⟨key.curve, prim.publicBytes key⟩

/-- Signs `message` with the algorithm the key's curve implies. -/
def SecretKey.sign (key : SecretKey) (message : Bytes) : Result Bytes :=
  match key.curve.signatureAlg with
  | some _ => okOr (.crypto "signing") (prim.signs key message)
  | none => .error (.unsupported ("signatures with " ++ key.curve.jwkCrv))

/-- Raw ECDH shared secret with `pub`, which must be on the same key agreement curve. -/
def SecretKey.diffieHellman (key : SecretKey) (pub : PublicKey) : Result Bytes :=
  if key.curve = pub.curve ∧ key.curve.isKeyAgreement then
    okOr (.invalidKey "low-order X25519 public key") (prim.ecdh key pub)
  else
    .error (.unsupported
      ("key agreement between " ++ key.curve.jwkCrv ++ " and " ++ pub.curve.jwkCrv))

/-! ## Private keys -/

section Private

variable (scalar : Curve → Bytes → Bool)

/-- Whether bytes are a private key. Whether they are a scalar of a Weierstrass curve is up to its
crate. -/
def SecretKey.fits (curve : Curve) (bytes : Bytes) : Bool :=
  match curve with
  | .ed25519 | .x25519 => bytes.length == 32
  | curve => scalar curve bytes

/-- Decodes a private key from its raw bytes (seed for Ed25519, scalar otherwise). -/
def SecretKey.fromBytes (curve : Curve) (bytes : Bytes) : Result SecretKey :=
  if SecretKey.fits scalar curve bytes then .ok ⟨curve, bytes⟩
  else .error (.invalidKey (curve.jwkCrv ++ " private key"))

/-- The loop that generates a key, over what it draws: EC draws that are no scalar are rejected and
redrawn. `none` is a loop that has not ended. -/
def SecretKey.generate (curve : Curve) : List Bytes → Option SecretKey
  | [] => none
  | draw :: draws =>
    -- the P-521 order is just under 2^521
    let bytes := if curve = .p521 then draw.modifyHead (· &&& 0x01) else draw
    match SecretKey.fromBytes scalar curve bytes with
    | .ok key => some key
    | .error _ => SecretKey.generate curve draws

/-- Private JWK (with `d`), without `kid`. -/
def SecretKey.toJwk (key : SecretKey) : Jwk :=
  { (key.publicKey prim).toJwk prim with d := some (b64Encode key.bytes) }

/-- Reads a private JWK. If it carries public coordinates they must match `d`. -/
def SecretKey.fromJwk (jwk : Jwk) : Result SecretKey := do
  let curve ← Curve.fromJwkCrv jwk.crv
  let d ← okOr (.invalidKey "JWK without d") jwk.d
  let bytes ← b64Decode d
  let key ← SecretKey.fromBytes scalar curve bytes
  let pub := (key.publicKey prim).toJwk prim
  if pub.x ≠ jwk.x ∨ (jwk.y.isSome ∧ pub.y ≠ jwk.y) then
    .error (.invalidKey "JWK public part does not match d")
  else pure key

variable {prim scalar}

/-- A private key has the curve and the bytes it is decoded from. -/
theorem SecretKey.fromBytes_eq_ok {curve : Curve} {bytes : Bytes} {key : SecretKey}
    (h : SecretKey.fromBytes scalar curve bytes = .ok key) : key = ⟨curve, bytes⟩ := by
  unfold SecretKey.fromBytes at h
  split_ifs at h
  exact (Except.ok.inj h).symm

/-- A generated key is one of its curve, which is decoded from its own bytes. -/
theorem SecretKey.generate_eq_some {curve : Curve} {draws : List Bytes} {key : SecretKey}
    (h : SecretKey.generate scalar curve draws = some key) :
    key.curve = curve ∧ SecretKey.fromBytes scalar key.curve key.bytes = .ok key := by
  induction draws with
  | nil => cases h
  | cons draw draws ih =>
    rw [SecretKey.generate] at h
    split at h
    · rename_i key' hkey
      obtain rfl := Option.some.inj h
      have hmade := SecretKey.fromBytes_eq_ok hkey
      rw [hmade] at hkey ⊢
      exact ⟨rfl, hkey⟩
    · exact ih h

/-- A private key is read back from its JWK. -/
theorem SecretKey.fromJwk_toJwk {key : SecretKey}
    (hkey : SecretKey.fromBytes scalar key.curve key.bytes = .ok key) :
    SecretKey.fromJwk prim scalar (key.toJwk prim) = .ok key := by
  have hcurve : Curve.fromJwkCrv (key.toJwk prim).crv = .ok key.curve :=
    Curve.fromJwkCrv_jwkCrv key.curve
  have hbytes : b64Decode (b64Encode key.bytes) = .ok key.bytes := b64Decode_b64Encode key.bytes
  refine bind_eq_ok.mpr ⟨_, hcurve, bind_eq_ok.mpr ⟨_, rfl, bind_eq_ok.mpr ⟨_, hbytes, ?_⟩⟩⟩
  refine bind_eq_ok.mpr ⟨_, hkey, guard_eq_ok.mpr ⟨?_, rfl⟩⟩
  simp [SecretKey.toJwk]

end Private

/-- A verified signature is one the curve's check accepts. -/
theorem PublicKey.verify_eq_ok {key : PublicKey} {message signature : Bytes} :
    key.verify prim message signature = .ok () ↔
      key.curve.signatureAlg.isSome ∧ prim.verifies key.curve key.bytes message signature := by
  unfold PublicKey.verify
  cases key.curve.signatureAlg <;> simp

end Didcomm
