import AlmenaMediator.Didcomm.Crypto.Content
import AlmenaMediator.Didcomm.Crypto.Keys
import Mathlib.Data.List.Sort

/-!
# JSON Web Encryption

`crypto/jwe.rs`: anoncrypt (`ECDH-ES+A256KW`) and authcrypt (`ECDH-1PU+A256KW`) envelopes. The key
encryption key is a hash over the Concat KDF input `kdfInput`, which for ECDH-1PU ends with the
content tag. Encryption draws its ephemeral key, content key and initialization vector from a
`Draw`, an argument of the model.
-/

namespace Didcomm

variable (prim : Primitives)

/-- Media type of a DIDComm encrypted message. -/
def encryptedTyp : String := "application/didcomm-encrypted+json"

/-- What one encryption draws from the operating system's random number generator. -/
structure Draw where
  /-- `SecretKey::generate`. -/
  ephemeral : Curve → SecretKey
  /-- The generated key is on the curve asked for. -/
  ephemeral_curve : ∀ c, (ephemeral c).curve = c
  /-- A random content key of a length. -/
  cek : ℕ → Bytes
  /-- A random initialization vector of a length. -/
  iv : ℕ → Bytes

/-- The random number generator, or its failure. -/
abbrev Random := Result Draw

/-- The sender's key id for authcrypt: `skid`, or else decoded from `apu`. If both are present they
must agree. -/
def JweProtectedHeader.senderKid (header : JweProtectedHeader) : Result (Option String) := do
  let fromApu ← match header.apu with
    | some apu => do
      let bytes ← b64Decode apu
      let text ← okOr (.malformed "apu is not UTF-8") (fromUtf8 bytes)
      pure (some text)
    | none => pure none
  match header.skid, fromApu with
  | some skid, some apu =>
    if skid ≠ apu then .error (.inconsistent "skid does not match apu") else pure (some skid)
  | some skid, none => pure (some skid)
  | none, apu => pure apu

/-- Where a recipient's content key is wrapped to. -/
structure Recipient where
  kid : String
  key : PublicKey
  deriving DecidableEq, Repr

/-- The sender of an authcrypt message. -/
structure Sender where
  kid : String
  key : SecretKey
  deriving DecidableEq, Repr

/-- `apv`: base64url(SHA-256(recipient kids, sorted, joined with `.`)). -/
def apv (kids : List String) : String :=
  b64Encode (prim.sha256 (utf8 (".".intercalate (kids.insertionSort (· ≤ ·)))))

def decodeOpt : Option String → Result Bytes
  | some value => b64Decode value
  | none => .ok []

/-- A length as four big-endian bytes (`as u32`). -/
def be32 (n : ℕ) : Bytes :=
  [UInt8.ofNat (n / 2 ^ 24), UInt8.ofNat (n / 2 ^ 16), UInt8.ofNat (n / 2 ^ 8), UInt8.ofNat n]

/-- A field of the KDF input with its length in front. -/
def withLen (data : Bytes) : Bytes := be32 data.length ++ data

/-- What the Concat KDF hashes: round counter, shared secret, algorithm, party infos and
`SuppPubInfo`, to which ECDH-1PU appends the content tag. -/
def kdfInput (z : Bytes) (alg : KeyWrap) (apu apv : Bytes) (tag : Option Bytes) : Bytes :=
  be32 1 ++ z ++ withLen (utf8 alg.name) ++ withLen apu ++ withLen apv ++ be32 256 ++
    (tag.map withLen).getD []

/-- Concat KDF deriving the 256-bit A256KW key. -/
def concatKdf (z : Bytes) (alg : KeyWrap) (apu apv : Bytes) (tag : Option Bytes) : Bytes :=
  prim.sha256 (kdfInput z alg apu apv tag)

def wrapKey (kek cek : Bytes) : Result Bytes := okOr (.crypto "key wrap") (prim.wrapKey kek cek)

def unwrapKey (kek wrapped : Bytes) : Result Bytes :=
  if wrapped.length < 8 then .error (.malformed "encrypted_key too short")
  else okOr (.crypto "key unwrap") (prim.unwrapKey kek wrapped)

namespace Jwe

def parse (json : String) : Result Jwe := ofJson (prim.jwe.fromStr json)

def toJson (jwe : Jwe) : String := prim.jwe.toText jwe

def protectedHeader (jwe : Jwe) : Result JweProtectedHeader := do
  ofJson (prim.jweHeader.fromSlice (← b64Decode jwe.protected))

/-- Key ids of all recipients, in envelope order. -/
def recipientKids (jwe : Jwe) : List String := jwe.recipients.map JweRecipient.kid

/-- The key encryption key of an authcrypt envelope, as its recipient derives it. -/
def authcryptKek (header : JweProtectedHeader) (key : SecretKey) (sender : Option PublicKey)
    (epk : PublicKey) (apu apv tag : Bytes) : Result Bytes := do
  if header.enc ≠ .a256CbcHs512 then .error (.unsupported "ECDH-1PU requires A256CBC-HS512")
  let sender ← okOr (.malformed "authcrypt without sender key") sender
  if sender.curve ≠ key.curve then
    .error (.inconsistent "sender and recipient keys are on different curves")
  let ze ← key.diffieHellman prim epk
  let zs ← key.diffieHellman prim sender
  pure (concatKdf prim (ze ++ zs) header.alg apu apv (some tag))

/-- Decrypts as recipient `kid`. `sender` is the sender's public key and is required for authcrypt,
ignored for anoncrypt. -/
def decrypt (jwe : Jwe) (kid : String) (key : SecretKey) (sender : Option PublicKey) :
    Result Bytes := do
  let header ← jwe.protectedHeader prim
  let recipient ← okOr (.secretNotFound kid) (jwe.recipients.find? fun r => r.kid == kid)
  if header.apv ≠ apv prim jwe.recipientKids then
    .error (.inconsistent "apv does not match the recipient kids")
  let epk ← PublicKey.fromJwk prim header.epk
  if epk.curve ≠ key.curve then
    .error (.inconsistent "epk and recipient key are on different curves")
  let apu ← decodeOpt header.apu
  let apvBytes ← b64Decode header.apv
  let tag ← b64Decode jwe.tag
  let kek ← match header.alg with
    | .ecdhEsA256Kw => do
      let z ← key.diffieHellman prim epk
      pure (concatKdf prim z header.alg apu apvBytes none)
    | .ecdh1PuA256Kw => authcryptKek prim header key sender epk apu apvBytes tag
  let wrapped ← b64Decode recipient.encryptedKey
  let cek ← unwrapKey prim kek wrapped
  header.enc.decrypt prim cek (← b64Decode jwe.iv) (utf8 jwe.protected)
    (← b64Decode jwe.ciphertext) tag

/-- The content key wrapped for one recipient. -/
def wrapFor (ephemeral : SecretKey) (sender : Option Sender) (alg : KeyWrap) (apu apvBytes : Bytes)
    (cek tag : Bytes) (recipient : Recipient) : Result JweRecipient := do
  let ze ← ephemeral.diffieHellman prim recipient.key
  let kek ← match sender with
    | some sender => do
      let zs ← sender.key.diffieHellman prim recipient.key
      pure (concatKdf prim (ze ++ zs) alg apu apvBytes (some tag))
    | none => pure (concatKdf prim ze alg apu apvBytes none)
  let wrapped ← wrapKey prim kek cek
  pure { kid := recipient.kid, encryptedKey := b64Encode wrapped }

/-- The checks on the keys of an envelope about to be encrypted: all on one key agreement curve,
which is returned. -/
def checkCurves (sender : Option Sender) (recipients : List Recipient) : Result Curve := do
  let first ← okOr (.malformed "no recipients") recipients.head?
  let curve := first.key.curve
  if !curve.isKeyAgreement then .error (.unsupported ("key agreement with " ++ curve.jwkCrv))
  if recipients.any fun r => r.key.curve != curve then
    .error (.noCompatibleKeys "recipient keys on different curves")
  if sender.any fun s => s.key.curve != curve then
    .error (.noCompatibleKeys "sender and recipients on different curves")
  pure curve

def encrypt (random : Random) (plaintext : Bytes) (sender : Option Sender)
    (recipients : List Recipient) (enc : ContentEncryption) : Result Jwe := do
  let curve ← checkCurves sender recipients
  let alg := if sender.isSome then KeyWrap.ecdh1PuA256Kw else KeyWrap.ecdhEsA256Kw
  let draw ← random
  let ephemeral := draw.ephemeral curve
  let header : JweProtectedHeader :=
    { typ := some encryptedTyp, alg := alg, enc := enc,
      epk := (ephemeral.publicKey prim).toJwk prim, skid := sender.map Sender.kid,
      apu := sender.map fun s => b64Encode (utf8 s.kid), apv := apv prim (recipients.map (·.kid)) }
  let protectedText := b64Encode (prim.jweHeader.toVec header)
  let cek := draw.cek enc.keyLen
  let iv := draw.iv enc.ivLen
  let (ciphertext, tag) ← enc.encrypt prim cek iv (utf8 protectedText) plaintext
  let apu ← decodeOpt header.apu
  let apvBytes ← b64Decode header.apv
  let wrapped ← recipients.mapM (wrapFor prim ephemeral sender alg apu apvBytes cek tag)
  pure { «protected» := protectedText, recipients := wrapped, iv := b64Encode iv,
         ciphertext := b64Encode ciphertext, tag := b64Encode tag }

/-- Anonymous encryption to every recipient. -/
def anoncrypt (random : Random) (plaintext : Bytes) (recipients : List Recipient)
    (enc : ContentEncryption) : Result Jwe :=
  encrypt prim random plaintext none recipients enc

/-- Sender-authenticated encryption. -/
def authcrypt (random : Random) (plaintext : Bytes) (sender : Sender)
    (recipients : List Recipient) : Result Jwe :=
  encrypt prim random plaintext (some sender) recipients .a256CbcHs512

end Jwe

end Didcomm
