import AlmenaMediator.Didcomm.Wire

/-!
# Third-party packages

What the DIDComm crate takes from its dependencies, as one parameter of the model: the derived
serde_json readers and writers of the wire types, SHA-256, the elliptic-curve crates, AES key wrap
and the content ciphers. A theorem about the code holds for every choice of them, or names what it
relies on.
-/

namespace Didcomm

/-- Reading and writing a type as JSON. -/
structure Serde (α : Type) where
  /-- `serde_json::from_slice`; the error is serde's text. -/
  fromSlice : Bytes → Except String α
  /-- `serde_json::to_string`. -/
  toText : α → String

/-- `serde_json::from_str`. -/
def Serde.fromStr {α : Type} (serde : Serde α) (text : String) : Except String α :=
  serde.fromSlice (utf8 text)

/-- `serde_json::to_vec`. -/
def Serde.toVec {α : Type} (serde : Serde α) (a : α) : Bytes := utf8 (serde.toText a)

/-- The packages the DIDComm crate is built on. -/
structure Primitives where
  /-- `serde_json` for untyped values. -/
  value : Serde Value
  jwe : Serde Jwe
  jweHeader : Serde JweProtectedHeader
  /-- Reading either serialization of a JWS. -/
  jwsInput : Bytes → Except String JwsInput
  /-- Writing the general serialization of a JWS. -/
  jwsText : Jws → String
  jwsHeader : Serde JwsProtectedHeader
  /-- `serde_json::from_value` for messages. -/
  messageOf : Value → Except String Message
  /-- `serde_json::to_string` for messages. -/
  messageText : Message → String
  fromPrior : Serde FromPrior
  possession : Serde PossessionProof
  sha256 : Bytes → Bytes
  /-- Decodes a public key of a curve, checking it is on the curve; the bytes are canonical. -/
  decodePoint : Curve → Bytes → Option Bytes
  /-- Decompresses a canonical EC point to `0x04 || x || y`. -/
  uncompress : Curve → Bytes → Bytes
  /-- The canonical public bytes of a private key. -/
  publicBytes : SecretKey → Bytes
  /-- The curve's signature check: key bytes, message, signature. -/
  verifies : Curve → Bytes → Bytes → Bytes → Bool
  /-- Signing with a private key. -/
  signs : SecretKey → Bytes → Option Bytes
  /-- ECDH on one curve; `none` for a low-order X25519 point. -/
  ecdh : SecretKey → PublicKey → Option Bytes
  /-- AES-256 key wrap of a content key: key encryption key, content key. -/
  wrapKey : Bytes → Bytes → Option Bytes
  /-- AES-256 key unwrap. -/
  unwrapKey : Bytes → Bytes → Option Bytes
  /-- Content encryption (key, iv, additional data, plaintext) to ciphertext and tag. -/
  cipherEncrypt : ContentEncryption → Bytes → Bytes → Bytes → Bytes → Result (Bytes × Bytes)
  /-- Content decryption (key, iv, additional data, ciphertext, tag). -/
  cipherDecrypt : ContentEncryption → Bytes → Bytes → Bytes → Bytes → Bytes → Result Bytes

/-- Packages that refuse every input, to be overridden where an example needs an answer. -/
def Primitives.refusing : Primitives where
  value := ⟨fun _ => .error "", fun _ => ""⟩
  jwe := ⟨fun _ => .error "", fun _ => ""⟩
  jweHeader := ⟨fun _ => .error "", fun _ => ""⟩
  jwsInput _ := .error ""
  jwsText _ := ""
  jwsHeader := ⟨fun _ => .error "", fun _ => ""⟩
  messageOf _ := .error ""
  messageText _ := ""
  fromPrior := ⟨fun _ => .error "", fun _ => ""⟩
  possession := ⟨fun _ => .error "", fun _ => ""⟩
  sha256 _ := []
  decodePoint _ _ := none
  uncompress _ bytes := bytes
  publicBytes _ := []
  verifies _ _ _ _ := false
  signs _ _ := none
  ecdh _ _ := none
  wrapKey _ _ := none
  unwrapKey _ _ := none
  cipherEncrypt _ _ _ _ _ := .error (.malformed "")
  cipherDecrypt _ _ _ _ _ _ := .error (.malformed "")

end Didcomm
