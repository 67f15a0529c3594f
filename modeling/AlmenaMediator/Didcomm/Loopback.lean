import AlmenaMediator.Didcomm.Pack
import AlmenaMediator.Didcomm.Unpack

/-!
# Packages that encrypt nothing

A choice of `Primitives` to follow messages through the mediator by hand: an envelope is the number
of a mail, it opens to that mail's message, authcrypted by its sender, and everything that is packed
is the same text.
-/

namespace Didcomm.Loopback

/-- A message and who sends it. -/
structure Mail where
  sender : String
  message : Message

/-- The envelope of mail `n`. -/
def envelope (n : UInt8) : String := b64Encode [n]

/-- The plaintext of mail `n`. -/
def plaintext (n : UInt8) : String := b64Encode [n, n]

/-- The bytes that a text encodes. -/
def decoded (text : Bytes) : Bytes :=
  ((fromUtf8 text).bind fun t => (b64Decode t).toOption).getD []

/-- The one key agreement key of a DID. -/
def kid (did : String) : String := did ++ "#k"

/-- The one signing key of a DID. -/
def signingKid (did : String) : String := did ++ "#s"

/-- Everybody's secret for key agreement. -/
def agreementSecret : SecretKey := ⟨.x25519, List.replicate 32 9⟩

/-- Its public half. -/
def agreementKey : PublicKey := ⟨.x25519, List.replicate 32 9⟩

/-- Everybody's secret for signing. -/
def signingSecret : SecretKey := ⟨.ed25519, List.replicate 32 7⟩

/-- Its public half. -/
def signingKey : PublicKey := ⟨.ed25519, List.replicate 32 7⟩

/-- The key that every envelope is made with. -/
def ephemeralKey : PublicKey := ⟨.x25519, List.replicate 32 1⟩

/-- A DID's document, with these services. -/
def document (service : List Service) (did : String) : DidDocument where
  id := did
  alsoKnownAs := []
  verificationMethod := [⟨kid did, did, agreementKey⟩, ⟨signingKid did, did, signingKey⟩]
  authentication := [signingKid did]
  assertionMethod := []
  keyAgreement := [kid did]
  service := service

/-- A `DIDCommMessaging` service. -/
def didcommService (uri : String) (routingKeys : List String) : Service where
  id := "#didcomm"
  kind := didcommServiceType
  endpoint := .object [("uri", .string uri), ("routingKeys", .array (routingKeys.map .string))]

/-- Every DID has a document; its services are given. -/
def resolver (services : String → List Service) : Resolver := fun did =>
  .ok (document (services did) did)

/-- There is a secret for every key. -/
def secrets : Secrets := fun _ => .ok (some agreementSecret)

/-- The JWE for `receiver` with `bytes` in it. -/
def jwe (receiver : String) (bytes : Bytes) : Jwe where
  «protected» := b64Encode bytes
  recipients := [⟨kid receiver, b64Encode (List.replicate 8 0)⟩]
  iv := b64Encode (List.replicate 16 0)
  ciphertext := b64Encode bytes
  tag := b64Encode []

/-- Its header: authcrypt by `sender`. -/
def header (sender : String) : JweProtectedHeader where
  typ := none
  alg := .ecdh1PuA256Kw
  enc := .a256CbcHs512
  epk := ⟨"OKP", "X25519", b64Encode ephemeralKey.bytes, none, none, none⟩
  skid := some (kid sender)
  apu := none
  apv := b64Encode []

/-- The packages: the mails in the envelopes, their receiver, and the claims in every possession
proof. -/
def packages (mails : ℕ → Mail) (receiver : String) (proof : PossessionProof) : Primitives where
  value :=
    { fromSlice := fun text => .ok (.object (match decoded text with
        | [n, _] => [("id", .ofNat n.toNat)]
        | _ => [("ciphertext", .null)]))
      toText := fun _ => "e" }
  jwe := ⟨fun text => .ok (jwe receiver (decoded text)), fun _ => "e"⟩
  jweHeader :=
    { fromSlice := fun bytes => match bytes with
        | [n] => .ok (header (mails n.toNat).sender)
        | _ => .error ""
      toText := fun _ => "" }
  jwsInput _ := .error ""
  jwsText _ := ""
  jwsHeader := ⟨fun _ => .ok ⟨none, "EdDSA", some (signingKid proof.iss)⟩, fun _ => ""⟩
  messageOf v := match (v.get "id").bind Value.asU64 with
    | some n => .ok (mails n).message
    | none => .error ""
  messageText _ := "p"
  fromPrior := ⟨fun _ => .error "", fun _ => ""⟩
  possession := ⟨fun _ => .ok proof, fun _ => ""⟩
  sha256 _ := []
  decodePoint curve bytes := if bytes.length = curve.fieldLen then some bytes else none
  uncompress _ bytes := bytes
  publicBytes _ := []
  verifies _ _ _ _ := true
  signs _ _ := some []
  ecdh _ _ := some []
  wrapKey _ _ := some []
  unwrapKey _ _ := some (List.replicate 64 0)
  cipherEncrypt _ _ _ _ _ := .ok ([], [])
  cipherDecrypt _ _ _ _ ciphertext _ := match ciphertext with
    | [n] => .ok (utf8 (plaintext n))
    | _ => .error (.malformed "")

/-- What packing draws. -/
def supply : Supply where
  uuid _ := "u"
  now _ := 0
  draw _ := .ok
    { ephemeral := fun curve => ⟨curve, List.replicate curve.fieldLen 1⟩
      ephemeral_curve := fun _ => rfl
      cek := fun n => List.replicate n 0
      iv := fun n => List.replicate n 0 }

/-- What unpacking finds out about the envelope. -/
def metadata (sender receiver : String) : UnpackMetadata :=
  { UnpackMetadata.default with
    encrypted := true
    authenticated := true
    encryptedFromKid := some (kid sender)
    encryptedToKids := [kid receiver]
    decryptedByKid := some (kid receiver)
    encAlgAuth := some .a256CbcHs512 }

variable {mails : ℕ → Mail} {n : UInt8} {message : Message} {sender receiver : String}
  {proof : PossessionProof} {services : String → List Service}

/-- The bytes of an encoded text are decoded to the bytes that were encoded. -/
@[simp] theorem decoded_utf8_b64Encode (bytes : Bytes) :
    decoded (utf8 (b64Encode bytes)) = bytes := by
  simp [decoded, fromUtf8_utf8, Except.toOption]

/-- The loop's variables once envelope `n` is open. -/
def opened (n : UInt8) (sender receiver : String) : Peel where
  current := plaintext n
  metadata := { metadata sender receiver with anonymousSender := false }
  layers := [.authcrypt]
  recipientDids := [didOf (kid receiver)]

/-- The document of a DID lists the one key under the DID's key id. -/
theorem keyAgreementKey_kid (service : List Service) (did : String) :
    (document service did).keyAgreementKey (kid did) = .ok agreementKey :=
  DidDocument.keyIn_eq_ok.mpr ⟨by simp [document], by simp [document, DidDocument.method]⟩

/-- The packages of the example parse an envelope as the JWE of its number. -/
theorem parse_envelope :
    Jwe.parse (packages mails receiver proof) (envelope n) = .ok (jwe receiver [n]) := by
  simp [Jwe.parse, Serde.fromStr, packages, envelope, ofJson]

/-- The protected header of such a JWE names the sender of the mail it carries. -/
theorem protectedHeader_jwe (hmail : mails n.toNat = ⟨sender, message⟩) :
    (jwe receiver [n]).protectedHeader (packages mails receiver proof) = .ok (header sender) := by
  simp [Jwe.protectedHeader, jwe, packages, hmail, ofJson, bind, Except.bind]

/-- The sender of such a layer is resolved to its key, and the layer counts as authenticated. -/
theorem layerSender_header (hsender : didOf (kid sender) = sender) :
    layerSender (resolver services) (header sender) .default =
      .ok (some agreementKey, { UnpackMetadata.default with
        authenticated := true, encryptedFromKid := some (kid sender),
        encAlgAuth := some .a256CbcHs512 }) := by
  have hkid : (header sender).senderKid = .ok (some (kid sender)) := rfl
  simp only [layerSender, hkid, bind, Except.bind, okOr]
  simp only [header, hsender, resolver, keyAgreementKey_kid]
  rfl

/-- Decrypting such a JWE gives the plaintext of the mail it carries. -/
theorem decrypt_jwe (hmail : mails n.toNat = ⟨sender, message⟩) :
    (jwe receiver [n]).decrypt (packages mails receiver proof) (kid receiver) agreementSecret
      (some agreementKey) = .ok (utf8 (plaintext n)) := by
  have hfind : ((jwe receiver [n]).recipients.find? fun r => r.kid == kid receiver) =
      some ⟨kid receiver, b64Encode (List.replicate 8 0)⟩ := by simp [jwe]
  have hapv : apv (packages mails receiver proof) (jwe receiver [n]).recipientKids =
    b64Encode [] := rfl
  have hepk : PublicKey.fromJwk (packages mails receiver proof) (header sender).epk =
      .ok ephemeralKey := by
    simp only [PublicKey.fromJwk, header, Curve.fromJwkCrv, Curve.jwkKty,
      b64Decode_b64Encode, ok_bind, ne_eq, not_true_eq_false, ↓reduceIte]
    rfl
  -- these primitives wrap under the empty key and encrypt by writing the number
  have hkek : ∀ apu apv tag, Jwe.authcryptKek (packages mails receiver proof)
      (header sender) agreementSecret (some agreementKey) ephemeralKey apu apv tag = .ok [] :=
    fun _ _ _ => rfl
  have hunwrap : ∀ kek, unwrapKey (packages mails receiver proof) kek
      (List.replicate 8 0) = .ok (List.replicate 64 0) := fun _ => rfl
  have hcipher : ∀ aad, ContentEncryption.decrypt (packages mails receiver proof)
      .a256CbcHs512 (List.replicate 64 0) (List.replicate 16 0) aad [n] [] =
        .ok (utf8 (plaintext n)) := fun _ => rfl
  unfold header at hkek
  simp only [Jwe.decrypt, protectedHeader_jwe hmail, hfind, okOr, bind, Except.bind, hapv, hepk]
  simp only [jwe, header, decodeOpt, b64Decode_b64Encode, ne_eq, not_true_eq_false, ↓reduceIte]
  have hcurve : ephemeralKey.curve = agreementSecret.curve := rfl
  simp only [hcurve, not_true_eq_false, ↓reduceIte, hkek, hunwrap, hcipher]

/-- An envelope opens to its mail's message, authenticated as the mail's sender. -/
theorem unpack_eq (hmail : mails n.toNat = ⟨sender, message⟩)
    (hsender : didOf (kid sender) = sender) (hfrom : message.from_ = some sender)
    (hto : message.to_ = none) (hprior : message.fromPrior = none)
    (hvalid : message.validate = .ok ()) : unpack (packages mails receiver proof)
    (resolver services) secrets (envelope n) = .ok (message, metadata sender receiver) := by
  have hvalue : ∀ bytes, (packages mails receiver proof).value.fromStr (b64Encode bytes) =
      .ok (.object (match bytes with
        | [n, _] => [("id", .ofNat n.toNat)]
        | _ => [("ciphertext", .null)])) := fun bytes => by
    simp only [Serde.fromStr, packages, decoded_utf8_b64Encode]
  -- the first round opens the authcrypted envelope
  have henvelope : round (packages mails receiver proof) (resolver services) secrets
      ⟨envelope n, .default, [], []⟩ = .ok (.peeled (opened n sender receiver)) := by
    have hkey : findDecryptionKey secrets (jwe receiver [n]) =
      .ok (kid receiver, agreementSecret) :=
      rfl
    have hopen : openJwe (packages mails receiver proof) (resolver services) secrets
        ⟨envelope n, .default, [], []⟩ = .ok (opened n sender receiver) := by
      simp only [openJwe, parse_envelope, protectedHeader_jwe hmail, hkey,
        layerSender_header hsender, decrypt_jwe hmail, payloadText,
          fromUtf8_utf8, bind, Except.bind]
      rfl
    simp only [round, envelope, hvalue, ofJson, bind, Except.bind]
    exact congrArg (Round.peeled <$> ·) hopen
  -- the second reads the message that the number names
  have hplain : round (packages mails receiver proof) (resolver services) secrets
      (opened n sender receiver) = .ok (.plaintext message) := by
    have hmessage : (packages mails receiver proof).messageOf
        (.object [("id", .ofNat n.toNat)]) = .ok message := by
      change Except.ok (mails n.toNat).message = _
      rw [hmail]
    simp only [round, opened, plaintext, hvalue, ofJson, bind, Except.bind]
    change Round.plaintext <$> readPlaintext _ _ = _
    simp only [readPlaintext, hmessage, ofJson, bind, Except.bind, hvalid]
    rfl
  simp only [unpack, unpackLoop_peeled henvelope, unpackLoop_plaintext hplain, bind, Except.bind]
  simp [checkConsistency, checkFromPrior, opened, metadata, hfrom, hto, hprior, hsender,
    UnpackMetadata.default]
  rfl

end Didcomm.Loopback
