import AlmenaMediator.Didcomm.Crypto.Jwe
import AlmenaMediator.Didcomm.Jwt
import AlmenaMediator.Didcomm.Message

/-!
# Unpacking envelopes

`unpack.rs`: the loop that opens a message's envelopes from the outside in, with the layering and
consistency rules of the spec. One iteration is `round`; the variables of the loop are `Peel`. The
loop runs until it meets a plaintext or an error; each layer it accepts leaves fewer possible
(`remaining`), so it ends.
-/

namespace Didcomm

variable (prim : Primitives) (resolver : Resolver) (secrets : Secrets)

/-- What unpacking found out about a message's envelopes. -/
structure UnpackMetadata where
  /-- At least one encryption layer. -/
  encrypted : Bool
  /-- An authcrypt layer: the sender is authenticated to us. -/
  authenticated : Bool
  /-- A signature: the sender is provable to third parties. -/
  nonRepudiation : Bool
  /-- Encrypted, but without an authcrypt layer. -/
  anonymousSender : Bool
  /-- The sender key of the authcrypt layer. -/
  encryptedFromKid : Option String
  /-- All recipient key ids of the innermost encryption layer. -/
  encryptedToKids : List String
  /-- The key we decrypted with. -/
  decryptedByKid : Option String
  encAlgAnon : Option ContentEncryption
  encAlgAuth : Option ContentEncryption
  /-- The signing key, if signed. -/
  signFrom : Option String
  /-- The signed message as received, kept for non-repudiation. -/
  signedMessage : Option String
  /-- Verified DID rotation, and the key that signed it. -/
  fromPrior : Option FromPrior
  fromPriorIssuerKid : Option String
  deriving DecidableEq

/-- `UnpackMetadata::default`. -/
def UnpackMetadata.default : UnpackMetadata where
  encrypted := false
  authenticated := false
  nonRepudiation := false
  anonymousSender := false
  encryptedFromKid := none
  encryptedToKids := []
  decryptedByKid := none
  encAlgAnon := none
  encAlgAuth := none
  signFrom := none
  signedMessage := none
  fromPrior := none
  fromPriorIssuerKid := none

/-- The kinds of envelope. -/
inductive Layer
  | anoncrypt
  | authcrypt
  | signed
  deriving DecidableEq, Repr

/-- The layer a key-wrapping algorithm makes. -/
def KeyWrap.layer : KeyWrap → Layer
  | ecdhEsA256Kw => .anoncrypt
  | ecdh1PuA256Kw => .authcrypt

/-- Whether an encryption layer may come inside `layers`. -/
def Layer.allowedIn (layer : Layer) (layers : List Layer) : Bool :=
  match layer with
  | .anoncrypt => layers.isEmpty
  | _ => layers.isEmpty || layers == [.anoncrypt]

/-- The variables of the unpacking loop. -/
structure Peel where
  /-- What is left to open. -/
  current : String
  metadata : UnpackMetadata
  /-- The layers opened so far, outermost first. -/
  layers : List Layer
  /-- Each layer's recipient DID, to check against the plaintext `to`. -/
  recipientDids : List String
  deriving DecidableEq

/-- What an iteration of the loop comes to: a layer opened, or the plaintext. -/
inductive Round
  | peeled (next : Peel)
  | plaintext (message : Message)
  deriving DecidableEq

def checkTyp (typ : Option String) (expected : String) : Result Unit :=
  match typ with
  | some typ =>
    if !mediaTypeIs typ expected then .error (.malformed
      ("typ " ++ typ ++ ", expected " ++ expected))
    else .ok ()
  | none => .ok ()

/-- A layer's content as text (`unpack.rs`, `utf8`). -/
def payloadText (bytes : Bytes) : Result String :=
  okOr (.malformed "payload is not UTF-8") (fromUtf8 bytes)

/-- The first of `kids` we hold a secret for. -/
def findDecryptionKeyIn : List String → Result (String × SecretKey)
  | [] => .error (.secretNotFound "none of the recipient keys")
  | kid :: kids => do
    match ← secrets kid with
    | some key => pure (kid, key)
    | none => findDecryptionKeyIn kids

/-- The first recipient of `jwe` we hold a secret for. -/
def findDecryptionKey (jwe : Jwe) : Result (String × SecretKey) :=
  findDecryptionKeyIn secrets jwe.recipientKids

/-- The sender key an encrypted envelope is decrypted with, if it has one: a `keyAgreement` key of
the sender's DID; and what the layer's algorithm adds to the metadata. -/
def layerSender (header : JweProtectedHeader) (metadata : UnpackMetadata) :
    Result (Option PublicKey × UnpackMetadata) :=
  match header.alg with
  | .ecdh1PuA256Kw => do
    let skid ← okOr (.malformed "authcrypt without skid or apu") (← header.senderKid)
    let doc ← resolver (didOf skid)
    let senderKey ← doc.keyAgreementKey skid
    pure (some senderKey, { metadata with authenticated := true, encryptedFromKid := some skid,
                                          encAlgAuth := some header.enc })
  | .ecdhEsA256Kw => pure (none, { metadata with encAlgAnon := some header.enc })

/-- Opens an encrypted envelope. -/
def openJwe (st : Peel) : Result Peel := do
  let jwe ← Jwe.parse prim st.current
  let header ← jwe.protectedHeader prim
  checkTyp header.typ encryptedTyp
  let layer := header.alg.layer
  if !layer.allowedIn st.layers then .error (.malformed "unsupported envelope layering")
  let (kid, key) ← findDecryptionKey secrets jwe
  let (sender, metadata) ← layerSender resolver header st.metadata
  let plaintext ← jwe.decrypt prim kid key sender
  let current ← payloadText plaintext
  pure { current := current,
         metadata := { metadata with encrypted := true, encryptedToKids := jwe.recipientKids,
                                     decryptedByKid := some kid },
         layers := st.layers ++ [layer],
         recipientDids := st.recipientDids ++ [didOf kid] }

/-- Opens a signed envelope. -/
def openJws (st : Peel) : Result Peel := do
  if st.layers.contains .signed then .error (.malformed "nested signatures")
  let jws ← Jws.parse prim st.current
  checkTyp (← jws.protectedHeader prim).typ signedTyp
  let kid ← jws.signerKid prim
  let doc ← resolver (didOf kid)
  let key ← doc.authenticationKey kid
  let payload ← jws.verify prim key
  let current ← payloadText payload
  pure { current := current,
         metadata := { st.metadata with nonRepudiation := true, signedMessage := some st.current,
                                        signFrom := some kid },
         layers := st.layers ++ [.signed],
         recipientDids := st.recipientDids }

/-- Reads a plaintext message. -/
def readPlaintext (value : Value) : Result Message := do
  let message ← ofJson (prim.messageOf value)
  message.validate
  pure message

/-- One iteration of the loop. -/
def round (st : Peel) : Result Round := do
  let value ← ofJson (prim.value.fromStr st.current)
  let obj ← okOr (.malformed "message is not a JSON object") value.asObject
  if Value.containsKey "ciphertext" obj then
    Round.peeled <$> openJwe prim resolver secrets st
  else if Value.containsKey "payload" obj then
    Round.peeled <$> openJws prim resolver st
  else
    Round.plaintext <$> readPlaintext prim value

/-- How many more layers can come inside `layers`, at most. -/
def remaining (layers : List Layer) : ℕ :=
  if layers.contains .signed then 0
  else if layers = [] then 3
  else if layers = [.anoncrypt] then 2
  else 1

variable {prim resolver secrets} {st st' : Peel}

/-- What an encrypted envelope that opens is, and what the loop's variables become. -/
theorem openJwe_eq_ok (h : openJwe prim resolver secrets st = .ok st') :
    ∃ jwe header kid key sender metadata plaintext,
      Jwe.parse prim st.current = .ok jwe ∧ jwe.protectedHeader prim = .ok header ∧
      header.alg.layer.allowedIn st.layers ∧ findDecryptionKey secrets jwe = .ok (kid, key) ∧
      layerSender resolver header st.metadata = .ok (sender, metadata) ∧
      jwe.decrypt prim kid key sender = .ok plaintext ∧ fromUtf8 plaintext = some st'.current ∧
      st'.metadata = { metadata with encrypted := true, encryptedToKids := jwe.recipientKids,
                                     decryptedByKid := some kid } ∧
      st'.layers = st.layers ++ [header.alg.layer] ∧
      st'.recipientDids = st.recipientDids ++ [didOf kid] := by
  simp only [openJwe, error_bind, bind_eq_ok, guard_eq_ok, pure_eq_ok, payloadText,
    okOr_eq_ok] at h
  obtain ⟨jwe, hparse, header, hheader, ⟨⟩, -, hallowed, ⟨kid, key⟩, hkey, ⟨sender, metadata⟩,
    hsender, plaintext, hplain, current, hcurrent, rfl⟩ := h
  exact ⟨jwe, header, kid, key, sender, metadata, plaintext, hparse, hheader, by
    simpa using hallowed, hkey, hsender, hplain, hcurrent, rfl, rfl, rfl⟩

/-- What a signed envelope that opens is, and what the loop's variables become. -/
theorem openJws_eq_ok (h : openJws prim resolver st = .ok st') :
    ∃ jws kid doc key payload,
      .signed ∉ st.layers ∧ Jws.parse prim st.current = .ok jws ∧ jws.signerKid prim = .ok kid ∧
      resolver (didOf kid) = .ok doc ∧ doc.authenticationKey kid = .ok key ∧
      jws.verify prim key = .ok payload ∧ fromUtf8 payload = some st'.current ∧
      st'.metadata = { st.metadata with nonRepudiation := true, signedMessage := some st.current,
                                        signFrom := some kid } ∧
      st'.layers = st.layers ++ [.signed] ∧ st'.recipientDids = st.recipientDids := by
  simp only [openJws, error_bind, bind_eq_ok, guard_eq_ok, pure_eq_ok, payloadText,
    okOr_eq_ok] at h
  obtain ⟨hsigned, jws, hparse, header, -, ⟨⟩, -, kid, hkid, doc, hdoc, key, hkey, payload,
    hverify, current, hcurrent, rfl⟩ := h
  exact ⟨jws, kid, doc, key, payload, by simpa using hsigned, hparse, hkid, hdoc, hkey, hverify,
    hcurrent, rfl, rfl, rfl⟩

/-- An iteration that opens a layer opens an encrypted or a signed envelope. -/
theorem round_peeled (h : round prim resolver secrets st = .ok (.peeled st')) :
    openJwe prim resolver secrets st = .ok st' ∨ openJws prim resolver st = .ok st' := by
  simp only [round, bind_eq_ok] at h
  obtain ⟨value, -, obj, -, h⟩ := h
  split_ifs at h
  · cases hopen : openJwe prim resolver secrets st <;> simp_all
  · cases hopen : openJws prim resolver st <;> simp_all
  · cases hread : readPlaintext prim value <;> simp_all

/-- An iteration that ends the loop read a valid plaintext. -/
theorem round_plaintext {message : Message}
    (h : round prim resolver secrets st = .ok (.plaintext message)) :
    ∃ value, prim.value.fromStr st.current = .ok value ∧ prim.messageOf value = .ok message ∧
      message.validate = .ok () := by
  simp only [round, bind_eq_ok, ofJson_eq_ok] at h
  obtain ⟨value, hvalue, obj, -, h⟩ := h
  split_ifs at h
  · cases hopen : openJwe prim resolver secrets st <;> simp_all
  · cases hopen : openJws prim resolver st <;> simp_all
  · cases hread : readPlaintext prim value with
    | error e => simp [hread] at h
    | ok message' =>
      obtain rfl : message' = message := by simpa [hread] using h
      simp only [readPlaintext, bind_eq_ok, ofJson_eq_ok, pure_eq_ok] at hread
      obtain ⟨message'', hmessage, ⟨⟩, hvalid, rfl⟩ := hread
      exact ⟨value, hvalue, hmessage, hvalid⟩

/-- Each layer the loop opens leaves fewer to come. -/
theorem round_remaining (h : round prim resolver secrets st = .ok (.peeled st')) :
    remaining st'.layers < remaining st.layers := by
  rcases round_peeled h with h | h
  · obtain ⟨_, header, _, _, _, _, _, -, -, hallowed, -, -, -, -, -, hlayers, -⟩ := openJwe_eq_ok h
    rw [hlayers]
    cases halg : header.alg <;>
      simp only [halg, KeyWrap.layer, Layer.allowedIn, List.isEmpty_iff, Bool.or_eq_true,
        beq_iff_eq] at hallowed ⊢
    · simp [hallowed, remaining]
    · rcases hallowed with hallowed | hallowed <;> simp [hallowed, remaining]
  · obtain ⟨_, _, _, _, _, hsigned, -, -, -, -, -, -, -, hlayers, -⟩ := openJws_eq_ok h
    rw [hlayers]
    simp only [remaining, List.contains_append, List.contains_cons, beq_self_eq_true, Bool.true_or,
      Bool.or_true, ↓reduceIte, List.contains_iff_mem, hsigned]
    split_ifs <;> decide

/-- The loop: opens layers until it meets a plaintext. Returns it with the variables' last
values. -/
def unpackLoop (prim : Primitives) (resolver : Resolver) (secrets : Secrets) (st : Peel) :
    Result (Message × Peel) :=
  match _h : round prim resolver secrets st with
  | .error e => .error e
  | .ok (.plaintext message) => .ok (message, st)
  | .ok (.peeled next) => unpackLoop prim resolver secrets next
termination_by remaining st.layers
decreasing_by exact round_remaining ‹_›

/-- Where a round peels a layer the loop goes on from what it peeled. -/
theorem unpackLoop_peeled (h : round prim resolver secrets st = .ok (.peeled st')) :
    unpackLoop prim resolver secrets st = unpackLoop prim resolver secrets st' := by
  rw [unpackLoop]
  split <;> simp_all

/-- Where a round comes to the plaintext the loop ends with the message. -/
theorem unpackLoop_plaintext {message : Message}
    (h : round prim resolver secrets st = .ok (.plaintext message)) :
    unpackLoop prim resolver secrets st = .ok (message, st) := by
  rw [unpackLoop]
  split <;> simp_all

/-- Spec: "Message Layer Addressing Consistency". -/
def checkConsistency (message : Message) (metadata : UnpackMetadata)
    (recipientDids : List String) : Result Unit :=
  if metadata.encryptedFromKid.any fun skid => message.from_ != some (didOf skid) then
    .error (.inconsistent "from does not match the authcrypt sender")
  else if metadata.signFrom.any fun signer => message.from_ != some (didOf signer) then
    .error (.inconsistent "from does not match the signer")
  else if message.to_.any fun dids => recipientDids.any fun did => !dids.contains did then
    .error (.inconsistent "to does not contain the recipient")
  else .ok ()

/-- Checks the `from_prior` header, if there is one, and notes its claims. -/
def checkFromPrior (prim : Primitives) (resolver : Resolver) (message : Message)
    (metadata : UnpackMetadata) : Result UnpackMetadata :=
  match message.fromPrior with
  | some token => do
    let (claims, kid) ← FromPrior.unpack prim token resolver
    if message.from_ ≠ some claims.sub then
      .error (.inconsistent "from_prior sub is not the message's from")
    pure { metadata with fromPrior := some claims, fromPriorIssuerKid := some kid }
  | none => .ok metadata

/-- Unpacks a DIDComm message in any of its forms and checks it. -/
def unpack (prim : Primitives) (resolver : Resolver) (secrets : Secrets) (packed : String) :
    Result (Message × UnpackMetadata) := do
  let (message, st) ← unpackLoop prim resolver secrets
    { current := packed, metadata := .default, layers := [], recipientDids := [] }
  let metadata := { st.metadata with
    anonymousSender := st.metadata.encrypted && !st.metadata.authenticated }
  checkConsistency message metadata st.recipientDids
  let metadata ← checkFromPrior prim resolver message metadata
  pure (message, metadata)

end Didcomm
