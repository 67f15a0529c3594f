import AlmenaMediator.Didcomm.Unpack
import AlmenaMediator.Library.Transition

/-!
# What an unpacked message attests

An `Envelope` is a layer together with the keys it was opened with, and `Opens` the evidence for it:
the envelope parsed, its keys are in the relationships of their DIDs' documents, and the decryption
or the signature check succeeded. A successful `unpack` opens a run of envelopes from the packed
text to the plaintext, and its metadata is what that run attests: the flags, the key ids and the
plaintext headers agree with the layers actually opened (`unpack_sound`).
-/

namespace Didcomm

variable (prim : Primitives) (resolver : Resolver) (secrets : Secrets)

/-- A layer with the keys it was opened with. -/
inductive Envelope
  /-- Encrypted anonymously: our key id and key. -/
  | anoncrypt (jwe : Jwe) (kid : String) (key : SecretKey)
  /-- Encrypted with sender authentication: our key id and key, the sender's key id and key. -/
  | authcrypt (jwe : Jwe) (kid : String) (key : SecretKey) (skid : String) (senderKey : PublicKey)
  /-- Signed: the signer's key id and key. -/
  | signed (jws : Jws) (kid : String) (key : PublicKey)

/-- The key id an encryption layer was decrypted with. -/
def Envelope.recipientKid : Envelope → Option String
  | anoncrypt _ kid _ => some kid
  | authcrypt _ kid _ _ _ => some kid
  | signed _ _ _ => none

/-- `text` is an encrypted envelope under `alg`, for a key we hold, and decrypts to `inner`. -/
structure Decrypts (alg : KeyWrap) (jwe : Jwe) (kid : String) (key : SecretKey)
    (sender : Option PublicKey) (text inner : String) : Prop where
  parsed : Jwe.parse prim text = .ok jwe
  /-- The protected header has the key-wrapping algorithm. -/
  algorithm : ∃ header, jwe.protectedHeader prim = .ok header ∧ header.alg = alg
  /-- The key is one of the envelope's recipients, and ours. -/
  recipient : kid ∈ jwe.recipientKids ∧ secrets kid = .ok (some key)
  decrypted : ∃ plaintext, jwe.decrypt prim kid key sender = .ok plaintext ∧
    fromUtf8 plaintext = some inner

/-- The evidence that `text` is this envelope around `inner`. -/
def Opens (text : String) (envelope : Envelope) (inner : String) : Prop :=
  match envelope with
  | .anoncrypt jwe kid key => Decrypts prim secrets .ecdhEsA256Kw jwe kid key none text inner
  | .authcrypt jwe kid key skid senderKey =>
    Decrypts prim secrets .ecdh1PuA256Kw jwe kid key (some senderKey) text inner ∧
      (∃ header, jwe.protectedHeader prim = .ok header ∧ header.senderKid = .ok (some skid)) ∧
      ∃ doc, resolver (didOf skid) = .ok doc ∧ doc.Holds doc.keyAgreement skid senderKey
  | .signed jws kid key =>
    Jws.parse prim text = .ok jws ∧ jws.signerKid prim = .ok kid ∧
      (∃ doc, resolver (didOf kid) = .ok doc ∧ doc.Holds doc.authentication kid key) ∧
      ∃ payload, jws.verify prim key = .ok payload ∧ fromUtf8 payload = some inner

/-- `packed` is `envelopes`, outermost first, around the text `plaintext`. -/
abbrev Layered (packed : String) (envelopes : List Envelope) (plaintext : String) : Prop :=
  Transition.Run (Opens prim resolver secrets) packed envelopes plaintext

/-! ## The loop invariant -/

/-- What the variables of the loop say about the envelopes opened so far. -/
structure Recorded (envelopes : List Envelope) (st : Peel) : Prop where
  encrypted : st.metadata.encrypted ↔ ∃ e ∈ envelopes, e.recipientKid.isSome
  authenticated : st.metadata.authenticated ↔ st.metadata.encryptedFromKid.isSome
  encryptedFromKid : ∀ skid, st.metadata.encryptedFromKid = some skid →
    ∃ jwe kid key senderKey, .authcrypt jwe kid key skid senderKey ∈ envelopes
  authcrypt : ∀ jwe kid key skid senderKey, .authcrypt jwe kid key skid senderKey ∈ envelopes →
    st.metadata.authenticated
  nonRepudiation : st.metadata.nonRepudiation ↔ st.metadata.signFrom.isSome
  signFrom : ∀ kid, st.metadata.signFrom = some kid → ∃ jws key, .signed jws kid key ∈ envelopes
  signed : ∀ jws kid key, .signed jws kid key ∈ envelopes → st.metadata.nonRepudiation
  recipientDids : st.recipientDids = (envelopes.filterMap Envelope.recipientKid).map didOf

variable {prim resolver secrets} {envelopes : List Envelope} {st st' : Peel}

/-- Nothing is opened when the loop starts. -/
theorem Recorded.start (packed : String) :
    Recorded [] { current := packed, metadata := .default, layers := [], recipientDids := [] } := by
  constructor <;> simp [UnpackMetadata.default]

/-- The key found is one of the recipients' and ours. -/
theorem findDecryptionKeyIn_eq_ok {kids : List String} {kid : String} {key : SecretKey}
    (h : findDecryptionKeyIn secrets kids = .ok (kid, key)) :
    kid ∈ kids ∧ secrets kid = .ok (some key) := by
  induction kids with
  | nil => simp [findDecryptionKeyIn] at h
  | cons first rest ih =>
    rw [findDecryptionKeyIn, bind_eq_ok] at h
    obtain ⟨found, hfound, h⟩ := h
    cases found with
    | none => exact ⟨List.mem_cons_of_mem _ (ih h).1, (ih h).2⟩
    | some key' =>
      obtain ⟨rfl, rfl⟩ : first = kid ∧ key' = key := by simpa [pure_eq_ok] using h
      exact ⟨List.mem_cons_self, hfound⟩

/-- Opening an encrypted envelope is evidence for one more layer, and the variables record it. -/
theorem Recorded.openJwe (hrec : Recorded envelopes st)
    (h : openJwe prim resolver secrets st = .ok st') :
    ∃ e, Opens prim resolver secrets st.current e st'.current ∧
      Recorded (envelopes ++ [e]) st' := by
  obtain ⟨jwe, header, kid, key, sender, metadata, plaintext, hparse, hheader, -, hkey, hsender,
    hplain, htext, hmeta, -, hdids⟩ := openJwe_eq_ok h
  have hours := findDecryptionKeyIn_eq_ok hkey
  -- an anoncrypt names no sender, an authcrypt the key its document lists
  cases halg : header.alg with
  | ecdhEsA256Kw =>
    obtain ⟨rfl, rfl⟩ : none = sender ∧ _ = metadata := by
      simpa only [layerSender, halg, pure_eq_ok, Prod.mk.injEq] using hsender
    refine ⟨.anoncrypt jwe kid key,
      ⟨hparse, ⟨header, hheader, halg⟩, hours, plaintext, hplain, htext⟩, ?_⟩
    constructor
    · simp [hmeta, Envelope.recipientKid]
    · simpa [hmeta] using hrec.authenticated
    · simpa [hmeta] using hrec.encryptedFromKid
    · simpa [hmeta] using hrec.authcrypt
    · simpa [hmeta] using hrec.nonRepudiation
    · simpa [hmeta] using hrec.signFrom
    · simpa [hmeta] using hrec.signed
    · simp [hdids, hrec.recipientDids, Envelope.recipientKid]
  | ecdh1PuA256Kw =>
    simp only [layerSender, halg, bind_eq_ok, okOr_eq_ok, pure_eq_ok, Prod.mk.injEq] at hsender
    obtain ⟨_, hskid, skid, rfl, doc, hdoc, senderKey, hsenderKey, rfl, rfl⟩ := hsender
    refine ⟨.authcrypt jwe kid key skid senderKey,
      ⟨⟨hparse, ⟨header, hheader, halg⟩, hours, plaintext, hplain, htext⟩, ⟨header, hheader, hskid⟩,
        doc, hdoc, DidDocument.keyIn_eq_ok.mp hsenderKey⟩, ?_⟩
    constructor
    · simp [hmeta, Envelope.recipientKid]
    · simp [hmeta]
    · intro skid' hskid'
      obtain rfl : skid = skid' := by simpa [hmeta] using hskid'
      exact ⟨jwe, kid, key, senderKey, by simp⟩
    · simp [hmeta]
    · simpa [hmeta] using hrec.nonRepudiation
    · simpa [hmeta] using hrec.signFrom
    · simpa [hmeta] using hrec.signed
    · simp [hdids, hrec.recipientDids, Envelope.recipientKid]

/-- Opening a signed envelope is evidence for one more layer, and the variables record it. -/
theorem Recorded.openJws (hrec : Recorded envelopes st)
    (h : openJws prim resolver st = .ok st') :
    ∃ e, Opens prim resolver secrets st.current e st'.current ∧
      Recorded (envelopes ++ [e]) st' := by
  obtain ⟨jws, kid, doc, key, payload, -, hparse, hkid, hdoc, hkey, hverify, htext, hmeta, -,
    hdids⟩ := openJws_eq_ok h
  refine ⟨.signed jws kid key,
    ⟨hparse, hkid, ⟨doc, hdoc, DidDocument.keyIn_eq_ok.mp hkey⟩, payload, hverify, htext⟩, ?_⟩
  -- a signature adds its signer and nothing about encryption
  constructor
  · simpa [hmeta, or_and_right, exists_or, Envelope.recipientKid] using hrec.encrypted
  · simpa [hmeta] using hrec.authenticated
  · simpa [hmeta] using hrec.encryptedFromKid
  · simpa [hmeta] using hrec.authcrypt
  · simp [hmeta]
  · intro kid' hkid'
    obtain rfl : kid = kid' := by simpa [hmeta] using hkid'
    exact ⟨jws, key, by simp⟩
  · simp [hmeta]
  · simp [hdids, hrec.recipientDids, Envelope.recipientKid]

/-- One iteration of the loop opens one more envelope. -/
theorem Recorded.round (hrec : Recorded envelopes st)
    (h : round prim resolver secrets st = .ok (.peeled st')) :
    ∃ e, Opens prim resolver secrets st.current e st'.current ∧
      Recorded (envelopes ++ [e]) st' := by
  rcases round_peeled h with h | h
  · exact hrec.openJwe h
  · exact hrec.openJws h

/-- The text is a valid plaintext message. -/
def IsPlaintext (prim : Primitives) (text : String) (message : Message) : Prop :=
  ∃ value, prim.value.fromStr text = .ok value ∧ prim.messageOf value = .ok message ∧
    message.validate = .ok ()

/-- A loop that ends has opened a run of envelopes down to a valid plaintext and recorded it. -/
theorem Recorded.loop {message : Message} (hrec : Recorded envelopes st)
    (h : unpackLoop prim resolver secrets st = .ok (message, st')) :
    ∃ inner, Layered prim resolver secrets st.current inner st'.current ∧
      Recorded (envelopes ++ inner) st' ∧ IsPlaintext prim st'.current message := by
  fun_induction unpackLoop prim resolver secrets st generalizing envelopes with
  | case1 st e hround => cases h
  | case2 st message' hround =>
    obtain ⟨rfl, rfl⟩ : message' = message ∧ st = st' := by simpa using h
    exact ⟨[], .nil, by simpa using hrec, round_plaintext hround⟩
  | case3 st next hround ih =>
    obtain ⟨e, hopens, hnext⟩ := hrec.round hround
    obtain ⟨inner, hlayered, hend, hplain⟩ := ih hnext h
    exact ⟨e :: inner, .cons hopens hlayered, by simpa using hend, hplain⟩

/-! ## The checks after the loop -/

/-- The consistency check accepts exactly the messages whose headers agree with the envelopes. -/
theorem checkConsistency_eq_ok {message : Message} {metadata : UnpackMetadata}
    {recipientDids : List String} :
    checkConsistency message metadata recipientDids = .ok () ↔
      (∀ skid, metadata.encryptedFromKid = some skid → message.from_ = some (didOf skid)) ∧
      (∀ signer, metadata.signFrom = some signer → message.from_ = some (didOf signer)) ∧
      ∀ dids, message.to_ = some dids → ∀ did ∈ recipientDids, did ∈ dids := by
  simp only [checkConsistency, guard_eq_ok, Option.any_eq_true, List.any_eq_true, bne_iff_ne,
    Bool.not_eq_true', List.contains_eq_mem, decide_eq_false_iff_not, not_exists, not_and, not_not,
    and_true, ne_eq]

/-- What the `from_prior` check leaves as it was, and what it attests. -/
theorem checkFromPrior_eq_ok {message : Message} {metadata metadata' : UnpackMetadata}
    (h : checkFromPrior prim resolver message metadata = .ok metadata') :
    (∃ prior issuerKid, metadata' =
        { metadata with fromPrior := prior, fromPriorIssuerKid := issuerKid }) ∧
      ∀ token, message.fromPrior = some token → ∃ jwt claims kid,
        metadata'.fromPrior = some claims ∧ metadata'.fromPriorIssuerKid = some kid ∧
        SignedBy prim resolver token kid claims.iss jwt ∧
        prim.fromPrior.fromSlice jwt.payload = .ok claims ∧
        message.from_ = some claims.sub ∧ claims.iss ≠ claims.sub := by
  cases htoken : message.fromPrior with
  | none =>
    obtain rfl : metadata = metadata' := by simpa [checkFromPrior, htoken] using h
    exact ⟨⟨_, _, rfl⟩, by simp⟩
  | some token =>
    simp only [checkFromPrior, htoken, error_bind, bind_eq_ok, guard_eq_ok, pure_eq_ok] at h
    obtain ⟨⟨claims, kid⟩, hunpack, hfrom, rfl⟩ := h
    obtain ⟨jwt, hsigned, hclaims, hne⟩ := FromPrior.unpack_sound prim hunpack
    refine ⟨⟨_, _, rfl⟩, fun token' htoken' => ?_⟩
    obtain rfl : token = token' := by simpa using htoken'
    exact ⟨jwt, claims, kid, rfl, rfl, hsigned, hclaims, not_not.mp hfrom, hne⟩

/-! ## The result -/

/-- What the metadata of an unpacked message attests, given the envelopes opened. -/
structure Attested (prim : Primitives) (resolver : Resolver) (envelopes : List Envelope)
    (message : Message) (metadata : UnpackMetadata) : Prop where
  encrypted : metadata.encrypted ↔ ∃ e ∈ envelopes, e.recipientKid.isSome
  anonymousSender : metadata.anonymousSender = (metadata.encrypted && !metadata.authenticated)
  authenticated : metadata.authenticated ↔ ∃ skid, metadata.encryptedFromKid = some skid
  /-- An authenticated sender is the message's `from`, and an authcrypt layer was opened with a key
  its document lists under `keyAgreement`. -/
  sender : ∀ skid, metadata.encryptedFromKid = some skid → message.from_ = some (didOf skid) ∧
    ∃ jwe kid key senderKey doc, .authcrypt jwe kid key skid senderKey ∈ envelopes ∧
      resolver (didOf skid) = .ok doc ∧ doc.Holds doc.keyAgreement skid senderKey
  nonRepudiation : metadata.nonRepudiation ↔ ∃ signer, metadata.signFrom = some signer
  /-- A signer is the message's `from`, and a signed layer verified with a key its document lists
  under `authentication`. -/
  signer : ∀ signer, metadata.signFrom = some signer → message.from_ = some (didOf signer) ∧
    ∃ jws key doc payload, .signed jws signer key ∈ envelopes ∧
      resolver (didOf signer) = .ok doc ∧ doc.Holds doc.authentication signer key ∧
      jws.verify prim key = .ok payload
  /-- The message is addressed to every DID whose key opened a layer. -/
  addressed : ∀ dids, message.to_ = some dids → ∀ e ∈ envelopes, ∀ kid,
    e.recipientKid = some kid → didOf kid ∈ dids
  /-- A DID rotation is signed by the prior DID, for the message's `from`. -/
  rotated : ∀ token, message.fromPrior = some token → ∃ jwt claims kid,
    metadata.fromPrior = some claims ∧ metadata.fromPriorIssuerKid = some kid ∧
    SignedBy prim resolver token kid claims.iss jwt ∧
    prim.fromPrior.fromSlice jwt.payload = .ok claims ∧
    message.from_ = some claims.sub ∧ claims.iss ≠ claims.sub

/-- The envelope of an authcrypt layer was opened with a key of the sender's document. -/
theorem Layered.authcrypt_doc {packed plaintext : String} {jwe : Jwe} {kid skid : String}
    {key : SecretKey} {senderKey : PublicKey}
    (h : Layered prim resolver secrets packed envelopes plaintext)
    (hmem : .authcrypt jwe kid key skid senderKey ∈ envelopes) :
    ∃ doc, resolver (didOf skid) = .ok doc ∧ doc.Holds doc.keyAgreement skid senderKey := by
  obtain ⟨text, inner, -, -, hdoc⟩ := h.exists_step hmem
  exact hdoc

/-- The envelope of a signed layer verified with a key of the signer's document. -/
theorem Layered.signed_doc {packed plaintext : String} {jws : Jws} {kid : String} {key : PublicKey}
    (h : Layered prim resolver secrets packed envelopes plaintext)
    (hmem : .signed jws kid key ∈ envelopes) :
    ∃ doc payload, resolver (didOf kid) = .ok doc ∧ doc.Holds doc.authentication kid key ∧
      jws.verify prim key = .ok payload := by
  obtain ⟨text, inner, -, -, ⟨doc, hdoc, hholds⟩, payload, hverify, -⟩ := h.exists_step hmem
  exact ⟨doc, payload, hdoc, hholds, hverify⟩

/-- What was recorded of the envelopes of an accepted message, and the checks it passed. -/
theorem unpack_recorded {packed : String} {message : Message} {metadata : UnpackMetadata}
    (h : unpack prim resolver secrets packed = .ok (message, metadata)) :
    ∃ envelopes st checked, Layered prim resolver secrets packed envelopes st.current ∧
      Recorded envelopes st ∧ IsPlaintext prim st.current message ∧
      checked = { st.metadata with
        anonymousSender := st.metadata.encrypted && !st.metadata.authenticated } ∧
      checkConsistency message checked st.recipientDids = .ok () ∧
      checkFromPrior prim resolver message checked = .ok metadata := by
  simp only [unpack, bind_eq_ok, pure_eq_ok, Prod.mk.injEq] at h
  obtain ⟨⟨message', st⟩, hloop, ⟨⟩, hcheck, metadata', hprior, rfl, rfl⟩ := h
  obtain ⟨envelopes, hlayered, hrec, hplain⟩ := (Recorded.start packed).loop hloop
  rw [List.nil_append] at hrec
  exact ⟨envelopes, st, _, hlayered, hrec, hplain, rfl, hcheck, hprior⟩

/-- The sender an accepted message authenticates is its `from`. -/
theorem unpack_sender {packed : String} {message : Message} {metadata : UnpackMetadata}
    (h : unpack prim resolver secrets packed = .ok (message, metadata))
    (hauth : metadata.authenticated) :
    ∃ skid, metadata.encryptedFromKid = some skid ∧ message.from_ = some (didOf skid) := by
  obtain ⟨envelopes, st, checked, -, hrec, -, rfl, hcheck, hprior⟩ := unpack_recorded h
  obtain ⟨hfrom, -⟩ := checkConsistency_eq_ok.mp hcheck
  obtain ⟨⟨prior, issuerKid, rfl⟩, -⟩ := checkFromPrior_eq_ok hprior
  obtain ⟨skid, hskid⟩ := Option.isSome_iff_exists.mp (hrec.authenticated.mp hauth)
  exact ⟨skid, hskid, hfrom skid hskid⟩

/-- A message that authenticates its sender is encrypted. -/
theorem unpack_encrypted {packed : String} {message : Message} {metadata : UnpackMetadata}
    (h : unpack prim resolver secrets packed = .ok (message, metadata))
    (hauth : metadata.authenticated) : metadata.encrypted := by
  obtain ⟨envelopes, st, checked, -, hrec, -, rfl, -, hprior⟩ := unpack_recorded h
  obtain ⟨⟨prior, issuerKid, rfl⟩, -⟩ := checkFromPrior_eq_ok hprior
  obtain ⟨skid, hskid⟩ := Option.isSome_iff_exists.mp (hrec.authenticated.mp hauth)
  obtain ⟨jwe, kid, key, senderKey, hmem⟩ := hrec.encryptedFromKid skid hskid
  exact hrec.encrypted.mpr ⟨_, hmem, rfl⟩

/-- Soundness of `unpack`: an accepted message comes from a run of envelopes, each opened with keys
of the right relationship, and its metadata is what they attest. -/
theorem unpack_attested {packed : String} {message : Message} {metadata : UnpackMetadata}
    (h : unpack prim resolver secrets packed = .ok (message, metadata)) :
    ∃ envelopes plaintext, Layered prim resolver secrets packed envelopes plaintext ∧
      IsPlaintext prim plaintext message ∧ Attested prim resolver envelopes message metadata := by
  obtain ⟨envelopes, st, checked, hlayered, hrec, hplain, rfl, hcheck, hprior⟩ := unpack_recorded h
  obtain ⟨hfrom, hsigner, hto⟩ := checkConsistency_eq_ok.mp hcheck
  obtain ⟨⟨prior, issuerKid, rfl⟩, hrotated⟩ := checkFromPrior_eq_ok hprior
  refine ⟨envelopes, st.current, hlayered, hplain, ?_⟩
  -- what the metadata says, each from the envelope that made the loop record it
  constructor
  · exact hrec.encrypted
  · rfl
  · simpa [Option.isSome_iff_exists] using hrec.authenticated
  · intro skid hskid
    obtain ⟨jwe, kid, key, senderKey, hmem⟩ := hrec.encryptedFromKid skid hskid
    obtain ⟨doc, hdoc, hholds⟩ := hlayered.authcrypt_doc hmem
    exact ⟨hfrom skid hskid, jwe, kid, key, senderKey, doc, hmem, hdoc, hholds⟩
  · simpa [Option.isSome_iff_exists] using hrec.nonRepudiation
  · intro signer hsign
    obtain ⟨jws, key, hmem⟩ := hrec.signFrom signer hsign
    obtain ⟨doc, payload, hdoc, hholds, hverify⟩ := hlayered.signed_doc hmem
    exact ⟨hsigner signer hsign, jws, key, doc, payload, hmem, hdoc, hholds, hverify⟩
  · intro dids hdids e he kid hkid
    refine hto dids hdids _ ?_
    rw [hrec.recipientDids]
    exact List.mem_map_of_mem (List.mem_filterMap.mpr ⟨e, he, hkid⟩)
  · exact hrotated

/-! ### A signed message -/

namespace SignedVector

/-- The plaintext, encoded. -/
def payload : String :=
  "eyJpZCI6IjEiLCJ0eXBlIjoidCIsImZyb20iOiJkaWQ6ZXg6YSIsImJvZHkiOnt9fQ"

def protectedHeader : String := "eyJhbGciOiJFZERTQSJ9"

def signature : String :=
  "hkzMyfte4sG-XEen3zG2v1AG4Lc53DGVHHHouOt9Nrjl7tAzcwy2kpXP2fm1X4zFuIZklwYQrLCYj3_mSFo6BA"

/-- The signed message as text. -/
def packed : String :=
  "\x7b\"payload\":\"" ++ payload ++ "\",\"signatures\":[\x7b\"protected\":\"" ++ protectedHeader ++
    "\",\"signature\":\"" ++ signature ++
    "\",\"header\":\x7b\"kid\":\"did:ex:a#key-1\"\x7d\x7d]\x7d"

/-- Its JWS. -/
def jws : Jws where
  payload := payload
  signatures := [{ «protected» := protectedHeader, signature := signature,
                   header := some "did:ex:a#key-1" }]

/-- The signed message as JSON. -/
def value : Value :=
  .object [("payload", .string payload), ("signatures", .array [.object
    [("protected", .string protectedHeader), ("signature", .string signature),
     ("header", .object [("kid", .string "did:ex:a#key-1")])]])]

/-- The plaintext inside. -/
def plaintext : String :=
  "\x7b\"id\":\"1\",\"type\":\"t\",\"from\":\"did:ex:a\",\"body\":\x7b\x7d\x7d"

/-- The plaintext as a message. -/
def message : Message where
  id := "1"
  type_ := "t"
  typ := none
  from_ := some "did:ex:a"
  to_ := none
  thid := none
  pthid := none
  createdTime := none
  expiresTime := none
  body := .object []
  attachments := none
  fromPrior := none
  extraHeaders := []

/-- The plaintext as JSON. -/
def plaintextValue : Value :=
  .object [("id", .string "1"), ("type", .string "t"), ("from", .string "did:ex:a"),
    ("body", .object [])]

/-- The signing key: the Ed25519 public key of the all-zero seed. -/
def key : PublicKey where
  curve := .ed25519
  bytes := [59, 106, 39, 188, 206, 182, 164, 45, 98, 163, 168, 208, 42, 111, 13, 115, 101, 50, 21,
    119, 29, 226, 67, 166, 58, 192, 72, 161, 139, 89, 218, 41]

/-- The signer's document. -/
def alice : DidDocument where
  id := "did:ex:a"
  alsoKnownAs := []
  verificationMethod := [⟨"did:ex:a#key-1", "did:ex:a", key⟩]
  authentication := ["did:ex:a#key-1"]
  assertionMethod := []
  keyAgreement := []
  service := []

/-- The bytes of the signature. -/
def signatureBytes : Bytes :=
  [134, 76, 204, 201, 251, 94, 226, 193, 190, 92, 71, 167, 223, 49, 182, 191, 80, 6, 224,
  183, 57, 220, 49, 149, 28, 113, 232, 184, 235, 125, 54, 184, 229, 238, 208, 51, 115, 12,
  182, 146, 149, 207, 217, 249, 181, 95, 140, 197, 184, 134, 100, 151, 6, 16, 172, 176,
  152, 143, 127, 230, 72, 90, 58, 4]

/-- The packages' answers on this input. -/
def packages : Primitives :=
  { Primitives.refusing with
    value := ⟨fun bytes => if bytes = utf8 packed then .ok value
      else if bytes = utf8 plaintext then .ok plaintextValue else .error "", fun _ => ""⟩
    jwsInput := fun bytes =>
      if bytes = utf8 packed then .ok (.general jws.payload jws.signatures) else .error ""
    jwsHeader := ⟨fun bytes =>
      if bytes = utf8 "\x7b\"alg\":\"EdDSA\"\x7d" then .ok ⟨none, "EdDSA", none⟩ else .error "",
      fun _ => ""⟩
    messageOf := fun v => if v = plaintextValue then .ok message else .error ""
    verifies := fun curve bytes input sig => curve = key.curve && bytes = key.bytes &&
      input = utf8 (protectedHeader ++ "." ++ payload) && sig = signatureBytes }

/-- The document is found under its DID. -/
def documents : Resolver := fun did =>
  if did = alice.id then .ok alice else .error (.didNotFound did)

/-- No secrets are needed. -/
def noSecrets : Secrets := fun _ => .ok none

/-- The loop's variables once the signature is checked. -/
def opened : Peel where
  current := plaintext
  metadata := { UnpackMetadata.default with nonRepudiation := true, signedMessage := some packed,
                                            signFrom := some "did:ex:a#key-1" }
  layers := [.signed]
  recipientDids := []

/-- Unpacking the envelope of the example gives the signed message in it. -/
theorem unpack_eq :
    unpack packages documents noSecrets packed = .ok (message, opened.metadata) := by
  have hsigned : round packages documents noSecrets ⟨packed, .default, [], []⟩ =
    .ok (.peeled opened) := by
    decide +kernel
  have hplain : round packages documents noSecrets opened = .ok (.plaintext message) := by
    decide +kernel
  rw [unpack, unpackLoop_peeled hsigned, unpackLoop_plaintext hplain]
  decide +kernel

end SignedVector

/-- The signed message unpacks, and is attested. -/
theorem unpack_attested_signed :
    ∃ envelopes plaintext,
      Layered SignedVector.packages SignedVector.documents
        SignedVector.noSecrets SignedVector.packed envelopes plaintext ∧
      IsPlaintext SignedVector.packages plaintext SignedVector.message ∧
      Attested SignedVector.packages SignedVector.documents envelopes SignedVector.message
        SignedVector.opened.metadata :=
  unpack_attested SignedVector.unpack_eq

end Didcomm
