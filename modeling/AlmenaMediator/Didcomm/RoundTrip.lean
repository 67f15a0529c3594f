import AlmenaMediator.Didcomm.Onion
import AlmenaMediator.Didcomm.UnpackSoundness

/-!
# What is packed is unpacked

Packing wraps a plaintext in at most three envelopes: a signature, an encryption and, to hide the
sender, a second encryption. Each of them opens for whoever holds the secret of one of the recipient
keys, and the checks after the loop find the message consistent with them.

## Main results

* `round_sign`: a signed envelope opens with the signer's document;
* `unpackLoop_payload`, `round_encryptPayload`: what is encrypted, and its encryption;
* `unpack_packEncrypted`: an encrypted message is unpacked.
-/

namespace Didcomm

variable {prim : Primitives} {resolver : Resolver} {secrets receiver : Secrets} {m : Message}

/-! ## Keys -/

/-- The documents of a resolver list only key ids of their own DID. -/
def Resolver.ListsOwn (resolver : Resolver) : Prop :=
  ∀ did doc, resolver did = .ok doc → ∀ kid ∈ doc.keyAgreement ++
    doc.authentication, didOf kid = did

/-- The keys that documents list are the public halves of the secrets held for them. -/
def Resolver.ListsHalves (prim : Primitives) (resolver : Resolver) (secrets : Secrets) : Prop :=
  ∀ did doc, resolver did = .ok doc → ∀ kid ∈ doc.keyAgreement ++ doc.authentication, ∀ key,
    secrets kid = .ok (some key) →
      (doc.method kid).map VerificationMethod.key = some (key.publicKey prim)

/-- The key ids tried are listed. -/
theorem candidateKids_eq_ok {doc : DidDocument} {listed kids : List String}
    {relationship whom : String}
    (h : candidateKids (doc.keyIn listed relationship) listed whom = .ok kids) :
    ∀ kid ∈ kids, kid ∈ listed := by
  rw [candidateKids] at h
  split_ifs at h
  · obtain ⟨key, hkey, h⟩ := bind_eq_ok.mp h
    obtain rfl := pure_eq_ok.mp h
    intro kid hkid
    obtain rfl := List.mem_singleton.mp hkid
    exact (DidDocument.keyIn_eq_ok.mp hkey).mem
  · obtain rfl := Except.ok.inj h
    exact fun kid hkid => hkid

/-- A sender's key is one that is tried, we hold its secret, and it agrees with the recipients it is
used for. -/
theorem authcryptKeysIn_eq_ok {from_ : String} {recipientKeys recipients : List Recipient}
    {kids : List String} {sender : Sender}
    (h : authcryptKeysIn secrets from_ recipientKeys kids = .ok (sender, recipients)) :
    sender.kid ∈ kids ∧ secrets sender.kid = .ok (some sender.key) ∧
      ∀ r ∈ recipients, r ∈ recipientKeys := by
  -- the first kid with a secret that shares a curve with the recipients is taken
  induction kids with
  | nil => nomatch h
  | cons kid kids ih =>
    obtain ⟨held, hheld, h⟩ := bind_eq_ok.mp h
    have hrest : authcryptKeysIn secrets from_ recipientKeys kids = .ok (sender, recipients) →
        sender.kid ∈ kid :: kids ∧ secrets sender.kid = .ok (some sender.key) ∧
          ∀ r ∈ recipients, r ∈ recipientKeys := by
      intro h
      obtain ⟨hmem, hrest⟩ := ih h
      exact ⟨List.mem_cons_of_mem _ hmem, hrest⟩
    cases held with
    | none => exact hrest h
    | some secret =>
      dsimp only at h
      split_ifs at h with hnone
      · exact hrest h
      · obtain ⟨rfl, rfl⟩ := Prod.mk.inj (pure_eq_ok.mp h)
        exact ⟨List.mem_cons_self, hheld, fun r hr => List.mem_of_mem_filter hr⟩

/-- A signing key is one that is tried and we hold its secret. -/
theorem signingKeyIn_eq_ok {signBy kid : String} {kids : List String} {key : SecretKey}
    (h : signingKeyIn secrets signBy kids = .ok (kid, key)) :
    kid ∈ kids ∧ secrets kid = .ok (some key) := by
  induction kids with
  | nil => nomatch h
  | cons first kids ih =>
    obtain ⟨held, hheld, h⟩ := bind_eq_ok.mp h
    -- a kid that is not held, or cannot sign, is passed over
    have hrest : signingKeyIn secrets signBy kids = .ok (kid, key) →
        kid ∈ first :: kids ∧ secrets kid = .ok (some key) := by
      intro h
      obtain ⟨hmem, hsecret⟩ := ih h
      exact ⟨List.mem_cons_of_mem _ hmem, hsecret⟩
    cases held with
    | none => exact hrest h
    | some secret =>
      dsimp only at h
      split_ifs at h with hsigns
      · obtain ⟨rfl, rfl⟩ := Prod.mk.inj (pure_eq_ok.mp h)
        exact ⟨List.mem_cons_self, hheld⟩
      · exact hrest h

/-- The signing key is the secret half of a key of the signer. -/
theorem findSigningKey_eq_ok (hown : resolver.ListsOwn)
    (hhalves : resolver.ListsHalves prim secrets) {signBy kid : String} {key : SecretKey}
    (h : findSigningKey resolver secrets signBy = .ok (kid, key)) :
    didOf kid = didOf signBy ∧ ∃ doc, resolver (didOf kid) = .ok doc ∧
      doc.authenticationKey kid = .ok (key.publicKey prim) := by
  obtain ⟨doc, hdoc, h⟩ := bind_eq_ok.mp h
  obtain ⟨kids, hkids, h⟩ := bind_eq_ok.mp h
  obtain ⟨hmem, hsecret⟩ := signingKeyIn_eq_ok h
  have hlisted := candidateKids_eq_ok hkids kid hmem
  have hdid := hown _ _ hdoc kid (List.mem_append_right _ hlisted)
  refine ⟨hdid, doc, hdid ▸ hdoc, DidDocument.keyIn_eq_ok.mpr ⟨hlisted, ?_⟩⟩
  exact hhalves _ _ hdoc kid (List.mem_append_right _ hlisted) key hsecret

/-- The sender's key is the secret half of a key of the sender. -/
theorem findAuthcryptKeys_eq_ok (hown : resolver.ListsOwn)
    (hhalves : resolver.ListsHalves prim secrets) {from_ : String} {doc : DidDocument}
    (hdoc : resolver (didOf from_) = .ok doc) {recipientKeys recipients : List Recipient}
    {sender : Sender}
    (h : findAuthcryptKeys secrets doc from_ recipientKeys = .ok (sender, recipients)) :
    didOf sender.kid = didOf from_ ∧ doc.keyAgreementKey sender.kid =
      .ok (sender.key.publicKey prim) ∧ ∀ r ∈ recipients, r ∈ recipientKeys := by
  obtain ⟨kids, hkids, h⟩ := bind_eq_ok.mp h
  obtain ⟨hmem, hsecret, hrecipients⟩ := authcryptKeysIn_eq_ok h
  have hlisted := candidateKids_eq_ok hkids sender.kid hmem
  refine ⟨hown _ _ hdoc _ (List.mem_append_left _ hlisted), ?_, hrecipients⟩
  apply DidDocument.keyIn_eq_ok.mpr
  exact ⟨hlisted, hhalves _ _ hdoc _ (List.mem_append_left _ hlisted) _ hsecret⟩

/-! ## Signed envelopes -/

/-- What signing made an envelope of. -/
structure Jws.Signed (prim : Primitives) (payload : Bytes) (kid : String) (key : SecretKey)
    (jws : Jws) (header : JwsProtectedHeader) (signature : Bytes) : Prop where
  signed : prim.signs key
    (utf8 (b64Encode (prim.jwsHeader.toVec header) ++ "." ++ b64Encode payload)) = some signature
  signatures : jws.signatures =
    [⟨b64Encode (prim.jwsHeader.toVec header), b64Encode signature, some kid⟩]
  payload : jws.payload = b64Encode payload
  alg : key.curve.signatureAlg = some header.alg
  typ : header.typ = some signedTyp
  kid : header.kid = some kid

/-- A signature that is made has a header and bytes that sign the payload. -/
theorem Jws.sign_eq_ok {payload : Bytes} {kid : String} {key : SecretKey} {jws : Jws}
    (h : Jws.sign prim payload kid key = .ok jws) :
    ∃ header signature, Jws.Signed prim payload kid key jws header signature := by
  obtain ⟨alg, halg, h⟩ := bind_eq_ok.mp h
  obtain ⟨signature, hsignature, h⟩ := bind_eq_ok.mp h
  obtain rfl := pure_eq_ok.mp h
  have halg' : key.curve.signatureAlg = some alg := okOr_eq_ok.mp halg
  simp only [SecretKey.sign, halg', okOr_eq_ok] at hsignature
  exact ⟨⟨some signedTyp, alg, some kid⟩, signature, hsignature, rfl, rfl, halg', rfl, rfl⟩

namespace Jws.Signed

variable {payload signature : Bytes} {kid : String} {key : SecretKey} {jws : Jws}
  {header : JwsProtectedHeader}

/-- A JWS made by one signer has that signature as its only one. -/
theorem single (hsigned : Signed prim payload kid key jws header signature)
    (hlawful : prim.Lawful) : jws.single prim = .ok
      (⟨b64Encode (prim.jwsHeader.toVec header), b64Encode signature, some kid⟩, header) := by
  simp only [Jws.single, hsigned.signatures]
  refine bind_eq_ok.mpr ⟨_, b64Decode_b64Encode _, bind_eq_ok.mpr ⟨header, ?_, rfl⟩⟩
  exact ofJson_eq_ok.mpr (hlawful.jwsHeader header)

/-- The signer of a JWS made by one signer is that signer's key id. -/
theorem signerKid (hsigned : Signed prim payload kid key jws header signature)
    (hlawful : prim.Lawful) : jws.signerKid prim = .ok kid := by
  refine bind_eq_ok.mpr ⟨_, hsigned.single hlawful, ?_⟩
  simp only [hsigned.kid]
  exact guard_eq_ok.mpr ⟨not_not.mpr rfl, rfl⟩

/-- The protected header of a signed JWS is the one it was signed with, and its type is the signed
one. -/
theorem protectedHeader (hsigned : Signed prim payload kid key jws header signature)
    (hlawful : prim.Lawful) :
    jws.protectedHeader prim = .ok header ∧ checkTyp header.typ signedTyp = .ok () := by
  refine ⟨bind_eq_ok.mpr ⟨_, hsigned.single hlawful, rfl⟩, ?_⟩
  rw [hsigned.typ]
  decide

/-- The public half of the signing key verifies the signature. -/
theorem verify (hsigned : Signed prim payload kid key jws header signature)
    (hlawful : prim.Lawful) : jws.verify prim (key.publicKey prim) = .ok payload := by
  have hverified : (key.publicKey prim).verify prim
      (utf8 (b64Encode (prim.jwsHeader.toVec header) ++ "." ++ jws.payload))
        signature = .ok () := by
    rw [hsigned.payload, PublicKey.verify_eq_ok]
    refine ⟨?_, hlawful.verifies_signs hsigned.signed⟩
    simp [SecretKey.publicKey, hsigned.alg]
  refine bind_eq_ok.mpr ⟨_, hsigned.single hlawful, ?_⟩
  refine bind_eq_ok.mpr ⟨header.alg, okOr_eq_ok.mpr hsigned.alg, ?_⟩
  refine guard_eq_ok.mpr ⟨not_not.mpr rfl, ?_⟩
  refine bind_eq_ok.mpr ⟨signature, b64Decode_b64Encode _, bind_eq_ok.mpr ⟨(), hverified, ?_⟩⟩
  rw [hsigned.payload, b64Decode_b64Encode]

end Jws.Signed

/-- A signed envelope opens with the signer's document. -/
theorem round_sign (receiver : Secrets) (hlawful : prim.Lawful) {inner kid : String}
    {key : SecretKey} {jws : Jws} (h : Jws.sign prim (utf8 inner) kid key = .ok jws)
    {doc : DidDocument} (hdoc : resolver (didOf kid) = .ok doc)
    (hkey : doc.authenticationKey kid = .ok (key.publicKey prim)) {st : Peel}
    (hcurrent : st.current = jws.toJson prim) (hsigned : .signed ∉ st.layers) :
    round prim resolver receiver st = .ok (.peeled
      { current := inner
        metadata := { st.metadata with
          nonRepudiation := true, signedMessage := some st.current, signFrom := some kid }
        layers := st.layers ++ [.signed]
        recipientDids := st.recipientDids }) := by
  obtain ⟨members, hread, hciphertext, hpayload, hinput⟩ := hlawful.jws jws
  obtain ⟨header, signature, hmade⟩ := Jws.sign_eq_ok h
  have hparse : Jws.parse prim (jws.toJson prim) = .ok jws :=
    bind_eq_ok.mpr ⟨_, ofJson_eq_ok.mpr hinput, rfl⟩
  obtain ⟨hheader, htyp⟩ := hmade.protectedHeader hlawful
  -- the header names the signer, whose key is the one that signed
  have hopen : openJws prim resolver st = .ok
      { current := inner
        metadata := { st.metadata with
          nonRepudiation := true, signedMessage := some st.current, signFrom := some kid }
        layers := st.layers ++ [.signed]
        recipientDids := st.recipientDids } := by
    rw [openJws]
    refine guard_eq_ok.mpr ⟨by simpa using hsigned, ?_⟩
    refine bind_eq_ok.mpr ⟨jws, hcurrent ▸ hparse, bind_eq_ok.mpr ⟨header, hheader, ?_⟩⟩
    refine bind_eq_ok.mpr ⟨(), htyp, bind_eq_ok.mpr ⟨kid, hmade.signerKid hlawful, ?_⟩⟩
    refine bind_eq_ok.mpr ⟨doc, hdoc, bind_eq_ok.mpr ⟨_, hkey, ?_⟩⟩
    refine bind_eq_ok.mpr ⟨_, hmade.verify hlawful, bind_eq_ok.mpr ⟨inner, ?_, rfl⟩⟩
    rw [payloadText, fromUtf8_utf8, okOr]
  have hread' : prim.value.fromStr st.current = .ok (.object members) := by
    rw [hcurrent]
    exact hread
  rw [round]
  refine bind_eq_ok.mpr ⟨_, ofJson_eq_ok.mpr hread', bind_eq_ok.mpr ⟨members, rfl, ?_⟩⟩
  rw [if_neg (by simp [hciphertext]), if_pos hpayload, hopen]
  rfl

/-! ## What is encrypted -/

/-- What a signature adds to the metadata. -/
def signedMetadata (payload : String) (metadata : UnpackMetadata) : Option String → UnpackMetadata
  | some kid => { metadata with
      nonRepudiation := true, signedMessage := some payload, signFrom := some kid }
  | none => metadata

/-- What is encrypted, signed or not, is opened down to the message. -/
theorem unpackLoop_payload (receiver : Secrets) (hlawful : prim.Lawful) (hown : resolver.ListsOwn)
    (hhalves : resolver.ListsHalves prim secrets)
    (hreadBack : ({ m with typ := some plaintextTyp } : Message).ReadBack prim)
    (hvalid : m.validate = .ok ()) (hunmarked : m.Unmarked) {signBy signByKid : Option String}
    {payload : String}
    (h : m.payloadToEncrypt prim resolver secrets signBy = .ok (payload, signByKid)) {st : Peel}
    (hcurrent : st.current = payload) (hsigned : .signed ∉ st.layers) :
    (∀ kid, signByKid = some kid → m.from_ = some (didOf kid)) ∧ ∃ st',
      unpackLoop prim resolver receiver st = .ok ({ m with typ := some plaintextTyp }, st') ∧
      st'.metadata = signedMetadata payload st.metadata signByKid ∧
      st'.recipientDids = st.recipientDids := by
  -- an unsigned payload is the plaintext itself, a signed one is one round more
  cases signBy with
  | none =>
    obtain ⟨rfl, rfl⟩ := Prod.mk.inj (Except.ok.inj h)
    refine ⟨nofun, st, ?_, rfl, rfl⟩
    exact unpackLoop_plaintext (round_readBack hreadBack hvalid hunmarked hcurrent)
  | some signBy =>
    obtain ⟨-, h⟩ := guard_eq_ok.mp h
    obtain ⟨⟨text, kid⟩, hpacked, h⟩ := bind_eq_ok.mp h
    obtain ⟨rfl, rfl⟩ := Prod.mk.inj (pure_eq_ok.mp h)
    obtain ⟨-, -, hpacked⟩ := bind_eq_ok.mp hpacked
    obtain ⟨hfrom, hpacked⟩ := guard_eq_ok.mp hpacked
    obtain ⟨⟨kid', key⟩, hkey, hpacked⟩ := bind_eq_ok.mp hpacked
    obtain ⟨jws, hjws, hpacked⟩ := bind_eq_ok.mp hpacked
    obtain ⟨rfl, rfl⟩ := Prod.mk.inj (pure_eq_ok.mp hpacked)
    obtain ⟨hdid, doc, hdoc, hlisted⟩ := findSigningKey_eq_ok hown hhalves hkey
    have hpeeled := round_sign receiver hlawful hjws hdoc hlisted hcurrent hsigned
    constructor
    · intro kid hkid
      obtain rfl := Option.some.inj hkid
      rw [not_not.mp hfrom, hdid]
    · refine ⟨_, (unpackLoop_peeled hpeeled).trans (unpackLoop_plaintext ?_), ?_, rfl⟩
      · exact round_readBack hreadBack hvalid hunmarked rfl
      · rw [hcurrent]
        rfl

/-! ## Encryption -/

/-- A party that answers for key ids and holds the secret of at least one of them. -/
structure Receives (receiver : Secrets) (kids : List String) : Prop where
  held : ∃ kid ∈ kids, ∃ key, receiver kid = .ok (some key)
  answers : ∀ kid ∈ kids, ∃ held, receiver kid = .ok held

/-- Such a party unlocks what is encrypted to keys of a document. -/
theorem Receives.unlocks {recipients : List Recipient}
    (hreceives : Receives receiver (recipients.map (·.kid)))
    (hhalves : resolver.ListsHalves prim receiver) {did : String} {doc : DidDocument}
    (hdoc : resolver did = .ok doc)
    (hkeys : ∀ r ∈ recipients, doc.keyAgreementKey r.kid = .ok r.key) :
    Unlocks prim receiver recipients := by
  constructor
  · obtain ⟨kid, hkid, key, hkey⟩ := hreceives.held
    obtain ⟨r, hr, rfl⟩ := List.mem_map.mp hkid
    exact ⟨r, hr, key, hkey⟩
  · intro r hr
    obtain ⟨held, hheld⟩ := hreceives.answers r.kid (List.mem_map_of_mem hr)
    refine ⟨held, hheld, fun key hkey => ?_⟩
    have hholds := DidDocument.keyIn_eq_ok.mp (hkeys r hr)
    rw [Option.mem_def.mp hkey] at hheld
    -- the document lists the public half of the secret that is held
    have hhalf := hhalves _ _ hdoc r.kid (List.mem_append_left _ hholds.mem) key hheld
    exact (Option.some.inj (hholds.method.symm.trans hhalf)).symm

/-- The loop opens what encryption made of `payload` and has noted whom it is from and to. -/
structure Reaches (prim : Primitives) (resolver : Resolver) (receiver : Secrets)
    (message payload : String) (fromKid : Option String) (toKids : List String)
    (st : Peel) : Prop where
  opens : unpackLoop prim resolver receiver ⟨message, .default, [], []⟩ =
    unpackLoop prim resolver receiver st
  current : st.current = payload
  unsigned : .signed ∉ st.layers ∧ st.metadata.nonRepudiation = false ∧ st.metadata.signFrom = none
  encrypted : st.metadata.encrypted
  authenticated : st.metadata.authenticated = fromKid.isSome
  encryptedFromKid : st.metadata.encryptedFromKid = fromKid
  decryptedByKid : ∃ kid ∈ toKids, st.metadata.decryptedByKid = some kid
  recipientDids : ∀ did ∈ st.recipientDids, ∃ kid ∈ toKids, did = didOf kid

/-- One encryption, with or without a sender. -/
theorem reaches_encrypt (hlawful : prim.Lawful) {random : Random} {payload : String}
    {sender : Option Sender} {recipients : List Recipient} {enc : ContentEncryption} {jwe : Jwe}
    (h : Jwe.encrypt prim random (utf8 payload) sender recipients enc = .ok jwe)
    (henc : sender.isSome → enc = .a256CbcHs512)
    (hkids : ∀ r ∈ recipients, ∀ r' ∈ recipients, r.kid = r'.kid → r.key = r'.key)
    (hunlocks : Unlocks prim receiver recipients)
    (hsender : ∀ s ∈ sender, ∃ doc, resolver (didOf s.kid) = .ok doc ∧
      doc.keyAgreementKey s.kid = .ok (s.key.publicKey prim)) :
    ∃ st, Reaches prim resolver receiver (jwe.toJson prim) payload (sender.map Sender.kid)
      (recipients.map (·.kid)) st := by
  have hcarries := carries_toJson hlawful jwe
  have hallowed : (sealedLayer sender).allowedIn [] := by cases sender <;> rfl
  obtain ⟨r, hr, hopen⟩ := openJwe_encrypt resolver ⟨jwe.toJson prim, .default, [], []⟩
    hlawful h henc hkids hcarries.parsed hallowed hunlocks hsender
  have hpeeled := round_carries hcarries hopen
  have hmem : r.kid ∈ recipients.map (·.kid) := List.mem_map_of_mem hr
  refine ⟨_, unpackLoop_peeled hpeeled, rfl, ?_, rfl, ?_, ?_, ⟨r.kid, hmem, rfl⟩, ?_⟩
  -- what one envelope leaves in the metadata, with and without a sender
  · cases sender <;> exact ⟨by simp [sealedLayer], rfl, rfl⟩
  · cases sender <;> rfl
  · cases sender <;> rfl
  · intro did hdid
    obtain rfl := List.mem_singleton.mp hdid
    exact ⟨r.kid, hmem, rfl⟩

/-- An encryption that hides the encryption inside it. -/
theorem reaches_protected (hlawful : prim.Lawful) {random random' : Random} {payload : String}
    {sender : Sender} {recipients : List Recipient} {enc : ContentEncryption} {jwe outer : Jwe}
    (h : Jwe.authcrypt prim random (utf8 payload) sender recipients = .ok jwe)
    (houter : Jwe.anoncrypt prim random' (utf8 (jwe.toJson prim)) recipients enc = .ok outer)
    (hkids : ∀ r ∈ recipients, ∀ r' ∈ recipients, r.kid = r'.kid → r.key = r'.key)
    (hunlocks : Unlocks prim receiver recipients) {doc : DidDocument}
    (hdoc : resolver (didOf sender.kid) = .ok doc)
    (hkey : doc.keyAgreementKey sender.kid = .ok (sender.key.publicKey prim)) :
    ∃ st, Reaches prim resolver receiver (outer.toJson prim) payload (some sender.kid)
      (recipients.map (·.kid)) st := by
  have hcarries := carries_toJson hlawful outer
  obtain ⟨r, hr, hopen⟩ := openJwe_encrypt resolver ⟨outer.toJson prim, .default, [], []⟩
    hlawful houter nofun hkids hcarries.parsed rfl hunlocks nofun
  have hinner := carries_toJson hlawful jwe
  have hsender : ∀ s ∈ some sender, ∃ doc, resolver (didOf s.kid) = .ok doc ∧
      doc.keyAgreementKey s.kid = .ok (s.key.publicKey prim) := by
    intro s hs
    obtain rfl := Option.mem_some.mp hs
    exact ⟨doc, hdoc, hkey⟩
  -- the inner envelope may follow, as the outer one named no sender
  obtain ⟨r', hr', hopen'⟩ := openJwe_encrypt resolver
    ⟨jwe.toJson prim, _, [.anoncrypt], [didOf r.kid]⟩ hlawful h (fun _ => rfl) hkids
    hinner.parsed rfl hunlocks hsender
  have hpeeled := unpackLoop_peeled (round_carries hcarries hopen)
  have hpeeled' := unpackLoop_peeled (round_carries hinner hopen')
  have hmem : r.kid ∈ recipients.map (·.kid) := List.mem_map_of_mem hr
  have hmem' : r'.kid ∈ recipients.map (·.kid) := List.mem_map_of_mem hr'
  refine ⟨_, hpeeled.trans hpeeled', rfl, ⟨by simp [sealedLayer], rfl, rfl⟩, rfl, rfl, rfl,
    ⟨r'.kid, hmem', rfl⟩, ?_⟩
  intro did hdid
  rcases List.mem_cons.mp hdid with rfl | hdid
  · exact ⟨r.kid, hmem, rfl⟩
  · obtain rfl := List.mem_singleton.mp hdid
    exact ⟨r'.kid, hmem', rfl⟩

/-- Whatever keys and options are chosen, what is encrypted to a document's keys opens. -/
theorem reaches_encryptPayload (hlawful : prim.Lawful) (hown : resolver.ListsOwn)
    (hhalves : resolver.ListsHalves prim secrets) (hhalves' : resolver.ListsHalves prim receiver)
    {supply : Supply} {payload message did : String} {from_ fromKid : Option String}
    {recipientKeys : List Recipient} {toKids : List String} {options : PackOptions}
    {doc : DidDocument} (hdoc : resolver did = .ok doc)
    (hkeys : ∀ r ∈ recipientKeys, doc.keyAgreementKey r.kid = .ok r.key)
    (h : Message.encryptPayload prim resolver secrets supply payload from_ recipientKeys options =
      .ok (message, fromKid, toKids))
    (hreceives : Receives receiver toKids) :
    (∀ kid ∈ toKids, didOf kid = did) ∧ fromKid.map didOf = from_.map didOf ∧
      ∃ st, Reaches prim resolver receiver message payload fromKid toKids st := by
  have hkids : ∀ {recipients : List Recipient}, (∀ r ∈ recipients, r ∈ recipientKeys) →
      ∀ r ∈ recipients, ∀ r' ∈ recipients, r.kid = r'.kid → r.key = r'.key := by
    intro recipients hmem r hr r' hr' hkid
    have hkey := hkeys r (hmem r hr)
    rw [hkid, hkeys r' (hmem r' hr')] at hkey
    exact (Except.ok.inj hkey).symm
  -- a key of the document is the document's own, so its DID is the recipient's
  have hdids : ∀ {recipients : List Recipient}, (∀ r ∈ recipients, r ∈ recipientKeys) →
      ∀ kid ∈ recipients.map (·.kid), didOf kid = did := by
    intro recipients hmem kid hkid
    obtain ⟨r, hr, rfl⟩ := List.mem_map.mp hkid
    have hholds := DidDocument.keyIn_eq_ok.mp (hkeys r (hmem r hr))
    exact hown _ _ hdoc r.kid (List.mem_append_left _ hholds.mem)
  -- an anoncrypt, or an authcrypt that may stand in an anoncrypt
  cases from_ with
  | none =>
    obtain ⟨jwe, hjwe, h⟩ := bind_eq_ok.mp h
    obtain ⟨rfl, hrest⟩ := Prod.mk.inj (pure_eq_ok.mp h)
    obtain ⟨rfl, rfl⟩ := Prod.mk.inj hrest
    have hmem : ∀ r ∈ onFirstCurve recipientKeys, r ∈ recipientKeys :=
      fun r hr => List.mem_of_mem_filter hr
    have hunlocks := hreceives.unlocks hhalves' hdoc fun r hr => hkeys r (hmem r hr)
    refine ⟨hdids hmem, rfl, ?_⟩
    exact reaches_encrypt hlawful hjwe nofun (hkids hmem) hunlocks nofun
  | some from_ =>
    obtain ⟨senderDoc, hsenderDoc, h⟩ := bind_eq_ok.mp h
    obtain ⟨⟨sender, recipients⟩, hsender, h⟩ := bind_eq_ok.mp h
    obtain ⟨jwe, hjwe, h⟩ := bind_eq_ok.mp h
    -- the envelope that is sent, with the sender protected or not
    have hprotected : ∃ outer, (message, fromKid, toKids) =
          (outer, some sender.kid, recipients.map (·.kid)) ∧
        (outer = jwe.toJson prim ∨ ∃ envelope, outer = Jwe.toJson prim envelope ∧
          Jwe.anoncrypt prim (supply.draw 1) (utf8 (jwe.toJson prim))
            recipients options.anoncryptEnc = .ok envelope) := by
      dsimp only at h
      split_ifs at h with hprotect
      · obtain ⟨envelope, henvelope, h⟩ := bind_eq_ok.mp h
        exact ⟨_, (pure_eq_ok.mp h).symm, .inr ⟨envelope, rfl, henvelope⟩⟩
      · exact ⟨_, (pure_eq_ok.mp h).symm, .inl rfl⟩
    obtain ⟨outer, heq, houter⟩ := hprotected
    obtain ⟨rfl, hrest⟩ := Prod.mk.inj heq
    obtain ⟨rfl, rfl⟩ := Prod.mk.inj hrest
    obtain ⟨hdid, hkey, hmem⟩ := findAuthcryptKeys_eq_ok hown hhalves hsenderDoc hsender
    have hunlocks := hreceives.unlocks hhalves' hdoc fun r hr => hkeys r (hmem r hr)
    have hsenderDoc' : resolver (didOf sender.kid) = .ok senderDoc := hdid ▸ hsenderDoc
    refine ⟨hdids hmem, congrArg some hdid, ?_⟩
    rcases houter with rfl | ⟨envelope, rfl, henvelope⟩
    · have hsender' : ∀ s ∈ some sender, ∃ doc, resolver (didOf s.kid) = .ok doc ∧
          doc.keyAgreementKey s.kid = .ok (s.key.publicKey prim) := by
        intro s hs
        obtain rfl := Option.mem_some.mp hs
        exact ⟨senderDoc, hsenderDoc', hkey⟩
      exact reaches_encrypt hlawful hjwe (fun _ => rfl) (hkids hmem) hunlocks hsender'
    · exact reaches_protected hlawful hjwe henvelope (hkids hmem) hunlocks hsenderDoc' hkey

/-! ## Two parties -/

namespace Transparent

/-- Alice and Bob have a document. -/
def parties : Resolver := fun did =>
  if did = "did:example:alice" ∨ did = "did:example:bob" then .ok (Loopback.document [] did)
  else .error (.malformed did)

/-- Alice's secrets. -/
def alice : Secrets := fun kid =>
  if kid = "did:example:alice#k" then .ok (some Loopback.agreementSecret)
  else if kid = "did:example:alice#s" then .ok (some Loopback.signingSecret)
  else .ok none

/-- Bob's secret. -/
def bob : Secrets := fun kid =>
  if kid = "did:example:bob#k" then .ok (some Loopback.agreementSecret) else .ok none

/-- A ping from Alice to Bob. -/
def ping : Message :=
  ((Message.new "1" 0 "https://example.org/ping" (.object [])).withFrom "did:example:alice").withTo
    ["did:example:bob"]

/-- The two parties of the example have a document each, and nobody else has one. -/
theorem parties_eq_ok {did : String} {doc : DidDocument} (h : parties did = .ok doc) :
    (did = "did:example:alice" ∨ did = "did:example:bob") ∧ doc = Loopback.document [] did := by
  rw [parties] at h
  split_ifs at h with hdid
  exact ⟨hdid, (Except.ok.inj h).symm⟩

/-- The documents of the two parties list keys of their own. -/
theorem listsOwn_parties : parties.ListsOwn := by
  intro did doc hdoc
  obtain ⟨rfl | rfl, rfl⟩ := parties_eq_ok hdoc <;> decide

/-- Secrets of the right curves are halves of the keys listed. -/
theorem listsHalves_parties {secrets : Secrets}
    (hagreement : ∀ did key, (did = "did:example:alice" ∨ did = "did:example:bob") →
      secrets (Loopback.kid did) = .ok (some key) → key = Loopback.agreementSecret)
    (hsigning : ∀ did key, (did = "did:example:alice" ∨ did = "did:example:bob") →
      secrets (Loopback.signingKid did) = .ok (some key) → key = Loopback.signingSecret) :
    parties.ListsHalves packages secrets := by
  intro did doc hdoc kid hkid key hkey
  obtain ⟨hdid, rfl⟩ := parties_eq_ok hdoc
  rcases List.mem_cons.mp hkid with rfl | hkid
  · obtain rfl := hagreement did key hdid hkey
    rcases hdid with rfl | rfl <;> rfl
  · obtain rfl := List.mem_singleton.mp hkid
    obtain rfl := hsigning did key hdid hkey
    rcases hdid with rfl | rfl <;> rfl

/-- The document of alice lists the public halves of her secrets. -/
theorem listsHalves_alice : parties.ListsHalves packages alice := by
  apply listsHalves_parties
  · rintro did key (rfl | rfl) hkey <;> simp [alice, Loopback.kid] at hkey
    exact hkey.symm
  · rintro did key (rfl | rfl) hkey <;> simp [alice, Loopback.signingKid] at hkey
    exact hkey.symm

/-- The document of bob lists the public halves of his secrets. -/
theorem listsHalves_bob : parties.ListsHalves packages bob := by
  apply listsHalves_parties
  · rintro did key (rfl | rfl) hkey <;> simp [bob, Loopback.kid] at hkey
    exact hkey.symm
  · rintro did key (rfl | rfl) hkey <;> simp [bob, Loopback.signingKid] at hkey

/-- With the transparent packages authcrypt between the parties of the example always succeeds. -/
theorem authcrypt_isOk (i : ℕ) (plaintext : Bytes) (kid skid : String) :
    ∃ jwe, Jwe.authcrypt packages (Loopback.supply.draw i) plaintext
      ⟨skid, Loopback.agreementSecret⟩ [⟨kid, Loopback.agreementKey⟩] = .ok jwe := by
  have hlengths : ContentEncryption.checkLengths .a256CbcHs512
      (List.replicate 64 0) (List.replicate 16 0) = .ok () := by decide
  refine exists_bind_eq_ok rfl (exists_bind_eq_ok rfl ?_)
  refine exists_bind_eq_ok (bind_eq_ok.mpr ⟨(), hlengths, rfl⟩) ?_
  refine exists_bind_eq_ok (b64Decode_b64Encode _) ?_
  exact exists_bind_eq_ok (b64Decode_b64Encode _) (exists_bind_eq_ok rfl ⟨_, rfl⟩)

/-- Alice signs the ping and encrypts it to Bob, and hides who it is from. -/
theorem packEncrypted_ping : ∃ p, ping.packEncrypted packages parties alice Loopback.supply
    "did:example:bob" (some "did:example:alice")
    (some "did:example:alice#s") ⟨true, .xc20p, false⟩ = .ok p ∧
      p.toKids = ["did:example:bob#k"] := by
  obtain ⟨jws, hjws⟩ : ∃ jws, Jws.sign packages (utf8 (ping.toPlaintextJson packages))
      "did:example:alice#s" Loopback.signingSecret = .ok jws := ⟨_, rfl⟩
  have hsigned : ping.packSigned packages parties alice "did:example:alice#s" =
      .ok (jws.toJson packages, "did:example:alice#s") := by
    refine bind_eq_ok.mpr ⟨(), rfl, guard_eq_ok.mpr ⟨by decide, ?_⟩⟩
    exact bind_eq_ok.mpr ⟨_, rfl, bind_eq_ok.mpr ⟨jws, hjws, rfl⟩⟩
  -- signed, authcrypted, and the sender protected
  obtain ⟨jwe, hjwe⟩ := authcrypt_isOk 0 (utf8 (jws.toJson packages)) "did:example:bob#k"
    "did:example:alice#k"
  obtain ⟨outer, houter⟩ := anoncrypt_isOk 1 (utf8 (jwe.toJson packages)) "did:example:bob#k" .xc20p
  have hencrypted : Message.encryptPayload packages parties alice Loopback.supply
      (jws.toJson packages) (some "did:example:alice")
      [⟨"did:example:bob#k", Loopback.agreementKey⟩] ⟨true, .xc20p, false⟩ =
      .ok (outer.toJson packages, some "did:example:alice#k", ["did:example:bob#k"]) := by
    refine bind_eq_ok.mpr ⟨_, rfl, bind_eq_ok.mpr ⟨_, rfl, bind_eq_ok.mpr ⟨jwe, hjwe, ?_⟩⟩⟩
    exact bind_eq_ok.mpr ⟨outer, houter, rfl⟩
  refine ⟨⟨outer.toJson packages, some "did:example:alice#k", some "did:example:alice#s",
    ["did:example:bob#k"], none, false⟩, ?_, rfl⟩
  have hpayload : ping.payloadToEncrypt packages parties alice (some "did:example:alice#s") =
      .ok (jws.toJson packages, some "did:example:alice#s") := by
    rw [Message.payloadToEncrypt]
    exact guard_eq_ok.mpr ⟨by decide, bind_eq_ok.mpr ⟨_, hsigned, rfl⟩⟩
  refine bind_eq_ok.mpr ⟨(), rfl, ?_⟩
  refine guard_eq_ok.mpr ⟨?_, guard_eq_ok.mpr ⟨?_, bind_eq_ok.mpr ⟨_, hpayload, ?_⟩⟩⟩
  · decide
  · decide
  · exact bind_eq_ok.mpr ⟨_, rfl, bind_eq_ok.mpr ⟨_, rfl, bind_eq_ok.mpr ⟨_, hencrypted, rfl⟩⟩⟩

/-- The ping of the example can be written. -/
theorem writable_ping : ping.Writable packages where
  body := keeps _
  attachments := fun _ ha => (List.not_mem_nil ha).elim
  createdTime := by
    intro t ht
    obtain rfl := Option.some.inj ht
    decide
  expiresTime := nofun
  nodup := List.nodup_nil
  extraHeaders := nofun

end Transparent

/-! ## The round trip -/

/-- What is packed for keys of a recipient is unpacked by whoever holds the secret of one of
them. -/
theorem unpack_packEncrypted (hlawful : prim.Lawful)
    (hreadBack : ({ m with typ := some plaintextTyp } : Message).ReadBack prim)
    (hunmarked : m.Unmarked) (hprior : m.fromPrior = none) (hown : resolver.ListsOwn)
    (hhalves : resolver.ListsHalves prim secrets) (hhalves' : resolver.ListsHalves prim receiver)
    {supply : Supply} {to_ : String} {from_ signBy : Option String} {options : PackOptions}
    (hforward : options.forward = false) {p : PackedMessage}
    (h : m.packEncrypted prim resolver secrets supply to_ from_ signBy options = .ok p)
    (hreceives : Receives receiver p.toKids) :
    ∃ metadata, unpack prim resolver receiver p.message =
        .ok ({ m with typ := some plaintextTyp }, metadata) ∧
      metadata.encrypted ∧
      metadata.authenticated = p.fromKid.isSome ∧ metadata.encryptedFromKid = p.fromKid ∧
      metadata.nonRepudiation = p.signByKid.isSome ∧ metadata.signFrom = p.signByKid ∧
      ∃ kid ∈ p.toKids, metadata.decryptedByKid = some kid := by
  obtain ⟨⟨⟩, hvalid, h⟩ := bind_eq_ok.mp h
  obtain ⟨hfrom, h⟩ := guard_eq_ok.mp h
  obtain ⟨hto, h⟩ := guard_eq_ok.mp h
  obtain ⟨⟨payload, signByKid⟩, hpayload, h⟩ := bind_eq_ok.mp h
  obtain ⟨doc, hdoc, h⟩ := bind_eq_ok.mp h
  obtain ⟨recipientKeys, hrecipientKeys, h⟩ := bind_eq_ok.mp h
  obtain ⟨⟨message, fromKid, toKids⟩, hencrypted, h⟩ := bind_eq_ok.mp h
  simp only [hforward, Bool.false_eq_true, ↓reduceIte] at h
  obtain rfl := pure_eq_ok.mp h
  -- the envelopes open down to the payload, and the payload to the message
  have hkeys := (keyAgreementKeys_eq_ok hrecipientKeys).2
  obtain ⟨hdids, hsender, st, hst⟩ :=
    reaches_encryptPayload hlawful hown hhalves hhalves' hdoc hkeys hencrypted hreceives
  obtain ⟨hsigner, st', hloop, hmetadata, hrecipientDids⟩ := unpackLoop_payload receiver
    hlawful hown hhalves hreadBack hvalid hunmarked hpayload hst.current hst.unsigned.1
  obtain ⟨-, hunsigned, hunsignedFrom⟩ := hst.unsigned
  have hconsistent : checkConsistency { m with typ := some plaintextTyp }
      { st'.metadata with
        anonymousSender := st'.metadata.encrypted && !st'.metadata.authenticated }
      st'.recipientDids = .ok () := by
    rw [checkConsistency_eq_ok]
    -- the message's `from` and `to` are the ones `packEncrypted` had checked
    refine ⟨fun skid hskid => ?_, fun signer hsigned => ?_, fun dids hdids' did hdid => ?_⟩
    · have hkid : fromKid = some skid := by
        rw [← hst.encryptedFromKid, ← hskid, hmetadata]
        cases signByKid <;> rfl
      rw [hkid] at hsender
      obtain ⟨f, rfl, hf⟩ := Option.map_eq_some_iff.mp hsender.symm
      simpa [hf] using hfrom
    · apply hsigner
      rw [← hsigned, hmetadata]
      cases signByKid with
      | none => exact hunsignedFrom.symm
      | some kid => rfl
    · rw [hrecipientDids] at hdid
      obtain ⟨kid, hkid, rfl⟩ := hst.recipientDids did hdid
      rw [hdids kid hkid]
      have hto' := hto
      rw [hdids'] at hto'
      simpa using hto'
  -- no `from_prior` was written, so none is checked
  have hunpack : unpack prim resolver receiver message = .ok ({ m with typ := some plaintextTyp },
      { st'.metadata with
        anonymousSender := st'.metadata.encrypted && !st'.metadata.authenticated }) := by
    refine bind_eq_ok.mpr ⟨_, hst.opens.trans hloop, bind_eq_ok.mpr ⟨(), hconsistent, ?_⟩⟩
    simp only [checkFromPrior, hprior]
    rfl
  refine ⟨_, hunpack, ?_⟩
  obtain ⟨kid, hkid, hdecrypted⟩ := hst.decryptedByKid
  rw [hmetadata]
  cases signByKid with
  | none =>
    exact ⟨hst.encrypted, hst.authenticated, hst.encryptedFromKid, hunsigned,
      hunsignedFrom, kid, hkid, hdecrypted⟩
  | some signer =>
    exact ⟨hst.encrypted, hst.authenticated, hst.encryptedFromKid, rfl, rfl, kid, hkid, hdecrypted⟩

/-- Bob unpacks the ping, signed and from Alice. -/
theorem unpack_packEncrypted_ping : ∃ p metadata,
    Transparent.ping.packEncrypted Transparent.packages Transparent.parties Transparent.alice
      Loopback.supply "did:example:bob" (some "did:example:alice") (some "did:example:alice#s")
      ⟨true, .xc20p, false⟩ = .ok p ∧
    unpack Transparent.packages Transparent.parties Transparent.bob p.message =
      .ok ({ Transparent.ping with typ := some plaintextTyp }, metadata) ∧
    metadata.encryptedFromKid = p.fromKid ∧ metadata.signFrom = p.signByKid := by
  obtain ⟨p, hpacked, hkids⟩ := Transparent.packEncrypted_ping
  have hreadBack := Transparent.lawful.message
    _ (Transparent.writable_ping.withTyp (some plaintextTyp))
  have hreceives : Receives Transparent.bob p.toKids := by
    rw [hkids]
    constructor
    · exact ⟨_, List.mem_singleton_self _, _, rfl⟩
    · intro kid hkid
      obtain rfl := List.mem_singleton.mp hkid
      exact ⟨_, rfl⟩
  obtain ⟨metadata, hunpack, -, -, hfrom, -, hsign, -⟩ := unpack_packEncrypted Transparent.lawful
    hreadBack nofun rfl Transparent.listsOwn_parties Transparent.listsHalves_alice
    Transparent.listsHalves_bob rfl hpacked hreceives
  exact ⟨p, metadata, hpacked, hunpack, hfrom, hsign⟩

end Didcomm
