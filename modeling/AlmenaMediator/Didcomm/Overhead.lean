import AlmenaMediator.Didcomm.Amplification

/-!
# A bound on routed messages

What one hop makes of a message is linear in the message, the hop's document and the names in it. A
message with `n` hops is therefore at most `K ^ n` times as long as what routing is given, and for
each number of hops a constant is enough.

## Main results

* `wrapForHop_length_le`: what one hop makes of a message;
* `Transparent.sized`: what packages write can be bounded so;
* `length_route_le`: what routing makes of a message.
-/

namespace Didcomm

variable {prim : Primitives} {resolver : Resolver} {supply : Supply} {enc : ContentEncryption}
    {c : ℕ}

/-! ## Sizes of what is written -/

/-- The length of a text that may be absent. -/
def optionLength (text : Option String) : ℕ := (text.map String.utf8ByteSize).getD 0

/-- The recipients of an envelope: their key ids and wrapped keys. -/
def recipientsSize (recipients : List JweRecipient) : ℕ :=
  (recipients.map fun r => 1 + r.kid.utf8ByteSize + r.encryptedKey.utf8ByteSize).sum

/-- The texts of an envelope. -/
def Jwe.size (jwe : Jwe) : ℕ :=
  1 + jwe.protected.utf8ByteSize + recipientsSize jwe.recipients + jwe.iv.utf8ByteSize +
    jwe.ciphertext.utf8ByteSize + jwe.tag.utf8ByteSize

/-- The texts of a key. -/
def Jwk.size (jwk : Jwk) : ℕ :=
  jwk.kty.utf8ByteSize + jwk.crv.utf8ByteSize + jwk.x.utf8ByteSize + optionLength jwk.y +
    optionLength jwk.d + optionLength jwk.kid

/-- The texts of a protected header. -/
def JweProtectedHeader.size (header : JweProtectedHeader) : ℕ :=
  1 + optionLength header.typ + header.epk.size + optionLength header.skid +
    optionLength header.apu + header.apv.utf8ByteSize

/-- The packages write at most `c` bytes for each byte they are given: serde_json repeats the names
of the fields and escapes texts, a ciphertext is padded, and hashes, public keys, wrapped keys and
tags have lengths of their own. -/
structure Primitives.Sized (prim : Primitives) (c : ℕ) : Prop where
  forward : ∀ {supply : Supply} {i : ℕ} {hop next inner : String} {v : Value},
    prim.value.fromStr inner = .ok v → supply.now i < 2 ^ 64 →
    ((forwardMessage supply i hop next v).toPlaintextJson prim).utf8ByteSize ≤
      c * (1 + (supply.uuid i).utf8ByteSize + hop.utf8ByteSize +
        next.utf8ByteSize + inner.utf8ByteSize)
  jwe : ∀ jwe : Jwe, (jwe.toJson prim).utf8ByteSize ≤ c * jwe.size
  jweHeader : ∀ header, (prim.jweHeader.toText header).utf8ByteSize ≤ c * header.size
  sha256 : ∀ bytes, (prim.sha256 bytes).length ≤ c
  publicBytes : ∀ key, (prim.publicBytes key).length ≤ c
  uncompress : ∀ key : SecretKey, (prim.uncompress key.curve (prim.publicBytes key)).length ≤ c
  wrapKey : ∀ {kek cek wrapped}, prim.wrapKey kek cek = some wrapped →
    wrapped.length ≤ cek.length + c
  cipher : ∀ {enc key iv aad plaintext ciphertext tag},
    prim.cipherEncrypt enc key iv aad plaintext = .ok (ciphertext, tag) →
    ciphertext.length ≤ plaintext.length + c ∧ tag.length ≤ c

/-! ## Envelopes -/

/-- The names of a curve in a JWK have twelve bytes at most. -/
theorem utf8ByteSize_jwk_names (curve : Curve) :
    curve.jwkKty.utf8ByteSize + curve.jwkCrv.utf8ByteSize ≤ 12 := by
  cases curve <;> decide

/-- The JWK of a public key. -/
theorem size_toJwk_le (hsized : prim.Sized c) (key : SecretKey) :
    ((key.publicKey prim).toJwk prim).size ≤ 12 + 4 * c := by
  have hencoded : ∀ bytes : Bytes, bytes.length ≤ c → (b64Encode bytes).utf8ByteSize ≤ 2 * c :=
    fun bytes hle => (utf8ByteSize_b64Encode_le bytes).trans (Nat.mul_le_mul_left 2 hle)
  have hpoint := hsized.uncompress key
  have hkey := hencoded _ (hsized.publicBytes key)
  -- the coordinates are halves of the point, in base64
  have hx := hencoded
    (((prim.uncompress key.curve (prim.publicBytes key)).drop 1).take key.curve.fieldLen)
    (by simp only [List.length_take, List.length_drop]; omega)
  have hy := hencoded
    (((prim.uncompress key.curve (prim.publicBytes key)).drop 1).drop key.curve.fieldLen)
    (by simp only [List.length_drop]; omega)
  have hnames := utf8ByteSize_jwk_names key.curve
  obtain ⟨curve, bytes⟩ := key
  cases curve <;>
    simp only [SecretKey.publicKey, PublicKey.toJwk, Jwk.size, optionLength, Option.map_some,
      Option.map_none, Option.getD_some, Option.getD_none] at hkey hx hy hnames ⊢ <;>
    omega

/-- The protected header of an anonymous envelope. -/
theorem size_headerOf_le (hsized : prim.Sized c) (ephemeral : SecretKey)
    (recipients : List Recipient) :
    (Jwe.headerOf prim ephemeral none recipients enc).size ≤ 50 + 6 * c := by
  have hepk := size_toJwk_le hsized ephemeral
  have hapv : (apv prim (recipients.map (·.kid))).utf8ByteSize ≤ 2 * c :=
    (utf8ByteSize_b64Encode_le _).trans (Nat.mul_le_mul_left 2 (hsized.sha256 _))
  have htyp : encryptedTyp.utf8ByteSize = 34 := by decide
  simp only [Jwe.headerOf, JweProtectedHeader.size, optionLength, Option.map_some, Option.map_none,
    Option.getD_some, Option.getD_none, htyp]
  omega

/-- The recipients that a content key is wrapped for. -/
def kidsSize (recipients : List Recipient) : ℕ :=
  (recipients.map fun r => 1 + r.kid.utf8ByteSize).sum

/-- The wrapped keys. -/
theorem recipientsSize_le (hsized : prim.Sized c) {ephemeral : SecretKey} {sender : Option Sender}
    {alg : KeyWrap} {apu apv cek tag : Bytes} {recipients : List Recipient}
    {wrapped : List JweRecipient}
    (h : List.Forall₂ (fun r w => Jwe.wrapFor prim ephemeral sender alg apu apv cek tag r = .ok w)
      recipients wrapped) :
    recipientsSize wrapped ≤ (1 + 2 * (cek.length + c)) * kidsSize recipients := by
  induction h with
  | nil => exact Nat.zero_le _
  | @cons r w recipients wrapped hwrap _ ih =>
    obtain ⟨_, _, key, -, -, hkey, rfl⟩ := Jwe.wrapFor_eq_ok hwrap
    have hlength := hsized.wrapKey (okOr_eq_ok.mp hkey)
    have hencoded := utf8ByteSize_b64Encode_le key
    have hfirst : 1 + r.kid.utf8ByteSize + (b64Encode key).utf8ByteSize ≤
        (1 + 2 * (cek.length + c)) * (1 + r.kid.utf8ByteSize) := by
      -- one entry: its kid, and the wrapped key in base64
      calc 1 + r.kid.utf8ByteSize + (b64Encode key).utf8ByteSize
          ≤ 1 * (1 + r.kid.utf8ByteSize) + 2 * (cek.length + c) * 1 := by omega
        _ ≤ 1 * (1 + r.kid.utf8ByteSize) + 2 * (cek.length + c) * (1 + r.kid.utf8ByteSize) := by
          gcongr
          omega
        _ = (1 + 2 * (cek.length + c)) * (1 + r.kid.utf8ByteSize) := by ring
    simp only [recipientsSize, kidsSize, List.map_cons, List.sum_cons, Nat.mul_add] at ih hfirst ⊢
    omega

/-- What a content cipher takes and returns. -/
theorem encrypt_lengths (hsized : prim.Sized c) {key iv aad plaintext ciphertext tag : Bytes}
    (h : enc.encrypt prim key iv aad plaintext = .ok (ciphertext, tag)) :
    key.length ≤ 64 ∧ iv.length ≤ 24 ∧ ciphertext.length ≤ plaintext.length + c ∧
      tag.length ≤ c := by
  obtain ⟨⟨⟩, hlengths, hcipher⟩ := bind_eq_ok.mp h
  obtain ⟨hciphertext, htag⟩ := hsized.cipher hcipher
  rw [ContentEncryption.checkLengths] at hlengths
  split_ifs at hlengths with hbad
  have hkeyLen : enc.keyLen ≤ 64 := by cases enc <;> decide
  have hivLen : enc.ivLen ≤ 24 := by cases enc <;> decide
  omega

/-- What an anonymous envelope costs for each byte it encrypts and each key id it names. -/
def envelopeFactor (c : ℕ) : ℕ := c * (300 + 110 * c + 12 * (c * c))

/-- An anonymous envelope is linear in what is encrypted and in whom it is encrypted to. -/
theorem anoncrypt_length_le (hsized : prim.Sized c) {random : Random} {plaintext : Bytes}
    {recipients : List Recipient} {jwe : Jwe}
    (h : Jwe.anoncrypt prim random plaintext recipients enc = .ok jwe) :
    (jwe.toJson prim).utf8ByteSize ≤ envelopeFactor c *
      (1 + plaintext.length + kidsSize recipients) := by
  obtain ⟨draw, ephemeral, ciphertext, tag, hsealed⟩ := Jwe.encrypt_eq_ok h
  obtain ⟨hcek, hiv, hciphertext, htag⟩ := encrypt_lengths hsized hsealed.encrypted
  -- each member of the envelope, with what base64 adds to it
  have hheader : jwe.protected.utf8ByteSize ≤ 2 * (c * (50 + 6 * c)) := by
    rw [hsealed.header]
    apply (utf8ByteSize_b64Encode_le _).trans
    rw [Serde.toVec, length_utf8]
    have hwritten := hsized.jweHeader (Jwe.headerOf prim ephemeral none recipients enc)
    have hfields := Nat.mul_le_mul_left c (@size_headerOf_le prim enc c hsized ephemeral recipients)
    omega
  have hrecipients : recipientsSize jwe.recipients ≤ (129 + 2 * c) * kidsSize recipients := by
    exact (recipientsSize_le hsized hsealed.wrapped).trans (Nat.mul_le_mul_right _ (by omega))
  have hivText : jwe.iv.utf8ByteSize ≤ 48 := by
    rw [hsealed.iv]
    exact (utf8ByteSize_b64Encode_le _).trans (by omega)
  have hciphertextText : jwe.ciphertext.utf8ByteSize ≤ 2 * (plaintext.length + c) := by
    rw [hsealed.ciphertext]
    exact (utf8ByteSize_b64Encode_le _).trans (by omega)
  have htagText : jwe.tag.utf8ByteSize ≤ 2 * c := by
    rw [hsealed.tag]
    exact (utf8ByteSize_b64Encode_le _).trans (by omega)
  -- one bound for all of them, linear in the plaintext and the kids
  have hsize : jwe.size ≤ (300 + 110 * c + 12 * (c * c)) *
    (1 + plaintext.length + kidsSize recipients) := by
    calc jwe.size
        ≤ (49 + 104 * c + 12 * (c * c)) * 1 + 2 * plaintext.length + (129 + 2 * c) *
          kidsSize recipients := by
          have hsquare : c * (50 + 6 * c) = 50 * c + 6 * (c * c) := by ring
          rw [hsquare] at hheader
          rw [Jwe.size]
          omega
      _ ≤ (300 + 110 * c + 12 * (c * c)) * 1 + (300 + 110 * c + 12 * (c * c)) * plaintext.length +
          (300 + 110 * c + 12 * (c * c)) * kidsSize recipients := by
          refine Nat.add_le_add (Nat.add_le_add ?_ ?_) ?_ <;>
            exact Nat.mul_le_mul_right _ (by omega)
      _ = (300 + 110 * c + 12 * (c * c)) * (1 + plaintext.length + kidsSize recipients) := by ring
  calc (jwe.toJson prim).utf8ByteSize ≤ c * jwe.size := hsized.jwe jwe
    _ ≤ c * ((300 + 110 * c + 12 * (c * c)) * (1 + plaintext.length + kidsSize recipients)) := by
      gcongr
    _ = envelopeFactor c * (1 + plaintext.length + kidsSize recipients) := by
      rw [envelopeFactor, Nat.mul_assoc]

/-! ## One hop -/

/-- The key agreement methods of a document are named in it, in this order. -/
theorem sublist_methods (doc : DidDocument) (ids : List String) :
    ((ids.filterMap doc.method).map VerificationMethod.id).Sublist ids := by
  induction ids with
  | nil => exact List.Sublist.refl _
  | cons id ids ih =>
    rcases hmethod : doc.method id with _ | m
    · rw [List.filterMap_cons_none hmethod]
      exact ih.cons id
    · obtain rfl : m.id = id := by simpa using List.find?_some hmethod
      rw [List.filterMap_cons_some hmethod, List.map_cons]
      exact ih.cons_cons m.id

/-- The keys a hop is encrypted to are named in its document, or the hop is one of them. -/
theorem kidsSize_onFirstCurve_le {doc : DidDocument} {hop : String} {keys : List Recipient}
    (h : keyAgreementKeys doc hop = .ok keys) :
    kidsSize (onFirstCurve keys) ≤ 1 + hop.utf8ByteSize + (doc.toJson prim).size := by
  have hsome : kidsSize (onFirstCurve keys) ≤ kidsSize keys :=
    (List.filter_sublist.map _).sum_le_sum fun _ _ => Nat.zero_le _
  apply hsome.trans
  -- the hop names one key, or all keys of the document may be used
  rcases keyAgreementKeys_cases h with ⟨-, ⟨key, -, rfl⟩ | rfl⟩
  · simp [kidsSize]
  · have hlisted := @DidDocument.keyAgreement_le prim doc
    have hmethods := ((sublist_methods doc doc.keyAgreement).map fun id =>
      1 + id.utf8ByteSize).sum_le_sum fun _ _ => Nat.zero_le _
    have hchosen := ((List.filter_sublist (p := fun m => m.key.curve.isKeyAgreement)
      (l := doc.keyAgreementMethods)).map fun m => 1 + m.id.utf8ByteSize).sum_le_sum
        fun _ _ => Nat.zero_le _
    rw [List.map_map] at hmethods
    rw [kidsSize, List.map_map]
    calc _ ≤ ((doc.keyAgreementMethods).map fun m => 1 + m.id.utf8ByteSize).sum := hchosen
      _ ≤ (doc.keyAgreement.map fun id => 1 + id.utf8ByteSize).sum := hmethods
      _ ≤ 1 + hop.utf8ByteSize + (doc.toJson prim).size := by omega

/-- What a hop costs for each byte it is given. -/
def hopFactor (c : ℕ) : ℕ := envelopeFactor c * (2 + c * (1 + c))

/-- What a hop makes of a message is linear in the message, the names in it and the hop's
document. -/
theorem wrapForHop_length_le (hsized : prim.Sized c) {i : ℕ} {hop next inner text : String}
    (hnow : supply.now i < 2 ^ 64) (huuid : (supply.uuid i).utf8ByteSize ≤ c)
    (h : wrapForHop prim resolver supply enc i hop next inner = .ok text) :
    text.utf8ByteSize ≤ hopFactor c * (1 + hop.utf8ByteSize +
      next.utf8ByteSize + inner.utf8ByteSize + documentLength prim resolver (didOf hop)) := by
  obtain ⟨v, doc, keys, jwe, hread, hdoc, hkeys, hjwe, rfl⟩ := wrapForHop_eq_ok h
  have henvelope := anoncrypt_length_le hsized hjwe
  have hkids := @kidsSize_onFirstCurve_le prim doc hop keys hkeys
  have hforward := @Primitives.Sized.forward _ _ hsized supply i hop next inner v hread hnow
  have hlength : documentLength prim resolver (didOf hop) = (doc.toJson prim).size := by
    rw [documentLength, hdoc]
  rw [length_utf8] at henvelope
  rw [hlength]
  -- all that the layer is made from
  set given := 1 + hop.utf8ByteSize + next.utf8ByteSize +
    inner.utf8ByteSize + (doc.toJson prim).size
    with hgiven
  -- the fields of the forward message, the fresh id among them
  have hfields : 1 + (supply.uuid i).utf8ByteSize + hop.utf8ByteSize + next.utf8ByteSize +
      inner.utf8ByteSize ≤ (1 + c) * given := by
    calc _ ≤ 1 * given + c * 1 := by omega
      _ ≤ 1 * given + c * given := by
        gcongr
        omega
      _ = (1 + c) * given := (Nat.add_mul 1 c given).symm
  calc (jwe.toJson prim).utf8ByteSize
      ≤ envelopeFactor c * (1 + ((forwardMessage supply i hop next
        v).toPlaintextJson prim).utf8ByteSize + kidsSize (onFirstCurve keys)) := henvelope
    _ ≤ envelopeFactor c * (2 * given + c * ((1 + c) * given)) := by
      apply Nat.mul_le_mul_left
      have hplaintext := hforward.trans (Nat.mul_le_mul_left c hfields)
      omega
    _ = hopFactor c * given := by
      rw [hopFactor]
      ring

/-! ## Routes -/

/-- How many times longer each hop makes a message at most. -/
def growth (c : ℕ) : ℕ := 5 * hopFactor c + 1

/-- The hops of a route make a message at most `growth c` times longer each, where all that they are
given is no longer than `given`. -/
theorem wrapForHops_length_le (hsized : prim.Sized c)
    (hnow : ∀ i, supply.now i < 2 ^ 64) (huuid : ∀ i, (supply.uuid i).utf8ByteSize ≤ c)
    {recipient packed text : String} {hops : List String} {given : ℕ} (hgiven : 1 ≤ given)
    (hrecipient : recipient.utf8ByteSize ≤ given) (hpacked : packed.utf8ByteSize ≤ given)
    (hhops : ∀ hop ∈ hops, hop.utf8ByteSize ≤ given ∧
      documentLength prim resolver (didOf hop) ≤ given)
      (h : wrapForHops prim resolver supply enc recipient hops packed = .ok text) :
    text.utf8ByteSize ≤ growth c ^ hops.length * given := by
  -- each layer multiplies by `growth c` at most
  induction hops generalizing text with
  | nil =>
    obtain rfl := Except.ok.inj h
    simpa using hpacked
  | cons hop hops ih =>
    obtain ⟨inner, hinner, hwrap⟩ := bind_eq_ok.mp h
    obtain ⟨⟨hhop, hdoc⟩, hrest⟩ := List.forall_mem_cons.mp hhops
    have hlength := ih hrest hinner
    have hnext : (hops.head?.getD recipient).utf8ByteSize ≤ given := by
      rcases hops with _ | ⟨next, hops⟩
      · exact hrecipient
      · exact (hrest next List.mem_cons_self).1
    have hpow : given ≤ growth c ^ hops.length * given :=
      Nat.le_mul_of_pos_left _ (Nat.pow_pos (Nat.succ_pos _))
    set grown := growth c ^ hops.length * given
    have hwrapped := wrapForHop_length_le hsized (hnow hops.length) (huuid hops.length) hwrap
    calc text.utf8ByteSize ≤ hopFactor c * (5 * grown) :=
          hwrapped.trans (Nat.mul_le_mul_left _ (by omega))
      _ = 5 * hopFactor c * grown := by ring
      _ ≤ growth c * grown := Nat.mul_le_mul_right _ (Nat.le_succ _)
      _ = growth c ^ (hop :: hops).length * given := by
        rw [List.length_cons, pow_succ', Nat.mul_assoc]

/-- The number of times `route` wraps a message for a recipient. -/
def hopCount (resolver : Resolver) (to_ : String) : ℕ :=
  match routePlan resolver to_ with
  | .ok (some plan) => plan.routingKeys.length
  | _ => 0

/-- A document that is resolved is part of what routing is given. -/
theorem documentLength_le {to_ payload did : String} (hdid : did ∈ resolvedDids resolver to_) :
    documentLength prim resolver did ≤ givenLength prim resolver payload to_ := by
  have hmem := List.mem_map_of_mem (f := documentLength prim resolver) hdid
  have hsum := List.single_le_sum (fun _ _ => Nat.zero_le _) _ hmem
  rw [givenLength]
  omega

/-- The recipient of a route is among the DIDs resolved for it. -/
theorem recipient_mem_resolvedDids (to_ : String) : didOf to_ ∈ resolvedDids resolver to_ :=
  List.mem_append_left _ List.mem_cons_self

/-- A mediator that the recipient's endpoint names is among the DIDs resolved for the route. -/
theorem mediator_mem_resolvedDids {to_ : String} {doc : DidDocument} {endpoint : DidCommEndpoint}
    (hdoc : resolver (didOf to_) = .ok doc)
    (hfirst : firstDidcommEndpoint doc = .ok (some endpoint))
    (huri : startsWith endpoint.uri "did:") : endpoint.uri ∈ resolvedDids resolver to_ := by
  have hbind : (resolver (didOf to_)).bind firstDidcommEndpoint = .ok (some endpoint) := by
    rw [hdoc]
    exact hfirst
  simp [resolvedDids, hbind, huri]

/-- Every hop of a route is among the DIDs resolved for it. -/
theorem hop_mem_resolvedDids {to_ hop : String} {plan : Route}
    (hplan : routePlan resolver to_ = .ok (some plan)) (hhop : hop ∈ plan.routingKeys) :
    didOf hop ∈ resolvedDids resolver to_ := by
  rw [resolvedDids, hplan]
  exact List.mem_append_right _ (List.mem_map_of_mem hhop)

/-- The hops of an endpoint are named in its document. -/
theorem length_routingKey_le {doc : DidDocument} {endpoint : DidCommEndpoint}
    (h : firstDidcommEndpoint doc = .ok (some endpoint)) :
    ∀ key ∈ endpoint.routingKeys, key.utf8ByteSize ≤ (doc.toJson prim).size := by
  intro key hkey
  obtain ⟨service, hservice, endpoints, hread, hmem⟩ := mem_of_firstEndpointOf h
  have hendpoint := length_le_of_didcommEndpoints hread endpoint hmem key hkey
  have hdoc := @DidDocument.service_le prim doc service (List.mem_filter.mp hservice).1
  omega

/-- The hops of a route are named in the documents it was found in. -/
theorem length_hop_le {to_ payload : String} {plan : Route}
    (hplan : routePlan resolver to_ = .ok (some plan)) :
    1 ≤ givenLength prim resolver payload to_ ∧ ∀ hop ∈ plan.routingKeys,
      hop.utf8ByteSize ≤ givenLength prim resolver payload to_ ∧
        documentLength prim resolver (didOf hop) ≤ givenLength prim resolver payload to_ := by
  have hhop : ∀ hop ∈ plan.routingKeys,
      documentLength prim resolver (didOf hop) ≤ givenLength prim resolver payload to_ :=
    fun hop hmem => documentLength_le (hop_mem_resolvedDids hplan hmem)
  -- a hop is written in a document that was resolved, or is the id of one
  have hresolved : ∀ {did doc}, did ∈ resolvedDids resolver to_ → resolver did = .ok doc →
      (doc.toJson prim).size ≤ givenLength prim resolver payload to_ := by
    intro did doc hmem hdoc
    have hle := @documentLength_le prim resolver to_ payload did hmem
    rwa [documentLength, hdoc] at hle
  obtain ⟨doc, hdoc, hplan⟩ := bind_eq_ok.mp hplan
  obtain ⟨first, hfirst, hplan⟩ := bind_eq_ok.mp hplan
  have hown := hresolved (recipient_mem_resolvedDids to_) hdoc
  have hpos : 2 ≤ (doc.toJson prim).size := by
    rw [DidDocument.toJson, Value.size]
    omega
  refine ⟨by omega, fun hop hmem => ⟨?_, hhop hop hmem⟩⟩
  cases first with
  | none => cases hplan
  | some endpoint =>
    have hkeys : ∀ key ∈ endpoint.routingKeys,
      key.utf8ByteSize ≤ givenLength prim resolver payload to_ :=
      fun key hkey => (length_routingKey_le hfirst key hkey).trans hown
    dsimp only at hplan
    split_ifs at hplan with huri
    · -- the mediator's own id is the first hop
      obtain ⟨mediator, hmediator, hplan⟩ := bind_eq_ok.mp hplan
      obtain ⟨_, -, hplan⟩ := bind_eq_ok.mp hplan
      obtain ⟨_, -, hplan⟩ := bind_eq_ok.mp hplan
      obtain ⟨-, hplan⟩ := guard_eq_ok.mp hplan
      obtain rfl := Option.some.inj (pure_eq_ok.mp hplan)
      rcases List.mem_cons.mp hmem with rfl | hmem
      · exact (DidDocument.id_le mediator).trans
          (hresolved (mediator_mem_resolvedDids hdoc hfirst huri) hmediator)
      · exact hkeys hop hmem
    · obtain rfl := Option.some.inj (pure_eq_ok.mp hplan)
      exact hkeys hop hmem

/-! ## What the transparent packages write -/

namespace Transparent

/-- The bytes of a text's characters. -/
def weight (cs : List Char) : ℕ := (cs.map Char.utf8Size).sum

@[simp] theorem weight_cons (c : Char)
    (cs : List Char) : weight (c :: cs) = c.utf8Size + weight cs := rfl

/-- The weights of two texts add up. -/
@[simp] theorem weight_append (cs cs' : List Char) :
    weight (cs ++ cs') = weight cs + weight cs' := by
  simp [weight]

/-- The weight of a text's characters is the size of the text. -/
theorem weight_toList (s : String) : weight s.toList = s.utf8ByteSize := by
  rw [weight, ← utf8ByteSize_ofList, String.ofList_toList]

/-- Writing a text at most doubles its weight, and ends it with one character. -/
theorem weight_writeChars_le (cs : List Char) : weight (writeChars cs) ≤ 2 * weight cs + 1 := by
  induction cs with
  | nil => exact le_rfl
  | cons c cs ih =>
    have hpos := c.utf8Size_pos
    have hone : '1'.utf8Size = 1 := by decide
    simp only [writeChars, weight_cons, hone]
    omega

/-- Writing a number takes one character more than the number says. -/
theorem weight_writeNat (n : ℕ) : weight (writeNat n) = n + 1 := by
  induction n with
  | zero => rfl
  | succ n ih =>
    have hone : '1'.utf8Size = 1 := by decide
    rw [writeNat, weight_cons, ih, hone]
    omega

/-- The weight of a written text in terms of its size. -/
theorem weight_string_le (s : String) : weight (write (.string s)) ≤ 2 + 2 * s.utf8ByteSize := by
  have hchars := weight_writeChars_le s.toList
  have hone : 's'.utf8Size = 1 := by decide
  rw [weight_toList] at hchars
  rw [write, weight_cons, hone]
  omega

/-- The weight of an optional text in terms of its length. -/
theorem weight_ofOption_le (s : Option String) :
    weight (write (.ofOption s)) ≤ 2 + 2 * optionLength s := by
  cases s with
  | none => decide
  | some s => exact weight_string_le s

/-- A written key wrap takes one character. -/
theorem weight_ofKeyWrap (alg : KeyWrap) : weight (write (ofKeyWrap alg)) = 1 := by
  cases alg <;> decide

/-- A written content encryption takes four characters at most. -/
theorem weight_ofContentEncryption_le (enc : ContentEncryption) :
    weight (write (ofContentEncryption enc)) ≤ 4 := by
  cases enc <;> decide

/-- The texts of items. -/
theorem weight_array (items : List Value) :
    weight (write (.array items)) = 2 + (items.map fun v => 1 + weight (write v)).sum := by
  have hitems : weight (writeItems items) = 1 + (items.map fun v => 1 + weight (write v)).sum := by
    induction items with
    | nil => rfl
    | cons v vs ih =>
      have hone : '1'.utf8Size = 1 := by decide
      rw [writeItems, weight_cons, weight_append, ih, List.map_cons, List.sum_cons, hone]
      omega
  have hone : 'a'.utf8Size = 1 := by decide
  rw [write, weight_cons, hitems, hone]
  omega

/-- The weight of a written object is that of its names and values with two characters around them.
-/
theorem weight_object_le (members : List (String × Value)) :
    weight (write (.object members)) ≤
      2 + ((members.map Prod.fst).map fun s => 2 + 2 * s.utf8ByteSize).sum +
        ((members.map Prod.snd).map fun v => weight (write v)).sum := by
  have hmembers : weight (writeMembers members) ≤
      1 + ((members.map Prod.fst).map fun s => 2 + 2 * s.utf8ByteSize).sum +
        ((members.map Prod.snd).map fun v => weight (write v)).sum := by
    induction members with
    | nil => exact le_rfl
    | cons m members ih =>
      have hone : '1'.utf8Size = 1 := by decide
      have hname := weight_writeChars_le m.1.toList
      rw [weight_toList] at hname
      simp only [writeMembers, weight_cons, weight_append, List.map_cons, List.sum_cons, hone]
      omega
  have hone : 'o'.utf8Size = 1 := by decide
  rw [write, weight_cons, hone]
  omega

/-- The weight of a written JWK in terms of its size. -/
theorem weight_ofJwk_le (jwk : Jwk) : weight (write (ofJwk jwk)) ≤ 20 + 2 * jwk.size := by
  have hkty := weight_string_le jwk.kty
  have hcrv := weight_string_le jwk.crv
  have hx := weight_string_le jwk.x
  have hy := weight_ofOption_le jwk.y
  have hd := weight_ofOption_le jwk.d
  have hkid := weight_ofOption_le jwk.kid
  rw [ofJwk, weight_array, Jwk.size]
  simp only [List.map_cons, List.map_nil, List.sum_cons, List.sum_nil]
  omega

/-- The weight of a written JWE header in terms of its size. -/
theorem weight_ofJweHeader_le (header : JweProtectedHeader) :
    weight (write (ofJweHeader header)) ≤ 50 * header.size := by
  have htyp := weight_ofOption_le header.typ
  have halg := weight_ofKeyWrap header.alg
  have henc := weight_ofContentEncryption_le header.enc
  have hepk := weight_ofJwk_le header.epk
  have hskid := weight_ofOption_le header.skid
  have hapu := weight_ofOption_le header.apu
  have hapv := weight_string_le header.apv
  rw [ofJweHeader, weight_array, JweProtectedHeader.size]
  simp only [List.map_cons, List.map_nil, List.sum_cons, List.sum_nil]
  omega

/-- The weight of the written recipients in terms of their size. -/
theorem weight_recipients_le (recipients : List JweRecipient) :
    weight (write (.array
        (recipients.map fun r => .array [.string r.kid, .string r.encryptedKey]))) ≤
      2 + 10 * recipientsSize recipients := by
  rw [weight_array, List.map_map, recipientsSize, ← List.sum_map_mul_left]
  apply Nat.add_le_add_left
  apply List.sum_le_sum
  intro r _
  have hkid := weight_string_le r.kid
  have hkey := weight_string_le r.encryptedKey
  simp only [Function.comp_apply, weight_array, List.map_cons, List.map_nil,
    List.sum_cons, List.sum_nil]
  omega

/-- The weight of a written JWE in terms of its size. -/
theorem weight_ofJwe_le (jwe : Jwe) : weight (write (ofJwe jwe)) ≤ 120 * jwe.size := by
  have hprotected := weight_string_le jwe.protected
  have hrecipients := weight_recipients_le jwe.recipients
  have hiv := weight_string_le jwe.iv
  have hciphertext := weight_string_le jwe.ciphertext
  have htag := weight_string_le jwe.tag
  have hnames : (["protected", "recipients", "iv", "ciphertext", "tag"].map fun s =>
      2 + 2 * s.utf8ByteSize).sum = 78 := by decide
  rw [ofJwe]
  apply (weight_object_le _).trans
  simp only [List.map_cons, List.map_nil, List.sum_cons, List.sum_nil, Jwe.size] at hnames ⊢
  omega

/-- What is read is no shorter than what is written of it. -/
theorem weight_le_of_fromStr {inner : String} {v : Value}
    (h : packages.value.fromStr inner = .ok v) : weight (write v) ≤ inner.utf8ByteSize := by
  simp only [Serde.fromStr, packages, serde, readText, fromUtf8_utf8] at h
  split at h
  · rename_i v' hread
    obtain rfl := Except.ok.inj h
    have htext := (eq_of_read _).1 hread
    rw [List.append_nil] at htext
    rw [← weight_toList, htext]
  · cases h

/-- A forward message is as long as the names and the message in it, and its time. -/
theorem length_forward_le (supply : Supply) (i : ℕ) (hop next : String) (v : Value) :
    ((forwardMessage supply i hop next v).toPlaintextJson packages).utf8ByteSize ≤
      1000 + supply.now i + 2 * (supply.uuid i).utf8ByteSize + 2 * hop.utf8ByteSize +
        2 * next.utf8ByteSize + weight (write v) := by
  let a := (Attachment.ofJson v).withMediaType encryptedTyp
  let m : Message := { forwardMessage supply i hop next v with typ := some plaintextTyp }
  -- the weight of the message is that of its members, one by one
  have hid := weight_string_le (supply.uuid i)
  have hhop := weight_string_le (didOf hop)
  have hdid := utf8ByteSize_didOf_le hop
  have hnext := weight_string_le next
  have hbody := weight_object_le [("next", .string next)]
  have htime : weight (write (.ofNat (supply.now i))) = 2 + supply.now i := by
    have hone : 'u'.utf8Size = 1 := by decide
    rw [Value.ofNat, write, weight_cons, weight_writeNat, hone]
    omega
  have hattachment : weight (write (ofAttachment a)) =
      24 + weight (write (.string encryptedTyp)) + weight (write v) := by
    have hnull : weight (write .null) = 1 := by decide
    have hitems : ofAttachment a = .array [.null, .null, .null,
      .string encryptedTyp, .null, .null, .null, .null, .null, .null, .null, v] := rfl
    rw [hitems, weight_array]
    simp only [List.map_cons, List.map_nil, List.sum_cons, List.sum_nil, hnull]
    omega
  have hmessage := weight_object_le (messageMembers m)
  have hnames : (messageMembers m).map Prod.fst = Message.headerNames := rfl
  have hsizes : (Message.headerNames.map fun s => 2 + 2 * s.utf8ByteSize).sum ≤ 300 := by decide
  have hvalues : (messageMembers m).map Prod.snd =
      [.string (supply.uuid i), .string forwardType, .string plaintextTyp, .null,
        .array [.string (didOf hop)], .null, .null, .ofNat (supply.now i), .null,
        .object [("next", .string next)], .array [ofAttachment a], .null] := rfl
  have hconstants : weight (write (.string forwardType)) ≤ 100 ∧
      weight (write (.string plaintextTyp)) ≤ 100 ∧ weight (write (.string encryptedTyp)) ≤ 100 ∧
      weight (write .null) = 1 ∧ "next".utf8ByteSize = 4 := by decide
  rw [hvalues, hnames] at hmessage
  have htext : ((forwardMessage supply i hop next v).toPlaintextJson packages).utf8ByteSize =
    weight (write (.object (messageMembers m))) := utf8ByteSize_ofList _
  rw [htext]
  apply hmessage.trans
  simp only [weight_array, List.map_cons, List.map_nil, List.sum_cons, List.sum_nil] at hbody ⊢
  omega

/-- The transparent packages are sized, with a factor that is far from sharp. -/
theorem sized : packages.Sized (2 ^ 66) where
  -- the constant is 2^66, since the time is written in unary
  forward {supply i hop next inner v} hread hnow := by
    have hforward := length_forward_le supply i hop next v
    have hinner := weight_le_of_fromStr hread
    omega
  jwe jwe := by
    have hweight := weight_ofJwe_le jwe
    simp only [Jwe.toJson, packages, serde, utf8ByteSize_ofList]
    exact hweight.trans (Nat.mul_le_mul_right _ (by norm_num))
  jweHeader header := by
    have hweight := weight_ofJweHeader_le header
    simp only [packages, serde, utf8ByteSize_ofList]
    exact hweight.trans (Nat.mul_le_mul_right _ (by norm_num))
  sha256 bytes := by
    show (digest bytes).length ≤ 2 ^ 66
    rw [length_digest]
    norm_num
  publicBytes key := by
    have hfield : 1 + key.curve.fieldLen ≤ 2 ^ 66 := by cases key.curve <;> decide
    exact (length_publicBytes_le key).trans hfield
  uncompress key := by
    have hfield : 1 + 2 * key.curve.fieldLen ≤ 2 ^ 66 := by cases key.curve <;> decide
    have hpublic := length_publicBytes_le key
    simp only [packages, uncompress, List.length_cons, List.length_append, List.length_drop]
    omega
  wrapKey h := by
    obtain rfl := Option.some.inj h
    rw [List.length_append, List.length_replicate]
    omega
  cipher h := by
    obtain ⟨rfl, rfl⟩ := Prod.mk.inj (Except.ok.inj h)
    exact ⟨Nat.le_add_right _ _, Nat.zero_le _⟩

end Transparent

/-! ## The bound -/

/-- Routing makes of a message at most what is a power of its hops times as long as what it is
given. -/
theorem length_route_le (hsized : prim.Sized c) : ∃ factor, ∀ (resolver : Resolver)
    (supply : Supply) (enc : ContentEncryption) (payload to_ : String)
    (routed : Routed), (∀ i, supply.now i < 2 ^ 64) → (∀ i, (supply.uuid i).utf8ByteSize ≤ c) →
      route prim resolver supply payload to_ enc = .ok routed →
        routed.message.utf8ByteSize ≤ factor ^ hopCount resolver to_ *
          givenLength prim resolver payload to_ := by
  refine ⟨growth c, fun resolver supply enc payload to_ routed hnow huuid h => ?_⟩
  have hpayload : payload.utf8ByteSize ≤ givenLength prim resolver payload to_ := by
    rw [givenLength]
    omega
  obtain ⟨plan, hplan, h⟩ := bind_eq_ok.mp h
  -- without a service of the recipient nothing is wrapped
  cases plan with
  | none =>
    obtain rfl := pure_eq_ok.mp h
    simpa [hopCount, hplan] using hpayload
  | some plan =>
    obtain ⟨message, hwrapped, h⟩ := bind_eq_ok.mp h
    obtain rfl := pure_eq_ok.mp h
    obtain ⟨hgiven, hhops⟩ := @length_hop_le prim resolver to_ payload plan hplan
    have hrecipient : (didOf to_).utf8ByteSize ≤ givenLength prim resolver payload to_ := by
      have hdid := utf8ByteSize_didOf_le to_
      rw [givenLength]
      omega
    rw [hopCount, hplan]
    exact wrapForHops_length_le hsized hnow huuid hgiven hrecipient hpayload hhops hwrapped

/-- Routes of every length through the same relay. -/
theorem length_route_le_relayed : ∃ factor, ∀ n, ∃ routed,
    route Transparent.packages (Loopback.resolver (Transparent.relayed n)) Loopback.supply
      (Transparent.packages.value.toText (.object [])) "did:example:bob" .xc20p = .ok routed ∧
    routed.message.utf8ByteSize ≤
      factor ^ hopCount (Loopback.resolver (Transparent.relayed n)) "did:example:bob" *
        givenLength Transparent.packages (Loopback.resolver (Transparent.relayed n))
          (Transparent.packages.value.toText (.object [])) "did:example:bob" := by
  obtain ⟨factor, hfactor⟩ := length_route_le Transparent.sized
  refine ⟨factor, fun n => ?_⟩
  obtain ⟨text, -, hroute⟩ := Transparent.route_relayed n
  have hnow : ∀ i, Loopback.supply.now i < 2 ^ 64 := fun _ => by simp [Loopback.supply]
  have huuid : "u".utf8ByteSize ≤ 2 ^ 66 := by decide
  exact ⟨_, hroute, hfactor _ _ _ _ _ _ hnow (fun _ => huuid) hroute⟩

end Didcomm
