import AlmenaMediator.Didcomm.Pack
import AlmenaMediator.Didcomm.Unpack

/-!
# What packing relies on

`Primitives.Lawful` says of the third-party packages what their documentation does: JSON that was
written is read back, both sides of a key agreement get the same secret, key unwrapping undoes
wrapping, content decryption undoes encryption and a signature verifies. serde_json's limit on how
deep a text nests is left out: envelopes nest four deep.

## Main results

* `PublicKey.fromJwk_toJwk`: a public key is read back from its JWK;
* `Jwe.decrypt_encrypt`: every recipient decrypts what was encrypted to its key.
-/

namespace Didcomm

/-- A JSON value is read back as it was written. -/
def Primitives.Keeps (prim : Primitives) (v : Value) : Prop :=
  prim.value.fromStr (prim.value.toText v) = .ok v

/-- The headers of a message that have a field of their own. -/
def Message.headerNames : List String :=
  ["id", "type", "typ", "from", "to", "thid", "pthid", "created_time", "expires_time", "body",
    "attachments", "from_prior"]

/-- What an attachment holds can be written as JSON and read back. An optional value that is `null`
is read as absent. -/
structure Attachment.Writable (prim : Primitives) (a : Attachment) : Prop where
  json : ∀ v, a.data.json = some v → v ≠ .null ∧ prim.Keeps v
  jws : ∀ v, a.data.jws = some v → v ≠ .null ∧ prim.Keeps v
  lastmodTime : ∀ t, a.lastmodTime = some t → t < 2 ^ 64
  byteCount : ∀ n, a.byteCount = some n → n < 2 ^ 64

/-- What a message holds can be written as JSON and read back. -/
structure Message.Writable (prim : Primitives) (m : Message) : Prop where
  body : prim.Keeps m.body
  attachments : ∀ a ∈ m.attachments.getD [], a.Writable prim
  createdTime : ∀ t, m.createdTime = some t → t < 2 ^ 64
  expiresTime : ∀ t, m.expiresTime = some t → t < 2 ^ 64
  nodup : (m.extraHeaders.map Prod.fst).Nodup
  extraHeaders : ∀ e ∈ m.extraHeaders, e.1 ∉ Message.headerNames ∧ prim.Keeps e.2

/-- The packages do what they are documented to do. -/
structure Primitives.Lawful (prim : Primitives) : Prop where
  value_read : ∀ {text v}, prim.value.fromStr text = .ok v → prim.Keeps v
  value_string : ∀ s, prim.Keeps (.string s)
  value_object : ∀ members : List (String × Value), (members.map Prod.fst).Nodup →
    (∀ e ∈ members, prim.Keeps e.2) → prim.Keeps (.object members)
  /-- An encrypted envelope is an object with a ciphertext, and is read back from this object
  however it is written. -/
  jwe : ∀ jwe : Jwe, ∃ members, prim.value.fromStr (jwe.toJson prim) = .ok (.object members) ∧
    Value.containsKey "ciphertext" members ∧ Jwe.parse prim (jwe.toJson prim) = .ok jwe ∧
    Jwe.parse prim (prim.value.toText (.object members)) = .ok jwe
  jweHeader : ∀ header, prim.jweHeader.fromSlice (prim.jweHeader.toVec header) = .ok header
  /-- A signed envelope is an object with a payload and no ciphertext. -/
  jws : ∀ jws : Jws, ∃ members, prim.value.fromStr (prim.jwsText jws) = .ok (.object members) ∧
    Value.containsKey "ciphertext" members = false ∧ Value.containsKey "payload" members ∧
    prim.jwsInput (utf8 (prim.jwsText jws)) = .ok (.general jws.payload jws.signatures)
  jwsHeader : ∀ header, prim.jwsHeader.fromSlice (prim.jwsHeader.toVec header) = .ok header
  /-- A message is an object with its headers. -/
  message : ∀ m : Message, m.Writable prim → ∃ members,
    prim.value.fromStr (prim.messageText m) = .ok (.object members) ∧
    prim.messageOf (.object members) = .ok m ∧
    ∀ e ∈ members, e.1 ∈ Message.headerNames ∨ e.1 ∈ m.extraHeaders.map Prod.fst
  /-- The bytes of an Edwards or Montgomery public key are the key. -/
  decodes_okp : ∀ key : SecretKey, key.curve.jwkKty = "OKP" →
    prim.decodePoint key.curve (prim.publicBytes key) = some (prim.publicBytes key)
  /-- A Weierstrass public key is a point with two coordinates of the field's length. -/
  decodes_ec : ∀ key : SecretKey, key.curve.jwkKty = "EC" → ∃ x y : Bytes,
    x.length = key.curve.fieldLen ∧ y.length = key.curve.fieldLen ∧
    prim.uncompress key.curve (prim.publicBytes key) = 0x04 :: (x ++ y) ∧
    prim.decodePoint key.curve (0x04 :: (x ++ y)) = some (prim.publicBytes key)
  ecdh_comm : ∀ {a b : SecretKey} {z}, a.curve = b.curve →
    prim.ecdh a (b.publicKey prim) = some z → prim.ecdh b (a.publicKey prim) = some z
  unwrap_wrap : ∀ {kek cek wrapped}, prim.wrapKey kek cek = some wrapped →
    8 ≤ wrapped.length ∧ prim.unwrapKey kek wrapped = some cek
  decrypt_encrypt : ∀ {enc key iv aad plaintext ciphertext tag},
    prim.cipherEncrypt enc key iv aad plaintext = .ok (ciphertext, tag) →
    prim.cipherDecrypt enc key iv aad ciphertext tag = .ok plaintext
  verifies_signs : ∀ {key : SecretKey} {message signature},
    prim.signs key message = some signature →
    prim.verifies key.curve (prim.publicBytes key) message signature

variable {prim : Primitives}

/-- The JWK of an Edwards or Montgomery key has its bytes, that of a Weierstrass key its
coordinates. -/
theorem PublicKey.toJwk_okp (key : PublicKey) (hkty : key.curve.jwkKty = "OKP") :
    key.toJwk prim = ⟨"OKP", key.curve.jwkCrv, b64Encode key.bytes, none, none, none⟩ := by
  obtain ⟨curve, bytes⟩ := key
  cases curve <;> first | rfl | simp [Curve.jwkKty] at hkty

/-- The JWK of an EC key has the two coordinates of its uncompressed point. -/
theorem PublicKey.toJwk_ec (key : PublicKey) (hkty : key.curve.jwkKty = "EC") {x y : Bytes}
    (hx : x.length = key.curve.fieldLen)
    (hpoint : prim.uncompress key.curve key.bytes = 0x04 :: (x ++ y)) :
    key.toJwk prim =
      ⟨"EC", key.curve.jwkCrv, b64Encode x, some (b64Encode y), none, none⟩ := by
  have htake : (x ++ y).take key.curve.fieldLen = x := by rw [← hx, List.take_left]
  have hdrop : (x ++ y).drop key.curve.fieldLen = y := by rw [← hx, List.drop_left]
  obtain ⟨curve, bytes⟩ := key
  cases curve
  case ed25519 | x25519 => simp [Curve.jwkKty] at hkty
  all_goals
    simp only [PublicKey.toJwk, hpoint, List.drop_succ_cons, List.drop_zero] at htake hdrop ⊢
    rw [htake, hdrop]
    rfl

/-- A public key is read back from its JWK. -/
theorem PublicKey.fromJwk_toJwk (hlawful : prim.Lawful) (key : SecretKey) :
    PublicKey.fromJwk prim ((key.publicKey prim).toJwk prim) = .ok (key.publicKey prim) := by
  have hcurve : (key.publicKey prim).curve = key.curve := rfl
  have hbytes : (key.publicKey prim).bytes = prim.publicBytes key := rfl
  have hkty : key.curve.jwkKty = "OKP" ∨ key.curve.jwkKty = "EC" := by cases key.curve <;> decide
  rcases hkty with hokp | hec
  · rw [PublicKey.toJwk_okp _ (hcurve ▸ hokp), hcurve, hbytes]
    simp [PublicKey.fromJwk, hokp, bind, Except.bind, PublicKey.fromBytes,
      hlawful.decodes_okp key hokp, SecretKey.publicKey]
  · obtain ⟨x, y, hx, hy, hpoint, hdecodes⟩ := hlawful.decodes_ec key hec
    rw [PublicKey.toJwk_ec _ (hcurve ▸ hec) (hcurve ▸ hx) hpoint, hcurve]
    simp [PublicKey.fromJwk, hec, bind, Except.bind, okOr, hx, hy, PublicKey.fromBytes, hdecodes,
      SecretKey.publicKey]

/-- Both sides of a key agreement get the same secret. -/
theorem SecretKey.diffieHellman_comm (hlawful : prim.Lawful) {a b : SecretKey} {z : Bytes}
    (h : a.diffieHellman prim (b.publicKey prim) = .ok z) :
    b.diffieHellman prim (a.publicKey prim) = .ok z := by
  have hcurve : ∀ key : SecretKey, (key.publicKey prim).curve = key.curve := fun _ => rfl
  simp only [SecretKey.diffieHellman, hcurve] at h ⊢
  split_ifs at h with hsame
  rw [okOr_eq_ok] at h
  rw [if_pos ⟨hsame.1.symm, hsame.1 ▸ hsame.2⟩, okOr_eq_ok]
  exact hlawful.ecdh_comm hsame.1 h

/-- Unwrapping undoes wrapping. -/
theorem unwrapKey_wrapKey (hlawful : prim.Lawful) {kek cek wrapped : Bytes}
    (h : wrapKey prim kek cek = .ok wrapped) : unwrapKey prim kek wrapped = .ok cek := by
  rw [wrapKey, okOr_eq_ok] at h
  obtain ⟨hlength, hunwrap⟩ := hlawful.unwrap_wrap h
  rw [unwrapKey, if_neg (by omega), hunwrap, okOr]

/-- Content decryption undoes content encryption. -/
theorem ContentEncryption.decrypt_encrypt (hlawful : prim.Lawful) {enc : ContentEncryption}
    {key iv aad plaintext ciphertext tag : Bytes}
    (h : enc.encrypt prim key iv aad plaintext = .ok (ciphertext, tag)) :
    enc.decrypt prim key iv aad ciphertext tag = .ok plaintext := by
  obtain ⟨⟨⟩, hlengths, hcipher⟩ := bind_eq_ok.mp h
  exact bind_eq_ok.mpr ⟨(), hlengths, hlawful.decrypt_encrypt hcipher⟩

/-! ## Encrypted envelopes -/

namespace Jwe

variable (prim)

/-- The protected header of an envelope encrypted with an ephemeral key. -/
def headerOf (ephemeral : SecretKey) (sender : Option Sender) (recipients : List Recipient)
    (enc : ContentEncryption) : JweProtectedHeader where
  typ := some encryptedTyp
  alg := if sender.isSome then .ecdh1PuA256Kw else .ecdhEsA256Kw
  enc := enc
  epk := (ephemeral.publicKey prim).toJwk prim
  skid := sender.map Sender.kid
  apu := sender.map fun s => b64Encode (utf8 s.kid)
  apv := apv prim (recipients.map (·.kid))

/-- The bytes that `apu` encodes. -/
def apuBytes (sender : Option Sender) : Bytes := (sender.map fun s => utf8 s.kid).getD []

/-- The bytes that `apv` encodes. -/
def apvBytes (recipients : List Recipient) : Bytes :=
  prim.sha256 (utf8 (".".intercalate ((recipients.map (·.kid)).insertionSort (· ≤ ·))))

/-- What `encrypt` made an envelope of. -/
structure Sealed (plaintext : Bytes) (sender : Option Sender) (recipients : List Recipient)
    (enc : ContentEncryption) (jwe : Jwe) (draw : Draw) (ephemeral : SecretKey)
    (ciphertext tag : Bytes) : Prop where
  curves : ∀ r ∈ recipients, r.key.curve = ephemeral.curve
  senderCurve : ∀ s ∈ sender, s.key.curve = ephemeral.curve
  header : jwe.protected =
    b64Encode (prim.jweHeader.toVec (headerOf prim ephemeral sender recipients enc))
  encrypted : enc.encrypt prim (draw.cek enc.keyLen) (draw.iv enc.ivLen) (utf8 jwe.protected)
    plaintext = .ok (ciphertext, tag)
  /-- The content key is wrapped for every recipient, in order. -/
  wrapped : List.Forall₂
    (fun r w => wrapFor prim ephemeral sender (headerOf prim ephemeral sender recipients enc).alg
      (apuBytes sender) (apvBytes prim recipients) (draw.cek enc.keyLen) tag r = .ok w)
    recipients jwe.recipients
  iv : jwe.iv = b64Encode (draw.iv enc.ivLen)
  ciphertext : jwe.ciphertext = b64Encode ciphertext
  tag : jwe.tag = b64Encode tag

variable {prim} {random : Random} {plaintext : Bytes} {sender : Option Sender}
  {recipients : List Recipient} {enc : ContentEncryption} {jwe : Jwe}

/-- Where the curves are checked the recipients are on one curve and so is a sender. -/
theorem checkCurves_eq_ok {curve : Curve} (h : checkCurves sender recipients = .ok curve) :
    (∀ r ∈ recipients, r.key.curve = curve) ∧ ∀ s ∈ sender, s.key.curve = curve := by
  simp only [checkCurves, bind_eq_ok, error_bind, guard_eq_ok, pure_eq_ok, okOr_eq_ok] at h
  obtain ⟨first, -, -, hrecipients, hsender, rfl⟩ := h
  constructor
  · intro r hr
    by_contra hne
    exact hrecipients (List.any_eq_true.mpr ⟨r, hr, bne_iff_ne.mpr hne⟩)
  · intro s hs
    by_contra hne
    exact hsender (by simpa [Option.mem_def.mp hs] using hne)

/-- The `apu` of a sender is decoded to the sender's key id. -/
theorem decodeOpt_apu :
    decodeOpt (sender.map fun s => b64Encode (utf8 s.kid)) = .ok (apuBytes sender) := by
  cases sender <;> simp [decodeOpt, apuBytes]

/-- An encryption that succeeds has drawn a content key and an ephemeral key and sealed the
plaintext with them. -/
theorem encrypt_eq_ok (h : encrypt prim random plaintext sender recipients enc = .ok jwe) :
    ∃ draw ephemeral ciphertext tag,
      Sealed prim plaintext sender recipients enc jwe draw ephemeral ciphertext tag := by
  simp only [encrypt, bind_eq_ok, pure_eq_ok] at h
  obtain ⟨curve, hcurves, draw, -, ⟨ciphertext, tag⟩, hencrypted, apu, hapu,
    apvBytes, hapv, wrapped, hwrapped, rfl⟩ := h
  obtain ⟨hrecipients, hsender⟩ := checkCurves_eq_ok hcurves
  obtain rfl : apuBytes sender = apu := by
    rw [decodeOpt_apu] at hapu
    exact Except.ok.inj hapu
  rw [apv, b64Decode_b64Encode] at hapv
  obtain rfl := Except.ok.inj hapv
  exact ⟨draw, draw.ephemeral curve, ciphertext, tag,
    { curves := fun r hr => (hrecipients r hr).trans (draw.ephemeral_curve curve).symm
      senderCurve := fun s hs => (hsender s hs).trans (draw.ephemeral_curve curve).symm
      header := rfl
      encrypted := hencrypted
      wrapped := mapM_eq_ok.mp hwrapped
      iv := rfl
      ciphertext := rfl
      tag := rfl }⟩

/-- What a recipient's wrapped content key is: wrapped with the key both sides of the agreement
derive. -/
theorem wrapFor_eq_ok {ephemeral : SecretKey} {alg : KeyWrap} {apu apv cek tag : Bytes}
    {r : Recipient} {w : JweRecipient}
    (h : wrapFor prim ephemeral sender alg apu apv cek tag r = .ok w) :
    ∃ ze kek wrapped, ephemeral.diffieHellman prim r.key = .ok ze ∧
      (match sender with
        | some s => ∃ zs, s.key.diffieHellman prim r.key = .ok zs ∧
          kek = concatKdf prim (ze ++ zs) alg apu apv (some tag)
        | none => kek = concatKdf prim ze alg apu apv none) ∧
      wrapKey prim kek cek = .ok wrapped ∧ w = ⟨r.kid, b64Encode wrapped⟩ := by
  obtain ⟨ze, hze, h⟩ := bind_eq_ok.mp h
  -- an authcrypt derives its key from both agreements, and from the tag
  cases sender with
  | none =>
    obtain ⟨kek, hkek, h⟩ := bind_eq_ok.mp h
    obtain ⟨wrapped, hwrapped, hw⟩ := bind_eq_ok.mp h
    exact ⟨ze, kek, wrapped, hze, (pure_eq_ok.mp hkek).symm, hwrapped, (pure_eq_ok.mp hw).symm⟩
  | some s =>
    obtain ⟨zs, hzs, h⟩ := bind_eq_ok.mp h
    obtain ⟨kek, hkek, h⟩ := bind_eq_ok.mp h
    obtain ⟨wrapped, hwrapped, hw⟩ := bind_eq_ok.mp h
    exact ⟨ze, kek, wrapped, hze, ⟨zs, hzs, (pure_eq_ok.mp hkek).symm⟩, hwrapped,
      (pure_eq_ok.mp hw).symm⟩

namespace Sealed

variable {draw : Draw} {ephemeral : SecretKey} {ciphertext tag : Bytes}

/-- The protected header of a sealed envelope is read as the header it was sealed with. -/
theorem protectedHeader (hlawful : prim.Lawful)
    (hsealed : Sealed prim plaintext sender recipients enc jwe draw ephemeral ciphertext tag) :
    jwe.protectedHeader prim = .ok (headerOf prim ephemeral sender recipients enc) := by
  rw [Jwe.protectedHeader, hsealed.header, b64Decode_b64Encode]
  exact ofJson_eq_ok.mpr (hlawful.jweHeader _)

/-- The envelope lists its recipients in order. -/
theorem recipientKids
    (hsealed : Sealed prim plaintext sender recipients enc jwe draw ephemeral ciphertext tag) :
    jwe.recipientKids = recipients.map (·.kid) := by
  have hkids : List.Forall₂ (fun r w => Recipient.kid r = JweRecipient.kid w) recipients
      jwe.recipients := hsealed.wrapped.imp fun r w hw => by
    obtain ⟨-, -, -, -, -, -, rfl⟩ := wrapFor_eq_ok hw
    rfl
  have hmaps := List.forall₂_map_left_iff.mpr (List.forall₂_map_right_iff.mpr hkids)
  rw [List.forall₂_eq_eq_eq] at hmaps
  exact hmaps.symm

/-- The wrapped key found under a recipient's id is wrapped to its key. -/
theorem find_recipient
    (hsealed : Sealed prim plaintext sender recipients enc jwe draw ephemeral ciphertext tag)
    (hkids : ∀ r ∈ recipients, ∀ r' ∈ recipients, r.kid = r'.kid → r.key = r'.key)
    {r : Recipient} (hr : r ∈ recipients) :
    ∃ w, (jwe.recipients.find? fun w => w.kid == r.kid) = some w ∧
      wrapFor prim ephemeral sender (headerOf prim ephemeral sender recipients enc).alg
        (apuBytes sender) (apvBytes prim recipients) (draw.cek enc.keyLen) tag r = .ok w := by
  have hlisted : r.kid ∈ jwe.recipientKids := hsealed.recipientKids ▸ List.mem_map_of_mem hr
  obtain ⟨w', hw', hkid'⟩ := List.mem_map.mp hlisted
  have hsome : (jwe.recipients.find? fun w => w.kid == r.kid).isSome :=
    List.find?_isSome.mpr ⟨w', hw', beq_iff_eq.mpr hkid'⟩
  obtain ⟨w, hfind⟩ := Option.isSome_iff_exists.mp hsome
  have hkid : w.kid = r.kid := by simpa using List.find?_some hfind
  obtain ⟨r', hr', hwrap⟩ := exists_of_forall₂ hsealed.wrapped (List.mem_of_find?_eq_some hfind)
  -- the recipient the key was wrapped for may be another one, of the same id and so of the same key
  have hid : r'.kid = r.kid := by
    obtain ⟨_, _, _, _, _, _, hw⟩ := wrapFor_eq_ok hwrap
    rw [← hkid, hw]
  have hsame : r' = r := by
    have hkey := hkids r' hr' r hr hid
    cases r'
    cases r
    exact Recipient.mk.injEq .. ▸ ⟨hid, hkey⟩
  exact ⟨w, hfind, hsame ▸ hwrap⟩

end Sealed

variable (prim) in
/-- The key encryption key of `decrypt`. -/
def kekOf (header : JweProtectedHeader) (key : SecretKey) (sender : Option PublicKey)
    (epk : PublicKey) (apu apv tag : Bytes) : Result Bytes :=
  match header.alg with
  | .ecdhEsA256Kw => do
    let z ← key.diffieHellman prim epk
    pure (concatKdf prim z header.alg apu apv none)
  | .ecdh1PuA256Kw => authcryptKek prim header key sender epk apu apv tag

/-- The recipient derives the key its content key was wrapped with. -/
theorem kekOf_eq (hlawful : prim.Lawful) {ephemeral : SecretKey} {tag : Bytes} {r : Recipient}
    {w : JweRecipient} {cek apu apv : Bytes}
    (henc : sender.isSome → enc = .a256CbcHs512)
    (hwrap : wrapFor prim ephemeral sender (headerOf prim ephemeral sender recipients enc).alg
      apu apv cek tag r = .ok w)
    {key : SecretKey} (hkey : key.publicKey prim = r.key) (hcurve : r.key.curve = ephemeral.curve)
    (hsender : ∀ s ∈ sender, s.key.curve = ephemeral.curve) :
    ∃ kek wrapped,
      kekOf prim (headerOf prim ephemeral sender recipients enc) key
        (sender.map fun s => s.key.publicKey prim)
        (ephemeral.publicKey prim) apu apv tag = .ok kek ∧ wrapKey prim kek cek = .ok wrapped ∧
          w.encryptedKey = b64Encode wrapped := by
  obtain ⟨ze, kek, wrapped, hze, hkek, hwrapped, rfl⟩ := wrapFor_eq_ok hwrap
  refine ⟨kek, wrapped, ?_, hwrapped, rfl⟩
  rw [← hkey] at hze
  -- the receiver's secret with the ephemeral key gives what the sender computed
  have hze' := SecretKey.diffieHellman_comm hlawful hze
  cases sender with
  | none =>
    simp only at hkek
    exact bind_eq_ok.mpr ⟨ze, hze', pure_eq_ok.mpr hkek.symm⟩
  | some s =>
    obtain ⟨zs, hzs, hkek⟩ := hkek
    rw [← hkey] at hzs
    have hzs' := SecretKey.diffieHellman_comm hlawful hzs
    -- the check that the sender's key is on the curve of the receiver's
    have hsame : (s.key.publicKey prim).curve = key.curve :=
      (hsender s rfl).trans (hcurve.symm.trans (congrArg PublicKey.curve hkey.symm))
    have henc' : enc = .a256CbcHs512 := henc rfl
    change authcryptKek prim _ key (some (s.key.publicKey prim)) _ _ _ _ = _
    simp only [authcryptKek, headerOf, henc', ne_eq, not_true_eq_false,
      ↓reduceIte, okOr, hsame, hze', hzs', bind, Except.bind, hkek]
    rfl

/-- Every recipient decrypts what was encrypted to its key. -/
theorem decrypt_encrypt (hlawful : prim.Lawful)
    (h : encrypt prim random plaintext sender recipients enc = .ok jwe)
    (henc : sender.isSome → enc = .a256CbcHs512)
    (hkids : ∀ r ∈ recipients, ∀ r' ∈ recipients, r.kid = r'.kid → r.key = r'.key)
    {r : Recipient} (hr : r ∈ recipients) {key : SecretKey} (hkey : key.publicKey prim = r.key) :
    jwe.decrypt prim r.kid key (sender.map fun s => s.key.publicKey prim) = .ok plaintext := by
  obtain ⟨draw, ephemeral, ciphertext, tag, hsealed⟩ := encrypt_eq_ok h
  obtain ⟨w, hfind, hwrap⟩ := hsealed.find_recipient hkids hr
  obtain ⟨kek, wrapped, hkek, hwrapped, hkey'⟩ :=
    kekOf_eq hlawful henc hwrap hkey (hsealed.curves r hr) hsealed.senderCurve
  have hcurve : (ephemeral.publicKey prim).curve = key.curve :=
    (hsealed.curves r hr).symm.trans (congrArg PublicKey.curve hkey.symm)
  have hepk : PublicKey.fromJwk prim (headerOf prim ephemeral sender recipients enc).epk =
    .ok (ephemeral.publicKey prim) := PublicKey.fromJwk_toJwk hlawful ephemeral
  have hapu : decodeOpt (headerOf prim ephemeral sender recipients enc).apu =
    .ok (apuBytes sender) := decodeOpt_apu
  have hlisted : (headerOf prim ephemeral sender recipients enc).apv = apv prim jwe.recipientKids :=
    congrArg (apv prim) hsealed.recipientKids.symm
  have hapv : b64Decode (apv prim jwe.recipientKids) = .ok (apvBytes prim recipients) := by
    rw [hsealed.recipientKids]
    exact b64Decode_b64Encode _
  have hunwrap := unwrapKey_wrapKey hlawful hwrapped
  -- what `decrypt` runs once it has all it reads
  have hopened : decrypt prim jwe r.kid key (sender.map fun s => s.key.publicKey prim) =
      (do
        let kek ← kekOf prim (headerOf prim ephemeral sender recipients enc) key
          (sender.map fun s => s.key.publicKey prim) (ephemeral.publicKey prim) (apuBytes sender)
          (apvBytes prim recipients) tag
        let cek ← unwrapKey prim kek wrapped
        enc.decrypt prim cek (draw.iv enc.ivLen) (utf8 jwe.protected) ciphertext tag) := by
    simp only [decrypt, hsealed.protectedHeader hlawful, hfind, hepk, hapu, hapv, bind, Except.bind,
      okOr, hkey', b64Decode_b64Encode, hsealed.tag, hsealed.iv,
        hsealed.ciphertext, hcurve, hlisted, ne_eq, not_true_eq_false, ↓reduceIte, kekOf]
    cases (headerOf prim ephemeral sender recipients enc).alg
    · cases key.diffieHellman prim (ephemeral.publicKey prim) <;> rfl
    · rfl
  rw [hopened]
  refine bind_eq_ok.mpr ⟨kek, hkek, bind_eq_ok.mpr ⟨_, hunwrap, ?_⟩⟩
  exact ContentEncryption.decrypt_encrypt hlawful hsealed.encrypted

end Jwe

end Didcomm
