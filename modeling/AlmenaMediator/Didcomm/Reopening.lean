import AlmenaMediator.Didcomm.Laws

/-!
# Opening what was packed

One iteration of the unpacking loop over what the packing functions make: it opens an encrypted
envelope for every party that holds the secret of one of its recipient keys, and it reads a
plaintext back. `unpack` of a whole message is these iterations in order.

## Main results

* `openJwe_encrypt`: an encrypted envelope opens, with any sender and any subset of the secrets;
* `round_toPlaintextJson`: a valid message is read back, with its media type filled in.
-/

namespace Didcomm

variable {prim : Primitives} {resolver : Resolver} {secrets : Secrets}

/-! ## Envelopes as text -/

/-- `text` is an object with a ciphertext that reads as `jwe`, in whatever order or spacing. -/
structure Carries (prim : Primitives) (text : String) (jwe : Jwe) : Prop where
  object : ∃ members, prim.value.fromStr text = .ok (.object members) ∧
    Value.containsKey "ciphertext" members
  parsed : Jwe.parse prim text = .ok jwe

/-- The text of a JWE carries the JWE. -/
theorem carries_toJson (hlawful : prim.Lawful)
    (jwe : Jwe) : Carries prim (jwe.toJson prim) jwe := by
  obtain ⟨members, hread, hciphertext, hparse, -⟩ := hlawful.jwe jwe
  exact ⟨⟨members, hread, hciphertext⟩, hparse⟩

/-- An envelope that was read as a JSON value and written again is still that envelope. -/
theorem carries_toText (hlawful : prim.Lawful) {jwe : Jwe} {v : Value}
    (hread : prim.value.fromStr (jwe.toJson prim) = .ok v) :
    Carries prim (prim.value.toText v) jwe := by
  obtain ⟨members, hread', hciphertext, -, hparse⟩ := hlawful.jwe jwe
  obtain rfl : v = .object members := Except.ok.inj (hread.symm.trans hread')
  exact ⟨⟨members, hlawful.value_read hread, hciphertext⟩, hparse⟩

/-- An object with a ciphertext is opened as an encrypted envelope. -/
theorem round_carries {jwe : Jwe} {st st' : Peel} (hcarries : Carries prim st.current jwe)
    (hopen : openJwe prim resolver secrets st = .ok st') :
    round prim resolver secrets st = .ok (.peeled st') := by
  obtain ⟨members, hread, hciphertext⟩ := hcarries.object
  rw [round]
  refine bind_eq_ok.mpr ⟨_, ofJson_eq_ok.mpr hread, bind_eq_ok.mpr ⟨members, rfl, ?_⟩⟩
  rw [if_pos hciphertext, hopen]
  rfl

/-! ## Encrypted envelopes -/

/-- Whoever answers to `secrets` holds the secret of at least one of the recipients, and every
secret it holds for one is the secret half of its key. -/
structure Unlocks (prim : Primitives) (secrets : Secrets) (recipients : List Recipient) : Prop where
  held : ∃ r ∈ recipients, ∃ key, secrets r.kid = .ok (some key)
  halves : ∀ r ∈ recipients, ∃ held, secrets r.kid = .ok held ∧
    ∀ key ∈ held, key.publicKey prim = r.key

/-- The first secret held is the one an envelope is opened with. -/
theorem findDecryptionKeyIn_eq {recipients : List Recipient}
    (hunlocks : Unlocks prim secrets recipients) :
    ∃ r ∈ recipients, ∃ key, key.publicKey prim = r.key ∧
      findDecryptionKeyIn secrets (recipients.map (·.kid)) = .ok (r.kid, key) := by
  obtain ⟨⟨r, hr, key, hkey⟩, hhalves⟩ := hunlocks
  induction recipients with
  | nil => nomatch hr
  | cons first rest ih =>
    obtain ⟨held, hheld, hhalf⟩ := hhalves first List.mem_cons_self
    cases held with
    | some key' =>
      refine ⟨first, List.mem_cons_self, key', hhalf key' rfl, ?_⟩
      rw [List.map_cons, findDecryptionKeyIn, hheld]
      rfl
    | none =>
      -- `r` is another recipient: there is a secret for it
      have hr' : r ∈ rest := by
        rcases List.mem_cons.mp hr with rfl | hr'
        · rw [hkey] at hheld
          nomatch hheld
        · exact hr'
      obtain ⟨r', hmem, key', hkey', hfind⟩ :=
        ih (fun r hr => hhalves r (List.mem_cons_of_mem _ hr)) hr'
      refine ⟨r', List.mem_cons_of_mem _ hmem, key', hkey', ?_⟩
      rw [List.map_cons, findDecryptionKeyIn, hheld]
      exact hfind

/-- What opening an encrypted envelope adds to the metadata for its algorithm. -/
def sealedMetadata (enc : ContentEncryption) (metadata : UnpackMetadata) :
    Option Sender → UnpackMetadata
  | some s => { metadata with authenticated := true, encryptedFromKid := some s.kid,
                              encAlgAuth := some enc }
  | none => { metadata with encAlgAnon := some enc }

/-- The layer an encrypted envelope is. -/
def sealedLayer (sender : Option Sender) : Layer := if sender.isSome then .authcrypt else .anoncrypt

/-- The layer that a header names is the one that was sealed. -/
theorem layer_headerOf (ephemeral : SecretKey) (sender : Option Sender)
    (recipients : List Recipient) (enc : ContentEncryption) :
    (Jwe.headerOf prim ephemeral sender recipients enc).alg.layer = sealedLayer sender := by
  cases sender <;> rfl

/-- The sender that a header names is resolved to its key, which is noted in the metadata. -/
theorem layerSender_headerOf {ephemeral : SecretKey} {sender : Option Sender}
    {recipients : List Recipient} {enc : ContentEncryption} {metadata : UnpackMetadata}
    (hsender : ∀ s ∈ sender, ∃ doc, resolver (didOf s.kid) = .ok doc ∧
      doc.keyAgreementKey s.kid = .ok (s.key.publicKey prim)) :
    layerSender resolver (Jwe.headerOf prim ephemeral sender recipients enc) metadata =
      .ok (sender.map fun s => s.key.publicKey prim, sealedMetadata enc metadata sender) := by
  cases sender with
  | none => rfl
  | some s =>
    obtain ⟨doc, hdoc, hkey⟩ := hsender s rfl
    have hkid : (Jwe.headerOf prim ephemeral (some s) recipients enc).senderKid =
      .ok (some s.kid) := by
      simp [JweProtectedHeader.senderKid, Jwe.headerOf, bind, Except.bind, okOr, pure, Except.pure]
    have halg : (Jwe.headerOf prim ephemeral (some s) recipients enc).alg = .ecdh1PuA256Kw := rfl
    simp only [layerSender, halg, hkid, bind, Except.bind, okOr, hdoc, hkey]
    rfl

/-- An encrypted envelope opens for whoever holds the secret of one of its recipients. -/
theorem openJwe_encrypt (resolver : Resolver) (st : Peel) (hlawful : prim.Lawful) {random : Random}
    {inner : String} {sender : Option Sender} {recipients : List Recipient}
    {enc : ContentEncryption} {jwe : Jwe}
    (h : Jwe.encrypt prim random (utf8 inner) sender recipients enc = .ok jwe)
    (henc : sender.isSome → enc = .a256CbcHs512)
    (hkids : ∀ r ∈ recipients, ∀ r' ∈ recipients, r.kid = r'.kid → r.key = r'.key)
    (hparsed : Jwe.parse prim st.current = .ok jwe)
    (hallowed : (sealedLayer sender).allowedIn st.layers)
    (hunlocks : Unlocks prim secrets recipients)
    (hsender : ∀ s ∈ sender, ∃ doc, resolver (didOf s.kid) = .ok doc ∧
      doc.keyAgreementKey s.kid = .ok (s.key.publicKey prim)) :
    ∃ r ∈ recipients, openJwe prim resolver secrets st = .ok
      { current := inner
        metadata := { sealedMetadata enc st.metadata sender with
          encrypted := true, encryptedToKids := recipients.map (·.kid),
          decryptedByKid := some r.kid }
        layers := st.layers ++ [sealedLayer sender]
        recipientDids := st.recipientDids ++ [didOf r.kid] } := by
  obtain ⟨draw, ephemeral, ciphertext, tag, hsealed⟩ := Jwe.encrypt_eq_ok h
  have hkidsOf : jwe.recipientKids = recipients.map (·.kid) := hsealed.recipientKids
  -- the first kid whose secret the receiver holds is one of the recipients
  obtain ⟨r, hr, key, hkey, hfind⟩ := findDecryptionKeyIn_eq hunlocks
  have hfind' : findDecryptionKey secrets jwe = .ok (r.kid, key) := by
    rw [findDecryptionKey, hkidsOf]
    exact hfind
  have hdecrypt := Jwe.decrypt_encrypt hlawful h henc hkids hr hkey
  have hlayer : (Jwe.headerOf prim ephemeral sender recipients enc).alg.layer =
    sealedLayer sender :=
    layer_headerOf ephemeral sender recipients enc
  refine ⟨r, hr, ?_⟩
  have htyp : checkTyp (Jwe.headerOf prim ephemeral sender recipients enc).typ
    encryptedTyp = .ok () := by
    change checkTyp (some encryptedTyp) encryptedTyp = _
    decide
  simp only [openJwe, hparsed, hsealed.protectedHeader hlawful, htyp, hlayer, hallowed, hfind',
    layerSender_headerOf hsender, hdecrypt, payloadText, fromUtf8_utf8, okOr, bind, Except.bind,
    hkidsOf, Bool.not_true, Bool.false_eq_true, ↓reduceIte]
  rfl

/-! ## Plaintexts -/

/-- A message can be written with its media type filled in. -/
theorem Message.Writable.withTyp {m : Message} (hwritable : m.Writable prim) (typ : Option String) :
    ({ m with typ := typ } : Message).Writable prim :=
  ⟨hwritable.body, hwritable.attachments, hwritable.createdTime, hwritable.expiresTime,
    hwritable.nodup, hwritable.extraHeaders⟩

/-- The media type that packing fills in passes the checks. -/
theorem Message.validate_withTyp {m : Message} (hvalid : m.validate = .ok ()) :
    ({ m with typ := some plaintextTyp } : Message).validate = .ok () := by
  have htyp : mediaTypeIs plaintextTyp plaintextTyp = true := by decide
  simp only [Message.validate, error_bind, guard_eq_ok] at hvalid ⊢
  obtain ⟨hid, htype, hbody, hrest⟩ := hvalid
  refine ⟨hid, htype, hbody, by simp [htyp], ?_⟩
  cases hm : m.typ with
  | none =>
    rw [hm] at hrest
    exact hrest
  | some typ =>
    rw [hm] at hrest
    exact (guard_eq_ok.mp hrest).2

/-- A message without a header that marks an envelope. -/
def Message.Unmarked (m : Message) : Prop :=
  ∀ e ∈ m.extraHeaders, e.1 ≠ "ciphertext" ∧ e.1 ≠ "payload"

/-- The JSON of a message is an object with the headers of the message, and reads as the message. -/
def Message.ReadBack (prim : Primitives) (m : Message) : Prop :=
  ∃ members, prim.value.fromStr (prim.messageText m) = .ok (.object members) ∧
    prim.messageOf (.object members) = .ok m ∧
    ∀ e ∈ members, e.1 ∈ Message.headerNames ∨ e.1 ∈ m.extraHeaders.map Prod.fst

/-- The JSON of a message without such a header is no envelope. -/
theorem Message.ReadBack.isPlain {m : Message} (hreadBack : m.ReadBack prim)
    (hunmarked : m.Unmarked) :
    ∃ members, prim.value.fromStr (prim.messageText m) = .ok (.object members) ∧
      prim.messageOf (.object members) = .ok m ∧ Value.containsKey "ciphertext" members = false ∧
      Value.containsKey "payload" members = false := by
  obtain ⟨members, hread, hmessage, hnames⟩ := hreadBack
  have habsent : ∀ name, name = "ciphertext" ∨ name = "payload" →
      Value.containsKey name members = false := by
    intro name hname
    rw [Value.containsKey, List.any_eq_false]
    intro e he heq
    obtain rfl : e.1 = name := beq_iff_eq.mp heq
    -- a member is a header of the message or one of its extra headers
    rcases hnames e he with hown | hextra
    · rcases hname with hname | hname <;> rw [hname] at hown <;> exact absurd hown (by decide)
    · obtain ⟨e', he', hkey⟩ := List.mem_map.mp hextra
      have hne := hunmarked e' he'
      rw [hkey] at hne
      exact hname.elim hne.1 hne.2
  exact ⟨members, hread, hmessage, habsent _ (.inl rfl), habsent _ (.inr rfl)⟩

/-- A valid message is read back, with its media type filled in. -/
theorem round_readBack {m : Message}
    (hreadBack : ({ m with typ := some plaintextTyp } : Message).ReadBack prim)
    (hvalid : m.validate = .ok ()) (hunmarked : m.Unmarked) {st : Peel}
    (hcurrent : st.current = m.toPlaintextJson prim) :
    round prim resolver secrets st = .ok (.plaintext { m with typ := some plaintextTyp }) := by
  obtain ⟨members, hread, hmessage, hciphertext, hpayload⟩ := hreadBack.isPlain hunmarked
  have hread' : prim.value.fromStr st.current = .ok (.object members) := by
    rw [hcurrent]
    exact hread
  have hplain : readPlaintext prim (.object members) =
      .ok { m with typ := some plaintextTyp } :=
    bind_eq_ok.mpr ⟨_, ofJson_eq_ok.mpr hmessage,
      bind_eq_ok.mpr ⟨(), Message.validate_withTyp hvalid, rfl⟩⟩
  rw [round]
  refine bind_eq_ok.mpr ⟨_, ofJson_eq_ok.mpr hread', bind_eq_ok.mpr ⟨members, rfl, ?_⟩⟩
  rw [if_neg (by simp [hciphertext]), if_neg (by simp [hpayload]), hplain]
  rfl

/-- A round on the JSON of a valid unmarked message ends the peeling with that message. -/
theorem round_toPlaintextJson (hlawful : prim.Lawful) {m : Message} (hwritable : m.Writable prim)
    (hvalid : m.validate = .ok ()) (hunmarked : m.Unmarked) {st : Peel}
    (hcurrent : st.current = m.toPlaintextJson prim) :
    round prim resolver secrets st = .ok (.plaintext { m with typ := some plaintextTyp }) :=
  round_readBack (hlawful.message _ (hwritable.withTyp _)) hvalid hunmarked hcurrent

end Didcomm
