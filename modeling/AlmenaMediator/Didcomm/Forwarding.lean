import AlmenaMediator.Didcomm.RoundTrip

/-!
# What forwarding does to a message

With `forward`, `pack_encrypted` makes the same envelope as without it and wraps it for the hops
(`packEncrypted_forward`). A hop passes the envelope on as JSON that was read and written again,
which unpacks to the same as the envelope itself (`unpack_carries`). The hop's own layer opens as
the `forward` that was wrapped (`unpack_wrapForHop`).
-/

namespace Didcomm

variable {prim : Primitives} {resolver : Resolver} {secrets : Secrets} {m : Message}

/-! ## An envelope and what carries it -/

/-- An object with a ciphertext is opened as an encrypted envelope, or fails to open as one. -/
theorem round_eq {jwe : Jwe} {st : Peel} (hcarries : Carries prim st.current jwe) :
    round prim resolver secrets st = Round.peeled <$> openJwe prim resolver secrets st := by
  obtain ⟨members, hread, hciphertext⟩ := hcarries.object
  rw [round, ofJson_eq_ok.mpr hread]
  change (if Value.containsKey "ciphertext" members = true then _ else _) = _
  rw [if_pos hciphertext]

/-- Where a round fails the loop fails with the same error. -/
theorem unpackLoop_error {st : Peel} {e : Error} (h : round prim resolver secrets st = .error e) :
    unpackLoop prim resolver secrets st = .error e := by
  rw [unpackLoop]
  split <;> simp_all

/-- Texts that carry the same envelope unpack to the same. -/
theorem unpack_carries {jwe : Jwe} {text text' : String} (hcarries : Carries prim text jwe)
    (hcarries' : Carries prim text' jwe) :
    unpack prim resolver secrets text = unpack prim resolver secrets text' := by
  -- opening reads the text through the JWE only
  have hopen : openJwe prim resolver secrets ⟨text, .default, [], []⟩ =
      openJwe prim resolver secrets ⟨text', .default, [], []⟩ := by
    simp only [openJwe, hcarries.parsed, hcarries'.parsed]
  have hround : round prim resolver secrets ⟨text, .default, [], []⟩ = Round.peeled <$> _ :=
    round_eq hcarries
  have hround' : round prim resolver secrets ⟨text', .default, [], []⟩ = Round.peeled <$> _ :=
    round_eq hcarries'
  have hloop : unpackLoop prim resolver secrets ⟨text, .default, [], []⟩ =
      unpackLoop prim resolver secrets ⟨text', .default, [], []⟩ := by
    rw [hopen] at hround
    cases hresult : openJwe prim resolver secrets ⟨text', .default, [], []⟩ with
    | error e =>
      rw [hresult] at hround hround'
      exact (unpackLoop_error hround).trans (unpackLoop_error hround').symm
    | ok st =>
      rw [hresult] at hround hround'
      exact (unpackLoop_peeled hround).trans (unpackLoop_peeled hround').symm
  rw [unpack, unpack, hloop]

/-! ## What packing makes -/

/-- What encryption makes is an envelope. -/
theorem encryptPayload_eq_toJson {supply : Supply} {payload message : String}
    {from_ fromKid : Option String} {recipientKeys : List Recipient} {toKids : List String}
    {options : PackOptions}
    (h : Message.encryptPayload prim resolver secrets supply payload from_ recipientKeys options =
      .ok (message, fromKid, toKids)) : ∃ jwe, message = Jwe.toJson prim jwe := by
  cases from_ with
  | none =>
    obtain ⟨jwe, -, h⟩ := bind_eq_ok.mp h
    exact ⟨jwe, (Prod.mk.inj (pure_eq_ok.mp h)).1.symm⟩
  | some from_ =>
    obtain ⟨senderDoc, -, h⟩ := bind_eq_ok.mp h
    obtain ⟨⟨sender, recipients⟩, -, h⟩ := bind_eq_ok.mp h
    obtain ⟨jwe, -, h⟩ := bind_eq_ok.mp h
    dsimp only at h
    -- the outermost envelope is the anoncrypt that hides the sender, if there is one
    split_ifs at h with hprotect
    · obtain ⟨envelope, -, h⟩ := bind_eq_ok.mp h
      exact ⟨envelope, (Prod.mk.inj (pure_eq_ok.mp h)).1.symm⟩
    · exact ⟨jwe, (Prod.mk.inj (pure_eq_ok.mp h)).1.symm⟩

/-- With `forward`, what is packed is what is packed without it, wrapped for the recipient's
hops. -/
theorem packEncrypted_forward {supply : Supply} {to_ : String} {from_ signBy : Option String}
    {options : PackOptions} (hforward : options.forward = true) {p : PackedMessage}
    (h : m.packEncrypted prim resolver secrets supply to_ from_ signBy options = .ok p) :
    ∃ direct jwe routed,
      m.packEncrypted prim resolver secrets supply to_ from_ signBy
        { options with forward := false } = .ok direct ∧
      direct.message = Jwe.toJson prim jwe ∧
      route prim resolver (Message.restOf supply) direct.message to_
        options.anoncryptEnc = .ok routed ∧
      p.message = routed.message ∧ p.serviceUri = routed.serviceUri := by
  obtain ⟨⟨⟩, hvalid, h⟩ := bind_eq_ok.mp h
  obtain ⟨hfrom, h⟩ := guard_eq_ok.mp h
  obtain ⟨hto, h⟩ := guard_eq_ok.mp h
  obtain ⟨⟨payload, signByKid⟩, hpayload, h⟩ := bind_eq_ok.mp h
  obtain ⟨doc, hdoc, h⟩ := bind_eq_ok.mp h
  obtain ⟨recipientKeys, hrecipientKeys, h⟩ := bind_eq_ok.mp h
  obtain ⟨⟨message, fromKid, toKids⟩, hencrypted, h⟩ := bind_eq_ok.mp h
  -- only here does the `forward` option matter
  simp only [hforward, ↓reduceIte] at h
  obtain ⟨routed, hrouted, h⟩ := bind_eq_ok.mp h
  obtain rfl := pure_eq_ok.mp h
  obtain ⟨jwe, hjwe⟩ := encryptPayload_eq_toJson hencrypted
  refine ⟨⟨message, fromKid, signByKid, toKids, none, false⟩, jwe, routed, ?_,
    hjwe, hrouted, rfl, rfl⟩
  refine bind_eq_ok.mpr ⟨(), hvalid, guard_eq_ok.mpr ⟨hfrom, guard_eq_ok.mpr ⟨hto, ?_⟩⟩⟩
  -- without it the same steps are taken up to the envelope
  refine bind_eq_ok.mpr ⟨_, hpayload, bind_eq_ok.mpr ⟨doc, hdoc,
    bind_eq_ok.mpr ⟨_, hrecipientKeys, ?_⟩⟩⟩
  refine bind_eq_ok.mpr ⟨(message, fromKid, toKids), ?_, rfl⟩
  rw [← hencrypted]
  rfl

/-! ## What a hop opens -/

/-- A hop opens what was wrapped for it as the `forward` that was wrapped, from nobody. -/
theorem unpack_wrapForHop (resolver' : Resolver) (hlawful : prim.Lawful) {supply : Supply}
    (hsupply : supply.Sound) {enc : ContentEncryption} {i : ℕ} {hop next inner text : String}
    {members : List (String × Value)} {doc : DidDocument} (hdid : startsWith hop "did:")
    (hdoc : resolver (didOf hop) = .ok doc)
    (hown : ∀ keys, keyAgreementKeys doc hop = .ok keys → ∀ r ∈ keys, didOf r.kid = didOf hop)
    (hread : prim.value.fromStr inner = .ok (.object members))
    (hwrap : wrapForHop prim resolver supply enc i hop next inner = .ok text)
    (hholds : ∀ jwe, Jwe.parse prim text = .ok jwe → HoldsSome prim secrets doc jwe) :
    ∃ metadata, unpack prim resolver' secrets text =
        .ok ({ forwardMessage supply i hop next (.object members) with typ := some plaintextTyp },
          metadata) ∧
      metadata.encrypted = true ∧ metadata.authenticated = false := by
  obtain ⟨envelope, henvelope, hwrap⟩ := bind_eq_ok.mp hwrap
  obtain rfl : Value.object members = envelope :=
    Except.ok.inj (hread.symm.trans (ofJson_eq_ok.mp henvelope))
  obtain ⟨doc', hdoc', hwrap⟩ := bind_eq_ok.mp hwrap
  obtain rfl : doc = doc' := Except.ok.inj (hdoc.symm.trans hdoc')
  obtain ⟨keys, hkeys, hwrap⟩ := bind_eq_ok.mp hwrap
  obtain ⟨jwe, hjwe, hwrap⟩ := bind_eq_ok.mp hwrap
  obtain rfl := pure_eq_ok.mp hwrap
  have hlisted := (keyAgreementKeys_eq_ok hkeys).2
  have hmem : ∀ r ∈ onFirstCurve keys, r ∈ keys := fun r hr => List.mem_of_mem_filter hr
  have hkids : ∀ r ∈ onFirstCurve keys, ∀ r' ∈ onFirstCurve keys,
    r.kid = r'.kid → r.key = r'.key := by
    intro r hr r' hr' hkid
    have hkey := hlisted r (hmem r hr)
    rw [hkid, hlisted r' (hmem r' hr')] at hkey
    exact (Except.ok.inj hkey).symm
  obtain ⟨draw, ephemeral, ciphertext, tag, hsealed⟩ := Jwe.encrypt_eq_ok hjwe
  have hunlocks := (hholds jwe (carries_toJson hlawful jwe).parsed).unlocks hsealed.recipientKids
    fun r hr => hlisted r (hmem r hr)
  -- the layer opens, and inside it is the plaintext
  obtain ⟨st, hst⟩ : ∃ st, Reaches prim resolver' secrets (jwe.toJson prim)
      ((forwardMessage supply i hop next (.object members)).toPlaintextJson prim) none
      ((onFirstCurve keys).map (·.kid)) st :=
    reaches_encrypt hlawful hjwe (by rintro ⟨⟩) hkids hunlocks (by rintro _ ⟨⟩)
  have hplain : round prim resolver' secrets st = .ok (.plaintext
      { forwardMessage supply i hop next (.object members) with typ := some plaintextTyp }) :=
    round_toPlaintextJson hlawful (writable_forwardMessage hlawful hsupply
      (hlawful.value_read hread))
      (validate_forwardMessage hsupply hdid) (by rintro _ ⟨⟩) hst.current
  have hconsistent : checkConsistency
      { forwardMessage supply i hop next (.object members) with typ := some plaintextTyp }
      { st.metadata with anonymousSender := st.metadata.encrypted && !st.metadata.authenticated }
      st.recipientDids = .ok () := by
    rw [checkConsistency_eq_ok]
    refine ⟨fun skid hskid => ?_, fun signer hsigned => ?_, fun dids hdids did hdid' => ?_⟩
    · cases hst.encryptedFromKid.symm.trans hskid
    · cases hst.unsigned.2.2.symm.trans hsigned
    · obtain rfl : [didOf hop] = dids := Option.some.inj hdids
      obtain ⟨kid, hkid, rfl⟩ := hst.recipientDids did hdid'
      obtain ⟨r, hr, rfl⟩ := List.mem_map.mp hkid
      exact List.mem_singleton.mpr (hown keys hkeys r (hmem r hr))
  refine ⟨{ st.metadata with anonymousSender := st.metadata.encrypted &&
    !st.metadata.authenticated }, bind_eq_ok.mpr ⟨_, hst.opens.trans (unpackLoop_plaintext hplain),
      ?_⟩, hst.encrypted, hst.authenticated⟩
  exact bind_eq_ok.mpr ⟨(), hconsistent, rfl⟩

end Didcomm
