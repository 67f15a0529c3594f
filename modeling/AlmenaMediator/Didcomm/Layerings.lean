import AlmenaMediator.Didcomm.RoundTrip

/-!
# Accepted layerings

A nesting is a text that is envelope after envelope down to a plaintext, where each envelope by
itself is well formed, opens with the secrets held and agrees with the plaintext. Which of them
unpacking accepts depends on the kinds of envelope alone: it accepts eight layerings, and no loop
makes more than four rounds.

## Main results

* `Wraps.round`, `Wraps.refused`: one envelope, where the layering admits it and where not;
* `Nesting.unpackLoop_isOk_iff`: the loop gets to the plaintext of the nestings that are admitted;
* `layerings_accepted`: the nestings that `unpack` accepts, and the rounds of its loop.
-/

namespace Didcomm

variable {prim : Primitives} {resolver : Resolver} {secrets : Secrets} {message : Message}

/-! ## Nestings -/

/-- The key that an encrypted envelope is decrypted with besides ours: none if it is anonymous, else
the `keyAgreement` key of the plaintext's sender. -/
inductive SenderOf (resolver : Resolver) (message : Message) (header : JweProtectedHeader) :
    Option PublicKey → Prop
  | anonymous (halg : header.alg = .ecdhEsA256Kw) : SenderOf resolver message header none
  | authenticated {skid : String} {doc : DidDocument} {key : PublicKey}
      (halg : header.alg = .ecdh1PuA256Kw) (hskid : header.senderKid = .ok (some skid))
      (hdoc : resolver (didOf skid) = .ok doc) (hkey : doc.keyAgreementKey skid = .ok key)
      (hfrom : message.from_ = some (didOf skid)) : SenderOf resolver message header (some key)

/-- `text` is a well-formed envelope around `inner`, opens with the secrets held and agrees with the
plaintext `message`. -/
inductive Wraps (prim : Primitives) (resolver : Resolver) (secrets : Secrets) (message : Message) :
    Layer → String → String → Prop
  | encrypted {text inner kid : String} {members : List (String × Value)} {jwe : Jwe}
      {header : JweProtectedHeader} {key : SecretKey}
        {sender : Option PublicKey} {plaintext : Bytes}
      (hread : prim.value.fromStr text = .ok (.object members))
      (hciphertext : Value.containsKey "ciphertext" members)
      (hparse : Jwe.parse prim text = .ok jwe) (hheader : jwe.protectedHeader prim = .ok header)
      (htyp : checkTyp header.typ encryptedTyp = .ok ())
      (hkey : findDecryptionKey secrets jwe = .ok (kid, key))
      (hsender : SenderOf resolver message header sender)
      (hdecrypt : jwe.decrypt prim kid key sender = .ok plaintext)
      (hinner : fromUtf8 plaintext = some inner)
      (hto : ∀ dids, message.to_ = some dids → didOf kid ∈ dids) :
      Wraps prim resolver secrets message header.alg.layer text inner
  | signed {text inner kid : String} {members : List (String × Value)} {jws : Jws}
      {header : JwsProtectedHeader} {doc : DidDocument} {key : PublicKey} {payload : Bytes}
      (hread : prim.value.fromStr text = .ok (.object members))
      (hciphertext : Value.containsKey "ciphertext" members = false)
      (hpayload : Value.containsKey "payload" members)
      (hparse : Jws.parse prim text = .ok jws) (hheader : jws.protectedHeader prim = .ok header)
      (htyp : checkTyp header.typ signedTyp = .ok ()) (hkid : jws.signerKid prim = .ok kid)
      (hdoc : resolver (didOf kid) = .ok doc) (hkey : doc.authenticationKey kid = .ok key)
      (hverify : jws.verify prim key = .ok payload) (hinner : fromUtf8 payload = some inner)
      (hfrom : message.from_ = some (didOf kid)) :
      Wraps prim resolver secrets message .signed text inner

/-- `text` is envelopes of these kinds, outermost first, around the plaintext `message`, which is
valid and whose `from_prior`, if it has one, can be verified. -/
inductive Nesting (prim : Primitives) (resolver : Resolver) (secrets : Secrets)
    (message : Message) : String → List Layer → Prop
  | plaintext {text : String} {members : List (String × Value)}
      (hread : prim.value.fromStr text = .ok (.object members))
      (hciphertext : Value.containsKey "ciphertext" members = false)
      (hpayload : Value.containsKey "payload" members = false)
      (hmessage : prim.messageOf (.object members) = .ok message)
      (hvalid : message.validate = .ok ())
      (hprior : ∀ metadata, ∃ metadata', checkFromPrior prim resolver message
        metadata = .ok metadata') :
      Nesting prim resolver secrets message text []
  | wrap {layer : Layer} {text inner : String} {layers : List Layer}
      (hwraps : Wraps prim resolver secrets message layer text inner)
      (hinner : Nesting prim resolver secrets message inner layers) :
      Nesting prim resolver secrets message text (layer :: layers)

/-! ## Layerings -/

/-- Whether an envelope may come inside `layers`: what the guards of the loop say of it. -/
def Layer.mayFollow (layers : List Layer) : Layer → Bool
  | .signed => !layers.contains .signed
  | layer => layer.allowedIn layers

/-- Whether each envelope may come inside those around it. -/
def admitted (layers : List Layer) : List Layer → Bool
  | [] => true
  | layer :: inner => layer.mayFollow layers && admitted (layers ++ [layer]) inner

/-- The layerings accepted, outermost first. -/
def acceptedLayerings : List (List Layer) :=
  [[], [.signed], [.anoncrypt], [.authcrypt], [.anoncrypt, .signed], [.authcrypt, .signed],
    [.anoncrypt, .authcrypt], [.anoncrypt, .authcrypt, .signed]]

/-- An envelope that may come next leaves fewer to come. -/
theorem Layer.remaining_lt {layers : List Layer} {layer : Layer} (hmay : layer.mayFollow layers) :
    remaining (layers ++ [layer]) < remaining layers := by
  -- a layer may follow only where its own count of layers to come goes down
  cases layer with
  | anoncrypt =>
    obtain rfl := List.isEmpty_iff.mp hmay
    decide
  | authcrypt =>
    rcases Bool.or_eq_true_iff.mp hmay with hempty | hinside
    · obtain rfl := List.isEmpty_iff.mp hempty
      decide
    · obtain rfl := beq_iff_eq.mp hinside
      decide
  | signed =>
    have hunsigned : layers.contains .signed = false := by simpa [mayFollow] using hmay
    have hlast : remaining (layers ++ [.signed]) = 0 := by simp [remaining]
    rw [hlast, remaining, if_neg (by rw [hunsigned]; exact Bool.false_ne_true)]
    split_ifs <;> decide

/-- Envelopes that may come inside `layers` are no more than remain. -/
theorem length_le_remaining {layers inner : List Layer} (h : admitted layers inner) :
    inner.length ≤ remaining layers := by
  induction inner generalizing layers with
  | nil => exact Nat.zero_le _
  | cons layer inner ih =>
    obtain ⟨hmay, hinner⟩ := Bool.and_eq_true_iff.mp h
    have hlength := ih hinner
    have hfewer := Layer.remaining_lt hmay
    rw [List.length_cons]
    omega

/-- The guards of the loop admit the accepted layerings. -/
theorem admitted_iff {layers : List Layer} : admitted [] layers ↔ layers ∈ acceptedLayerings := by
  constructor
  · intro h
    have hlength : layers.length ≤ 3 := length_le_remaining h
    match layers with
    | [] => decide
    | [a] => cases a <;> decide
    | [a, b] => revert h; cases a <;> cases b <;> decide
    | [a, b, c] => revert h; cases a <;> cases b <;> cases c <;> decide
    | a :: b :: c :: d :: rest =>
      simp only [List.length_cons] at hlength
      omega
  · intro h
    have hadmitted : ∀ layers ∈ acceptedLayerings, admitted [] layers = true := by decide
    exact hadmitted layers h

/-! ## The loop -/

/-- What the loop has noted agrees with the plaintext. -/
structure Agrees (message : Message) (st : Peel) : Prop where
  encryptedFrom : ∀ skid, st.metadata.encryptedFromKid = some skid →
    message.from_ = some (didOf skid)
  signFrom : ∀ signer, st.metadata.signFrom = some signer → message.from_ = some (didOf signer)
  recipients : ∀ dids, message.to_ = some dids → ∀ did ∈ st.recipientDids, did ∈ dids

/-- The key that goes with an encrypted envelope is found, and what it adds to the metadata agrees
with the plaintext. -/
theorem SenderOf.layerSender {header : JweProtectedHeader} {sender : Option PublicKey}
    (hsender : SenderOf resolver message header sender) (metadata : UnpackMetadata) :
    ∃ metadata', layerSender resolver header metadata = .ok (sender, metadata') ∧
      metadata'.signFrom = metadata.signFrom ∧
      (metadata'.encryptedFromKid = metadata.encryptedFromKid ∨
        ∃ skid, metadata'.encryptedFromKid = some skid ∧ message.from_ = some (didOf skid)) := by
  cases hsender with
  | anonymous halg =>
    refine ⟨{ metadata with encAlgAnon := some header.enc }, ?_, rfl, .inl rfl⟩
    rw [Didcomm.layerSender, halg]
    rfl
  | @authenticated skid doc key halg hskid hdoc hkey hfrom =>
    refine ⟨{ metadata with authenticated := true, encryptedFromKid := some skid,
                            encAlgAuth := some header.enc }, ?_, rfl, .inr ⟨skid, rfl, hfrom⟩⟩
    rw [Didcomm.layerSender, halg]
    refine bind_eq_ok.mpr ⟨_, hskid, bind_eq_ok.mpr ⟨skid, rfl, ?_⟩⟩
    exact bind_eq_ok.mpr ⟨doc, hdoc, bind_eq_ok.mpr ⟨key, hkey, rfl⟩⟩

/-- The guard on encrypted envelopes. -/
theorem Layer.mayFollow_layer (alg : KeyWrap) (layers : List Layer) :
    alg.layer.mayFollow layers = alg.layer.allowedIn layers := by
  cases alg <;> rfl

/-- An envelope that may come next is opened. -/
theorem Wraps.opened {layer : Layer} {text inner : String} {st : Peel}
    (hwraps : Wraps prim resolver secrets message layer text inner) (hcurrent : st.current = text)
    (hmay : layer.mayFollow st.layers) (hagrees : Agrees message st) :
    ∃ st', round prim resolver secrets st = .ok (.peeled st') ∧ st'.current = inner ∧
      st'.layers = st.layers ++ [layer] ∧ Agrees message st' := by
  subst hcurrent
  cases hwraps with
  | @encrypted _ _ kid members jwe header key sender plaintext hread hciphertext
      hparse hheader htyp hkey hsender hdecrypt hinner hto =>
    obtain ⟨metadata, hlayerSender, hsignFrom, hfrom⟩ := hsender.layerSender st.metadata
    rw [Layer.mayFollow_layer] at hmay
    -- every check of `openJwe` passes by what the layer was made of
    have hopen : openJwe prim resolver secrets st = .ok
        { current := inner
          metadata := { metadata with
            encrypted := true, encryptedToKids := jwe.recipientKids, decryptedByKid := some kid }
          layers := st.layers ++ [header.alg.layer]
          recipientDids := st.recipientDids ++ [didOf kid] } := by
      refine bind_eq_ok.mpr ⟨jwe, hparse, bind_eq_ok.mpr ⟨header, hheader, ?_⟩⟩
      refine bind_eq_ok.mpr ⟨(), htyp, guard_eq_ok.mpr ⟨by simp [hmay], ?_⟩⟩
      refine bind_eq_ok.mpr ⟨_, hkey, bind_eq_ok.mpr ⟨_, hlayerSender, ?_⟩⟩
      exact bind_eq_ok.mpr ⟨plaintext, hdecrypt, bind_eq_ok.mpr ⟨inner, okOr_eq_ok.mpr hinner, rfl⟩⟩
    refine ⟨_, round_carries ⟨⟨members, hread, hciphertext⟩, hparse⟩ hopen, rfl, rfl, ?_⟩
    constructor
    -- a JWE names its sender only when it is an authcrypt
    · intro skid hskid
      rcases hfrom with hsame | ⟨skid', hskid', hfrom⟩
      · exact hagrees.encryptedFrom skid (hsame ▸ hskid)
      · obtain rfl := Option.some.inj (hskid'.symm.trans hskid)
        exact hfrom
    · intro signer hsigner
      exact hagrees.signFrom signer (hsignFrom ▸ hsigner)
    · intro dids hdids did hdid
      rcases List.mem_append.mp hdid with hdid | hdid
      · exact hagrees.recipients dids hdids did hdid
      · obtain rfl := List.mem_singleton.mp hdid
        exact hto dids hdids
  | @signed _ _ kid members jws header doc key payload hread hciphertext hpayload
      hparse hheader htyp hkid hdoc hkey hverify hinner hfrom =>
    -- a signature is named in the metadata, and adds no recipient
    let opened : Peel :=
      { current := inner
        metadata := { st.metadata with
          nonRepudiation := true, signedMessage := some st.current, signFrom := some kid }
        layers := st.layers ++ [.signed]
        recipientDids := st.recipientDids }
    have hopen : openJws prim resolver st = .ok opened := by
      refine guard_eq_ok.mpr ⟨by simpa [Layer.mayFollow] using hmay, ?_⟩
      refine bind_eq_ok.mpr ⟨jws, hparse, bind_eq_ok.mpr ⟨header, hheader, ?_⟩⟩
      refine bind_eq_ok.mpr ⟨(), htyp, bind_eq_ok.mpr ⟨kid, hkid, bind_eq_ok.mpr ⟨doc, hdoc, ?_⟩⟩⟩
      refine bind_eq_ok.mpr ⟨key, hkey, bind_eq_ok.mpr ⟨payload, hverify, ?_⟩⟩
      exact bind_eq_ok.mpr ⟨inner, okOr_eq_ok.mpr hinner, rfl⟩
    refine ⟨opened, ?_, rfl, rfl, ⟨hagrees.encryptedFrom, ?_, hagrees.recipients⟩⟩
    · rw [Didcomm.round]
      refine bind_eq_ok.mpr ⟨_, ofJson_eq_ok.mpr hread, bind_eq_ok.mpr ⟨members, rfl, ?_⟩⟩
      rw [if_neg (by simp [hciphertext]), if_pos hpayload, hopen]
      rfl
    · intro signer hsigner
      obtain rfl := Option.some.inj hsigner
      exact hfrom

/-- An envelope that may not come next is refused. -/
theorem Wraps.refused {layer : Layer} {text inner : String} {st : Peel}
    (hwraps : Wraps prim resolver secrets message layer text inner) (hcurrent : st.current = text)
    (hmay : layer.mayFollow st.layers = false) :
    ∃ e, Didcomm.round prim resolver secrets st = .error e := by
  subst hcurrent
  -- the check of the layering comes before any key is used
  cases hwraps with
  | encrypted hread hciphertext hparse hheader htyp hkey hsender hdecrypt hinner hto =>
    rw [Layer.mayFollow_layer] at hmay
    refine ⟨.malformed "unsupported envelope layering", ?_⟩
    simp only [Didcomm.round, hread, ofJson, Value.asObject, okOr, bind, Except.bind, hciphertext,
      ↓reduceIte, openJwe, hparse, hheader, htyp, hmay, Bool.not_false]
    rfl
  | signed hread hciphertext hpayload hparse hheader htyp hkid hdoc hkey hverify hinner hfrom =>
    have hsigned : st.layers.contains .signed = true := by simpa [Layer.mayFollow] using hmay
    refine ⟨.malformed "nested signatures", ?_⟩
    simp only [Didcomm.round, hread, ofJson, Value.asObject, okOr, bind, Except.bind, hciphertext,
      Bool.false_eq_true, hpayload, ↓reduceIte, openJws, hsigned]
    rfl

/-- The loop gets to the plaintext of a nesting where the layering is admitted. -/
theorem Nesting.unpackLoop_isOk_iff {text : String} {layers : List Layer}
    (hnesting : Nesting prim resolver secrets message text layers) {st : Peel}
    (hcurrent : st.current = text) (hagrees : Agrees message st) :
    (admitted st.layers layers → ∃ st',
      unpackLoop prim resolver secrets st = .ok (message, st') ∧ Agrees message st') ∧
    (admitted st.layers layers = false → ∃ e, unpackLoop prim resolver secrets st = .error e) := by
  -- from the outermost layer inwards, with the layers opened before as the accumulator
  induction hnesting generalizing st with
  | plaintext hread hciphertext hpayload hmessage hvalid hprior =>
    subst hcurrent
    have hround : Didcomm.round prim resolver secrets st = .ok (.plaintext message) := by
      rw [Didcomm.round]
      refine bind_eq_ok.mpr ⟨_, ofJson_eq_ok.mpr hread, bind_eq_ok.mpr ⟨_, rfl, ?_⟩⟩
      have hplain : readPlaintext prim _ = .ok message :=
        bind_eq_ok.mpr ⟨message, ofJson_eq_ok.mpr hmessage, bind_eq_ok.mpr ⟨(), hvalid, rfl⟩⟩
      rw [if_neg (by simp [hciphertext]), if_neg (by simp [hpayload]), hplain]
      rfl
    exact ⟨fun _ => ⟨st, unpackLoop_plaintext hround, hagrees⟩, fun h =>
      absurd h (by simp [admitted])⟩
  | @wrap layer text inner layers hwraps hinner ih =>
    cases hmay : layer.mayFollow st.layers with
    | true =>
      obtain ⟨st', hround, hcurrent', hlayers, hagrees'⟩ := hwraps.opened hcurrent hmay hagrees
      have hrest := ih hcurrent' hagrees'
      rw [unpackLoop_peeled hround, admitted, hmay, Bool.true_and, ← hlayers]
      exact hrest
    -- the layer may not follow the ones before it, and the loop ends in an error
    | false =>
      obtain ⟨e, hround⟩ := hwraps.refused hcurrent hmay
      have hloop : unpackLoop prim resolver secrets st = .error e := by
        rw [unpackLoop]
        split <;> simp_all
      rw [admitted, hmay]
      exact ⟨fun h => absurd h (by simp), fun _ => ⟨e, hloop⟩⟩

/-- The rounds that the loop makes. -/
def roundCount (prim : Primitives) (resolver : Resolver) (secrets : Secrets) (st : Peel) : ℕ :=
  match _h : Didcomm.round prim resolver secrets st with
  | .ok (.peeled next) => roundCount prim resolver secrets next + 1
  | _ => 1
termination_by remaining st.layers
decreasing_by exact round_remaining ‹_›

/-- Every round but the last opens an envelope that the ones before it left room for. -/
theorem roundCount_le (st : Peel) :
    roundCount prim resolver secrets st ≤ remaining st.layers + 1 := by
  fun_induction roundCount prim resolver secrets st with
  | case1 st next hround ih =>
    have hfewer := round_remaining hround
    omega
  | case2 st => omega

/-- A DID rotation of the plaintext is verified. -/
theorem Nesting.rotation {packed : String} {layers : List Layer}
    (hnesting : Nesting prim resolver secrets message packed layers) (metadata : UnpackMetadata) :
    ∃ metadata', checkFromPrior prim resolver message metadata = .ok metadata' := by
  induction hnesting with
  | plaintext _ _ _ _ _ hprior => exact hprior metadata
  | wrap _ _ ih => exact ih

/-- What signing makes is a well-formed envelope. -/
theorem wraps_sign (hlawful : prim.Lawful) {inner kid : String} {key : SecretKey} {jws : Jws}
    (h : Jws.sign prim (utf8 inner) kid key = .ok jws) {doc : DidDocument}
    (hdoc : resolver (didOf kid) = .ok doc)
    (hkey : doc.authenticationKey kid = .ok (key.publicKey prim))
    (hfrom : message.from_ = some (didOf kid)) :
    Wraps prim resolver secrets message .signed (jws.toJson prim) inner := by
  obtain ⟨members, hread, hciphertext, hpayload, hinput⟩ := hlawful.jws jws
  obtain ⟨header, signature, hmade⟩ := Jws.sign_eq_ok h
  obtain ⟨hheader, htyp⟩ := hmade.protectedHeader hlawful
  exact .signed hread hciphertext hpayload (bind_eq_ok.mpr ⟨_,
    ofJson_eq_ok.mpr hinput, rfl⟩) hheader htyp
    (hmade.signerKid hlawful) hdoc hkey (hmade.verify hlawful) (fromUtf8_utf8 inner) hfrom

/-- A signed ping, and one that is signed twice. -/
theorem Transparent.nesting_ping : ∃ once twice,
    Nesting packages parties bob { ping with typ := some plaintextTyp } once [.signed] ∧
    Nesting packages parties bob { ping with typ := some plaintextTyp } twice
      [.signed, .signed] := by
  obtain ⟨members, hread, hmessage, hciphertext, hpayload⟩ := Message.ReadBack.isPlain
    (lawful.message _ (writable_ping.withTyp (some plaintextTyp))) nofun
  have hplain : Nesting packages parties bob { ping with typ := some plaintextTyp }
      (ping.toPlaintextJson packages) [] :=
    .plaintext hread hciphertext hpayload hmessage rfl fun metadata => ⟨metadata, rfl⟩
  have hsign : ∀ inner, ∃ jws, Jws.sign packages (utf8 inner) "did:example:alice#s"
    Loopback.signingSecret = .ok jws := fun inner => ⟨_, rfl⟩
  -- any text can be signed, a signed message too
  have hwraps : ∀ inner, ∃ text, Wraps packages parties bob { ping with typ := some plaintextTyp }
      .signed text inner := by
    intro inner
    obtain ⟨jws, hjws⟩ := hsign inner
    exact ⟨_, wraps_sign lawful hjws rfl rfl rfl⟩
  obtain ⟨once, honce⟩ := hwraps (ping.toPlaintextJson packages)
  obtain ⟨twice, htwice⟩ := hwraps once
  exact ⟨once, twice, .wrap honce hplain, .wrap htwice (.wrap honce hplain)⟩

/-- A nesting is accepted exactly where its layering is one of the eight, and no message takes more
than four rounds. -/
theorem layerings_accepted :
    (∀ message packed layers, Nesting prim resolver secrets message packed layers →
      ((∃ opened, unpack prim resolver secrets packed = .ok opened) ↔ layers ∈ acceptedLayerings)) ∧
    ∀ packed, roundCount prim resolver secrets ⟨packed, .default, [], []⟩ ≤ 4 := by
  constructor
  · intro message packed layers hnesting
    have hagrees : Agrees message ⟨packed, .default, [], []⟩ := ⟨nofun, nofun, fun _ _ _ => nofun⟩
    obtain ⟨haccepted, hrefused⟩ := hnesting.unpackLoop_isOk_iff rfl hagrees
    rw [← admitted_iff]
    constructor
    -- a layering that is not admitted makes the loop fail
    · rintro ⟨opened, hopened⟩
      obtain ⟨st, hloop, -⟩ := bind_eq_ok.mp hopened
      by_contra hadmitted
      obtain ⟨e, herror⟩ := hrefused (by simpa using hadmitted)
      rw [herror] at hloop
      nomatch hloop
    · intro hadmitted
      obtain ⟨st, hloop, hst⟩ := haccepted hadmitted
      -- the checks after the loop hold of what the layers say
      have hconsistent := checkConsistency_eq_ok.mpr ⟨hst.encryptedFrom,
        hst.signFrom, hst.recipients⟩
      obtain ⟨metadata, hprior⟩ := hnesting.rotation
        { st.metadata with anonymousSender := st.metadata.encrypted && !st.metadata.authenticated }
      exact ⟨(message, metadata), bind_eq_ok.mpr ⟨_, hloop, bind_eq_ok.mpr ⟨(), hconsistent,
        bind_eq_ok.mpr ⟨metadata, hprior, rfl⟩⟩⟩⟩
  · exact fun packed => roundCount_le _

/-- One signature is accepted, and a signature around it is not. -/
theorem layerings_accepted_signed : ∃ once twice,
    (∃ opened, unpack Transparent.packages Transparent.parties Transparent.bob once = .ok opened) ∧
    ¬ ∃ opened, unpack Transparent.packages Transparent.parties
      Transparent.bob twice = .ok opened := by
  obtain ⟨once, twice, honce, htwice⟩ := Transparent.nesting_ping
  have haccepted := @layerings_accepted Transparent.packages Transparent.parties Transparent.bob
  refine ⟨once, twice, (haccepted.1 _ _ _ honce).mpr (by decide), fun htwo => ?_⟩
  exact absurd ((haccepted.1 _ _ _ htwice).mp htwo) (by decide)

end Didcomm
