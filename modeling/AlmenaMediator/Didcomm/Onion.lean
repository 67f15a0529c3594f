import AlmenaMediator.Didcomm.Loopback
import AlmenaMediator.Didcomm.Transparent

/-!
# Onion routing

What `route` makes of a packed message for a recipient behind mediators. `Destination` says from the
DID documents alone where the message goes and over which hops, and `OpensAlong` what it means that
the hops open the result one after the other, each with any of its secrets that the envelope names.

The induction is over the hops: the envelope of the first hop goes around what the other hops open.

## Main results

* `firstDidcommEndpoint_eq`, `routePlan_eq`: `route` finds the destination the documents give;
* `wrapForHop_opens`: the hop that a message was wrapped for gets it back, and where it goes next;
* `route_opens`: every hop of a route opens its layer, in order, and the last one gets the packed
  message.
-/

namespace Didcomm

variable {prim : Primitives} {resolver : Resolver} {secrets : Secrets} {supply : Supply}
  {enc : ContentEncryption}

/-! ## Destinations -/

/-- An endpoint takes DIDComm v2 messages: it names no profiles, or this one. -/
def DidCommEndpoint.AcceptsV2 (endpoint : DidCommEndpoint) : Prop :=
  endpoint.accept = [] ∨ "didcomm/v2" ∈ endpoint.accept

/-- The first endpoint of a document that takes DIDComm v2 messages. The services up to it can be
read. -/
structure FirstEndpoint (doc : DidDocument) (endpoint : DidCommEndpoint) : Prop where
  accepts : endpoint.AcceptsV2
  first : ∃ before service after, doc.didcommServices = before ++ service :: after ∧
    (∀ s ∈ before, ∃ endpoints, s.didcommEndpoints = .ok endpoints ∧
      ∀ e ∈ endpoints, ¬ e.AcceptsV2) ∧
    ∃ earlier later, service.didcommEndpoints = .ok (earlier ++ endpoint :: later) ∧
      ∀ e ∈ earlier, ¬ e.AcceptsV2

/-- Where a message to `to_` goes, and the hops it passes: those of the endpoint, after its mediator
if the endpoint is a DID. -/
inductive Destination (resolver : Resolver)
    (to_ : String) : (uri : String) → (hops : List String) → Prop
  | direct {doc endpoint} (hdoc : resolver (didOf to_) = .ok doc)
      (hfirst : FirstEndpoint doc endpoint) (huri : startsWith endpoint.uri "did:" = false) :
      Destination resolver to_ endpoint.uri endpoint.routingKeys
  | mediated {doc endpoint mediator mediatorEndpoint} (hdoc : resolver (didOf to_) = .ok doc)
      (hfirst : FirstEndpoint doc endpoint) (huri : startsWith endpoint.uri "did:" = true)
      (hmediator : resolver endpoint.uri = .ok mediator)
      (hmediatorFirst : FirstEndpoint mediator mediatorEndpoint)
      (htransport : startsWith mediatorEndpoint.uri "did:" = false) :
      Destination resolver to_ mediatorEndpoint.uri (mediator.id :: endpoint.routingKeys)

/-- An endpoint is taken exactly when it accepts DIDComm v2 or does not say what it accepts. -/
theorem acceptsV2_iff {endpoint : DidCommEndpoint} :
    (endpoint.accept.isEmpty || endpoint.accept.contains "didcomm/v2") =
      true ↔ endpoint.AcceptsV2 := by
  simp [DidCommEndpoint.AcceptsV2, List.isEmpty_iff]

/-- Services without an endpoint that accepts DIDComm v2 are passed over. -/
theorem firstEndpointOf_append {before services : List Service}
    (hbefore : ∀ s ∈ before, ∃ endpoints, s.didcommEndpoints = .ok endpoints ∧
      ∀ e ∈ endpoints, ¬ e.AcceptsV2) :
    firstEndpointOf (before ++ services) = firstEndpointOf services := by
  induction before with
  | nil => rfl
  | cons s before ih =>
    obtain ⟨endpoints, hread, hnone⟩ := hbefore s List.mem_cons_self
    have hfind : (endpoints.find? fun e => e.accept.isEmpty || e.accept.contains "didcomm/v2") =
        none := by
      rw [List.find?_eq_none]
      exact fun e he haccepts => hnone e he (acceptsV2_iff.mp haccepts)
    rw [List.cons_append, firstEndpointOf, hread]
    simp only [bind, Except.bind, hfind]
    exact ih fun s hs => hbefore s (List.mem_cons_of_mem _ hs)

/-- `firstDidcommEndpoint` finds the first endpoint for DIDComm v2. -/
theorem firstDidcommEndpoint_eq {doc : DidDocument} {endpoint : DidCommEndpoint}
    (hfirst : FirstEndpoint doc endpoint) : firstDidcommEndpoint doc = .ok (some endpoint) := by
  obtain ⟨haccepts, before, service, after, hservices, hbefore, earlier, later, hread, hearlier⟩ :=
    hfirst
  have hfind : ((earlier ++ endpoint :: later).find? fun e =>
      e.accept.isEmpty || e.accept.contains "didcomm/v2") = some endpoint := by
    rw [List.find?_append, List.find?_eq_none.mpr fun e he h => hearlier e he (acceptsV2_iff.mp h),
      Option.none_or]
    exact List.find?_cons_of_pos (acceptsV2_iff.mpr haccepts)
  rw [firstDidcommEndpoint, hservices, firstEndpointOf_append hbefore, firstEndpointOf, hread]
  simp only [bind, Except.bind, hfind]
  rfl

/-- The route to a destination. -/
theorem routePlan_eq {to_ uri : String} {hops : List String}
    (hdestination : Destination resolver to_ uri hops) :
    routePlan resolver to_ = .ok (some ⟨uri, hops⟩) := by
  cases hdestination with
  | direct hdoc hfirst huri =>
    refine bind_eq_ok.mpr ⟨_, hdoc, bind_eq_ok.mpr ⟨_, firstDidcommEndpoint_eq hfirst, ?_⟩⟩
    exact if_neg (by simp [huri])
  | mediated hdoc hfirst huri hmediator hmediatorFirst htransport =>
    refine bind_eq_ok.mpr ⟨_, hdoc, bind_eq_ok.mpr ⟨_, firstDidcommEndpoint_eq hfirst, ?_⟩⟩
    refine (if_pos huri).trans (bind_eq_ok.mpr ⟨_, hmediator, ?_⟩)
    refine bind_eq_ok.mpr ⟨_, firstDidcommEndpoint_eq hmediatorFirst, bind_eq_ok.mpr ⟨_, rfl, ?_⟩⟩
    exact if_neg (by simp [htransport])

/-! ## Hops -/

/-- A hop's document offers key agreement keys whose ids are of the hop's own DID, and encryption to
them works. -/
structure HopReady (prim : Primitives) (resolver : Resolver) (supply : Supply)
    (enc : ContentEncryption) (hop : String) : Prop where
  did : startsWith hop "did:"
  keys : ∃ doc keys, resolver (didOf hop) = .ok doc ∧ keyAgreementKeys doc hop = .ok keys ∧
    (∀ r ∈ keys, didOf r.kid = didOf hop) ∧
    ∀ i plaintext, ∃ jwe,
      Jwe.anoncrypt prim (supply.draw i) plaintext (onFirstCurve keys) enc = .ok jwe

/-- What packing draws is as documented: message ids are not empty and the clock fits its type. -/
structure Supply.Sound (supply : Supply) : Prop where
  uuid : ∀ i, supply.uuid i ≠ ""
  now : ∀ i, supply.now i < 2 ^ 64

/-- `secrets` has at least one of the keys an envelope names, and those it has are the secret halves
of the keys in `doc`. -/
structure HoldsSome (prim : Primitives) (secrets : Secrets) (doc : DidDocument)
    (jwe : Jwe) : Prop where
  held : ∃ kid ∈ jwe.recipientKids, ∃ key, secrets kid = .ok (some key)
  halves : ∀ kid ∈ jwe.recipientKids, ∃ held, secrets kid = .ok held ∧
    ∀ key ∈ held, doc.keyAgreementKey kid = .ok (key.publicKey prim)

/-- An opened message asks, anonymously, to pass `envelope` on to `next`. -/
structure Forwards (next : String) (envelope : Value)
    (opened : Message × UnpackMetadata) : Prop where
  type_ : opened.1.type_ = forwardType
  body : opened.1.body = .object [("next", .string next)]
  attachment : ∃ a, opened.1.attachments = some [a] ∧ a.data.json = some envelope
  anonymous : opened.2.anonymousSender = true

/-- `text` names keys of `hop` only, and whoever holds the secret of any of them opens it as a
message that satisfies `p`. -/
def OpensAs (prim : Primitives) (resolver : Resolver) (hop text : String)
    (p : Message × UnpackMetadata → Prop) : Prop :=
  ∃ doc jwe, resolver (didOf hop) = .ok doc ∧ Jwe.parse prim text = .ok jwe ∧
    jwe.recipientKids ≠ [] ∧ (∀ kid ∈ jwe.recipientKids, didOf kid = didOf hop) ∧
    ∀ secrets, HoldsSome prim secrets doc jwe →
      ∃ opened, unpack prim resolver secrets text = .ok opened ∧ p opened

/-- The hops open `text` one after the other: each gets a forward to the hop after it, the last one
to `recipient`, and goes on with what is attached. The last one gets `payload`. -/
def OpensAlong (prim : Primitives) (resolver : Resolver) (recipient : String) (payload : Value) :
    List String → String → Prop
  | [], text => prim.value.fromStr text = .ok payload
  | hop :: hops, text => ∃ envelope,
    OpensAs prim resolver hop text (Forwards (hops.head?.getD recipient) envelope) ∧
      (hops = [] → envelope = payload) ∧
      OpensAlong prim resolver recipient payload hops (prim.value.toText envelope)

/-- The keys a message is encrypted to are the document's. -/
theorem keyAgreementKeys_eq_ok {doc : DidDocument} {to_ : String} {keys : List Recipient}
    (h : keyAgreementKeys doc to_ = .ok keys) :
    keys ≠ [] ∧ ∀ r ∈ keys, doc.keyAgreementKey r.kid = .ok r.key := by
  rcases keyAgreementKeys_cases h with ⟨hne, ⟨key, hkey, rfl⟩ | rfl⟩
  · refine ⟨hne, fun r hr => ?_⟩
    obtain rfl := List.mem_singleton.mp hr
    exact hkey
  · refine ⟨hne, fun r hr => ?_⟩
    obtain ⟨m, hm, rfl⟩ := List.mem_map.mp hr
    obtain ⟨id, hid, hmethod⟩ := List.mem_filterMap.mp (List.mem_filter.mp hm).1
    obtain rfl : m.id = id := by simpa using List.find?_some hmethod
    exact DidDocument.keyIn_eq_ok.mpr ⟨hid, by rw [hmethod]; rfl⟩

/-- The DID part of a DID URL is a DID. -/
theorem checkDid_didOf {didUrl header : String} (hdid : startsWith didUrl "did:") :
    checkDid (didOf didUrl) header = .ok () := by
  have hstart : startsWith (didOf didUrl) "did:" = true := by
    simp only [startsWith, didOf, String.toList_ofList, List.isPrefixOf_iff_prefix] at hdid ⊢
    obtain ⟨rest, hrest⟩ := hdid
    rw [← hrest]
    exact ⟨rest.takeWhile fun c => !endsDid c, rfl⟩
  have hfragment : containsChar (didOf didUrl) '#' = false := by
    rw [containsChar, didOf, String.toList_ofList]
    rw [Bool.eq_false_iff, ne_eq, List.contains_iff_mem]
    intro hmem
    have hends := List.mem_takeWhile_imp hmem
    exact absurd hends (by decide)
  simp [checkDid, hstart, hfragment]

/-- The recipients on the first one's curve are some, since the first one is. -/
theorem onFirstCurve_ne_nil {keys : List Recipient}
    (hkeys : keys ≠ []) : onFirstCurve keys ≠ [] := by
  obtain ⟨first, rest, rfl⟩ := List.exists_cons_of_ne_nil hkeys
  simp [onFirstCurve]

section Forward

variable {i : ℕ} {hop next : String} {members : List (String × Value)}

/-- A forward made for a hop that is a DID is a valid message. -/
theorem validate_forwardMessage (hsupply : supply.Sound) (hdid : startsWith hop "did:") :
    (forwardMessage supply i hop next (.object members)).validate = .ok () := by
  have hto : checkDid (didOf hop) "to" = .ok () := checkDid_didOf hdid
  have hattachment : ((Attachment.ofJson (.object members)).withMediaType encryptedTyp).validate =
    .ok () := rfl
  have hto' : List.forM [didOf hop] (fun did => checkDid did "to") = (.ok () : Result Unit) :=
    bind_eq_ok.mpr ⟨(), hto, rfl⟩
  have htype : forwardType ≠ "" := by decide
  simp only [Message.validate, forwardMessage, Message.new, Message.withTo, Message.attachment,
    hsupply.uuid i, htype, ↓reduceIte]
  change (List.forM [didOf hop] (fun did => checkDid did "to") >>= fun _ =>
    List.forM [_] Attachment.validate) = _
  exact bind_eq_ok.mpr ⟨(), hto', bind_eq_ok.mpr ⟨(), hattachment, rfl⟩⟩

/-- A forward whose payload the packages keep can be written. -/
theorem writable_forwardMessage (hlawful : prim.Lawful) (hsupply : supply.Sound)
    (hkeeps : prim.Keeps (.object members)) :
    (forwardMessage supply i hop next (.object members)).Writable prim := by
  -- the body, the attachment, the time and the headers, one by one
  constructor
  · refine hlawful.value_object _ (by simp) fun e he => ?_
    obtain rfl := List.mem_singleton.mp he
    exact hlawful.value_string next
  · intro a ha
    obtain rfl := List.mem_singleton.mp ha
    constructor
    · intro v hv
      obtain rfl := Option.some.inj hv
      exact ⟨Value.noConfusion, hkeeps⟩
    · intro v hv
      nomatch hv
    · intro t ht
      nomatch ht
    · intro n hn
      nomatch hn
  · intro t ht
    obtain rfl := Option.some.inj ht
    exact hsupply.now i
  · intro t ht
    nomatch ht
  · exact List.nodup_nil
  · intro e he
    nomatch he

end Forward

/-- What a hop's secrets are worth on an envelope for its keys. -/
theorem HoldsSome.unlocks {doc : DidDocument} {jwe : Jwe} {recipients : List Recipient}
    (hholds : HoldsSome prim secrets doc jwe)
    (hkids : jwe.recipientKids = recipients.map (·.kid))
    (hkeys : ∀ r ∈ recipients, doc.keyAgreementKey r.kid = .ok r.key) :
    Unlocks prim secrets recipients := by
  constructor
  · obtain ⟨kid, hkid, key, hkey⟩ := hholds.held
    rw [hkids] at hkid
    obtain ⟨r, hr, rfl⟩ := List.mem_map.mp hkid
    exact ⟨r, hr, key, hkey⟩
  · intro r hr
    obtain ⟨held, hheld, hhalf⟩ := hholds.halves r.kid (hkids ▸ List.mem_map_of_mem hr)
    refine ⟨held, hheld, fun key hkey => ?_⟩
    exact Except.ok.inj ((hhalf key hkey).symm.trans (hkeys r hr))

/-- An anonymously encrypted forward opens as this forward. -/
theorem unpack_forward (hlawful : prim.Lawful) (hsupply : supply.Sound) {random : Random} {i : ℕ}
    {hop next : String} {members : List (String × Value)} {recipients : List Recipient} {jwe : Jwe}
    {text : String} (hdid : startsWith hop "did:") (hkeeps : prim.Keeps (.object members))
    (hjwe : Jwe.anoncrypt prim random
      (utf8 ((forwardMessage supply i hop next (.object members)).toPlaintextJson prim))
        recipients enc = .ok jwe)
    (hkids : ∀ r ∈ recipients, ∀ r' ∈ recipients, r.kid = r'.kid → r.key = r'.key)
    (hown : ∀ r ∈ recipients, didOf r.kid = didOf hop) (hcarries : Carries prim text jwe)
    (hunlocks : Unlocks prim secrets recipients) :
    ∃ opened, unpack prim resolver secrets text = .ok opened ∧
      Forwards next (.object members) opened := by
  obtain ⟨r, hr, hopen⟩ := openJwe_encrypt resolver ⟨text, .default, [], []⟩
    hlawful hjwe nofun hkids hcarries.parsed rfl hunlocks nofun
  have hpeeled := round_carries hcarries hopen
  -- under the one envelope lies the forward message, unsigned
  have hplain : ∀ metadata, round prim resolver secrets
      ⟨(forwardMessage supply i hop next (.object members)).toPlaintextJson prim, metadata,
        [.anoncrypt], [didOf r.kid]⟩ =
        .ok (.plaintext { forwardMessage supply i hop next (.object members) with
          typ := some plaintextTyp }) := fun _ =>
    round_toPlaintextJson hlawful (writable_forwardMessage hlawful hsupply hkeeps)
      (validate_forwardMessage hsupply hdid) nofun rfl
  have hloop := (unpackLoop_peeled hpeeled).trans (unpackLoop_plaintext (hplain _))
  refine ⟨(_, _), bind_eq_ok.mpr ⟨_, hloop, bind_eq_ok.mpr ⟨(), ?_, rfl⟩⟩, ?_⟩
  · simp [checkConsistency, sealedMetadata, UnpackMetadata.default, forwardMessage, Message.new,
      Message.withTo, Message.attachment, hown r hr]
  · exact ⟨rfl, rfl, ⟨_, rfl, rfl⟩, rfl⟩

/-- The hop that a message was wrapped for opens the wrapping and gets it back. -/
theorem wrapForHop_opens (hlawful : prim.Lawful) (hsupply : supply.Sound) (i : ℕ) (next : String)
    {hop inner : String} {members : List (String × Value)}
    (hready : HopReady prim resolver supply enc hop)
    (hread : prim.value.fromStr inner = .ok (.object members)) :
    ∃ jwe, wrapForHop prim resolver supply enc i hop next inner = .ok (Jwe.toJson prim jwe) ∧
      ∀ text, Carries prim text jwe →
        OpensAs prim resolver hop text (Forwards next (.object members)) := by
  obtain ⟨doc, keys, hdoc, hkeys, hown, hencrypts⟩ := hready.keys
  obtain ⟨hne, hlisted⟩ := keyAgreementKeys_eq_ok hkeys
  obtain ⟨jwe, hjwe⟩ := hencrypts i
    (utf8 ((forwardMessage supply i hop next (.object members)).toPlaintextJson prim))
  obtain ⟨draw, ephemeral, ciphertext, tag, hsealed⟩ := Jwe.encrypt_eq_ok hjwe
  have hmem : ∀ r ∈ onFirstCurve keys, r ∈ keys := fun r hr => List.mem_of_mem_filter hr
  -- two recipients under one kid are one key of the document
  have hkids : ∀ r ∈ onFirstCurve keys, ∀ r' ∈ onFirstCurve keys,
    r.kid = r'.kid → r.key = r'.key := by
    intro r hr r' hr' hkid
    have hkey := hlisted r (hmem r hr)
    rw [hkid, hlisted r' (hmem r' hr')] at hkey
    exact (Except.ok.inj hkey).symm
  refine ⟨jwe, ?_, fun text hcarries => ⟨doc, jwe, hdoc, hcarries.parsed, ?_, ?_, ?_⟩⟩
  · refine bind_eq_ok.mpr ⟨_, ofJson_eq_ok.mpr hread, bind_eq_ok.mpr ⟨doc, hdoc, ?_⟩⟩
    exact bind_eq_ok.mpr ⟨keys, hkeys, bind_eq_ok.mpr ⟨jwe, hjwe, rfl⟩⟩
  · rw [hsealed.recipientKids]
    simpa using onFirstCurve_ne_nil hne
  · intro kid hkid
    rw [hsealed.recipientKids] at hkid
    obtain ⟨r, hr, rfl⟩ := List.mem_map.mp hkid
    exact hown r (hmem r hr)
  · intro secrets hholds
    exact unpack_forward hlawful hsupply hready.did (hlawful.value_read hread) hjwe hkids
      (fun r hr => hown r (hmem r hr)) hcarries
      (hholds.unlocks hsealed.recipientKids fun r hr => hlisted r (hmem r hr))

/-- Wrapping a message for hops makes something the hops open, as it is and as JSON that was read
and written again. -/
theorem wrapForHops_opens (hlawful : prim.Lawful) (hsupply : supply.Sound) (recipient : String)
    {packed : String} {payload : List (String × Value)}
    (hpacked : prim.value.fromStr packed = .ok (.object payload)) {hops : List String}
    (hready : ∀ hop ∈ hops, HopReady prim resolver supply enc hop) :
    ∃ text members, wrapForHops prim resolver supply enc recipient hops packed = .ok text ∧
      prim.value.fromStr text = .ok (.object members) ∧
      (hops = [] → members = payload) ∧
      OpensAlong prim resolver recipient (.object payload) hops text ∧
      OpensAlong prim resolver recipient (.object payload) hops
        (prim.value.toText (.object members)) := by
  -- the layers for the hops behind are wrapped first, and are what this hop forwards
  induction hops with
  | nil => exact ⟨packed, payload, rfl, hpacked, fun _ => rfl, hpacked, hlawful.value_read hpacked⟩
  | cons hop hops ih =>
    obtain ⟨inner, members, hinner, hread, hlast, -, hopens⟩ :=
      ih fun hop hhop => hready hop (List.mem_cons_of_mem _ hhop)
    obtain ⟨jwe, hwrap, hopensAs⟩ := wrapForHop_opens hlawful hsupply hops.length
      (hops.head?.getD recipient) (hready hop List.mem_cons_self) hread
    obtain ⟨members', hread', -, -, -⟩ := hlawful.jwe jwe
    have hlast' : hops = [] → Value.object members = .object payload := fun h =>
      congrArg Value.object (hlast h)
    refine ⟨jwe.toJson prim, members', bind_eq_ok.mpr ⟨inner, hinner, hwrap⟩, hread', nofun, ?_, ?_⟩
    · exact ⟨.object members, hopensAs _ (carries_toJson hlawful jwe), hlast', hopens⟩
    · exact ⟨.object members, hopensAs _ (carries_toText hlawful hread'), hlast', hopens⟩

/-- Every hop of a route opens its layer, in order: each gets an anonymous forward with the next
hop, the last one with the recipient's DID and the packed message. -/
theorem route_opens (hlawful : prim.Lawful) (hsupply : supply.Sound) {to_ uri packed : String}
    {hops : List String} {payload : List (String × Value)}
    (hdestination : Destination resolver to_ uri hops)
    (hpacked : prim.value.fromStr packed = .ok (.object payload))
    (hready : ∀ hop ∈ hops, HopReady prim resolver supply enc hop) :
    ∃ routed, route prim resolver supply packed to_ enc = .ok routed ∧
      routed.serviceUri = some uri ∧ routed.firstHop = hops.head? ∧
      OpensAlong prim resolver (didOf to_) (.object payload) hops routed.message := by
  obtain ⟨text, members, hwrap, -, -, hopens, -⟩ :=
    wrapForHops_opens hlawful hsupply (didOf to_) hpacked hready
  refine ⟨⟨text, some uri, hops.head?⟩, ?_, rfl, rfl, hopens⟩
  exact bind_eq_ok.mpr ⟨_, routePlan_eq hdestination, bind_eq_ok.mpr ⟨text, hwrap, rfl⟩⟩

/-! ## A route of two hops -/

namespace Transparent

/-- The recipient's endpoint is its mediator, and it asks for a relay after that. -/
def services (did : String) : List Service :=
  if did = "did:example:bob" then
    [Loopback.didcommService "did:example:mediator" ["did:example:relay#k"]]
  else if did = "did:example:mediator" then [Loopback.didcommService "https://mediator.example" []]
  else []

/-- A composed computation succeeds where the first part does and the second succeeds on its result.
-/
theorem exists_bind_eq_ok {α β : Type} {x : Result α} {f : α → Result β} {a : α} (hx : x = .ok a)
    (hf : ∃ b, f a = .ok b) : ∃ b, (x >>= f) = .ok b := by
  rw [hx]
  exact hf

/-- With the transparent packages anoncrypt to one recipient of the example always succeeds. -/
theorem anoncrypt_isOk (i : ℕ) (plaintext : Bytes) (kid : String) (enc : ContentEncryption) :
    ∃ jwe, Jwe.anoncrypt packages (Loopback.supply.draw i) plaintext
      [⟨kid, Loopback.agreementKey⟩] enc = .ok jwe := by
  have hlengths : enc.checkLengths (List.replicate enc.keyLen 0)
    (List.replicate enc.ivLen 0) = .ok () := by
    simp [ContentEncryption.checkLengths]
  refine exists_bind_eq_ok rfl (exists_bind_eq_ok rfl ?_)
  refine exists_bind_eq_ok (bind_eq_ok.mpr ⟨(), hlengths, rfl⟩) ?_
  exact exists_bind_eq_ok rfl (exists_bind_eq_ok (b64Decode_b64Encode _)
    (exists_bind_eq_ok rfl ⟨_, rfl⟩))

/-- The mediator of the example, named by its DID, is ready as a hop. -/
theorem hopReady_did : HopReady packages (Loopback.resolver services) Loopback.supply .xc20p
    "did:example:mediator" :=
  ⟨by decide, _, _, rfl, rfl, by decide, fun i plaintext => anoncrypt_isOk i plaintext _ _⟩

/-- The relay of the example, named by its key, is ready as a hop. -/
theorem hopReady_kid : HopReady packages (Loopback.resolver services) Loopback.supply .xc20p
    "did:example:relay#k" :=
  ⟨by decide, _, _, rfl, rfl, by decide, fun i plaintext => anoncrypt_isOk i plaintext _ _⟩

end Transparent

/-- A route over the mediator and the relay of the example opens along both of them. -/
theorem route_opens_mediated :
    ∃ routed, route Transparent.packages (Loopback.resolver Transparent.services) Loopback.supply
        (Transparent.packages.value.toText (.object [])) "did:example:bob" .xc20p = .ok routed ∧
      routed.serviceUri = some "https://mediator.example" ∧
      routed.firstHop = some "did:example:mediator" ∧
      OpensAlong Transparent.packages (Loopback.resolver Transparent.services) "did:example:bob"
        (.object []) ["did:example:mediator", "did:example:relay#k"] routed.message := by
  -- the recipient's endpoint is a mediator's DID, with one routing key
  have hdestination : Destination (Loopback.resolver Transparent.services) "did:example:bob"
      "https://mediator.example" ["did:example:mediator", "did:example:relay#k"] := by
    have hbob : FirstEndpoint (Loopback.document (Transparent.services "did:example:bob")
        "did:example:bob") ⟨"did:example:mediator", [], ["did:example:relay#k"]⟩ :=
      ⟨.inl rfl, [], _, [], rfl, nofun, [], [], rfl, nofun⟩
    have hmediator : FirstEndpoint (Loopback.document (Transparent.services "did:example:mediator")
        "did:example:mediator") ⟨"https://mediator.example", [], []⟩ :=
      ⟨.inl rfl, [], _, [], rfl, nofun, [], [], rfl, nofun⟩
    exact @Destination.mediated (Loopback.resolver Transparent.services)
      "did:example:bob" _ _ _ _ rfl hbob rfl rfl hmediator rfl
  have hsupply : Loopback.supply.Sound := ⟨fun _ => by simp [Loopback.supply], fun _ => by
    simp [Loopback.supply]⟩
  have hready : ∀ hop ∈ ["did:example:mediator", "did:example:relay#k"],
      HopReady Transparent.packages (Loopback.resolver Transparent.services) Loopback.supply .xc20p
        hop := by
    intro hop hhop
    rcases List.mem_cons.mp hhop with rfl | hhop
    · exact Transparent.hopReady_did
    · obtain rfl := List.mem_singleton.mp hhop
      exact Transparent.hopReady_kid
  exact route_opens Transparent.lawful hsupply hdestination (Transparent.keeps _) hready

end Didcomm
