import AlmenaMediator.Didcomm.Forwarding
import AlmenaMediator.Dispatch.AllOrNothing
import AlmenaMediator.Dispatch.Receive

/-!
# From the sender to the recipient's queue

What a sender packs for a recipient behind this mediator, the mediator opens, and queues what is
inside for the recipient: the envelope that the sender made for the recipient, as the recipient
would have got it directly (`forwarded_arrives`). The surroundings of the mediator are any state
machine that knows the recipient's mediation and takes the payload.
-/

namespace Dispatch

open Didcomm

variable {σ : Type} {h : Handler Surroundings σ} {prim : Primitives} {mediator : Mediator}
    {resolver : Resolver}

/-- The `forward` that a sender wraps is read as what it was wrapped from. -/
theorem readForward_forwardMessage {supply : Supply} {i : ℕ} {hop next : String} {envelope : Value}
    {jwe : Jwe} (hparse : Jwe.parse prim (prim.value.toText envelope) = .ok jwe) :
    readForward prim { forwardMessage supply i hop next envelope with typ := some plaintextTyp } =
      .ok (next, [prim.value.toText envelope]) := by
  have hpayload : payloadOf prim ((Attachment.ofJson envelope).withMediaType encryptedTyp) =
      .ok (prim.value.toText envelope) := by
    simp [payloadOf, Attachment.ofJson, Attachment.withMediaType, Attachment.withData, hparse]
    rfl
  change (([(Attachment.ofJson envelope).withMediaType encryptedTyp].mapM (payloadOf prim)) >>=
    fun payloads =>
    (pure (next, payloads) : Except ReceiveError (String × List String))) = _
  rw [List.mapM_cons, hpayload, List.mapM_nil]
  rfl

/-- A `forward` whose payloads the store takes is done, and queues them. -/
theorem forward_admitted {message : Message} {next mediation : String} {payloads : List String}
    {s : σ} (hread : readForward prim message = .ok (next, payloads))
    (hfound : (h (.store (.mediationOf (didOf next))) s).1 = .ok (some mediation))
    (hadmits : AdmitsAll h mediator mediation (didOf next) payloads
      (h (.store (.mediationOf (didOf next))) s).2) :
    ((forward prim mediator resolver message).run.run h s).1 = .ok () ∧
      queuedFor mediation (didOf next)
      ((forward prim mediator resolver message).run.trace h s) = payloads := by
  obtain ⟨hok, hqueued, -⟩ := passOn_admitted prim resolver hadmits
  obtain ⟨hrun, htrace⟩ :=
    run_orRefuse_bind_ok (f := passOn prim mediator resolver next payloads) hfound
  rw [forward_read hread, hrun, htrace]
  exact ⟨hok, hqueued⟩

/-- An anonymous `forward` that has not expired is passed on and accepted. -/
theorem handle_forward {packed : String} {message : Message} {metadata : UnpackMetadata}
    {session : Option ℕ}
    (hunpack : unpack prim resolver mediator.identity.secrets packed = .ok (message, metadata))
    (hencrypted : metadata.encrypted = true) (htype : message.type_ = forwardType)
    (hlasting : message.expiresTime = none) {next mediation : String} {payloads : List String}
    {s : σ} (hread : readForward prim message = .ok (next, payloads))
    (hfound : (h (.store (.mediationOf (didOf next))) (h .now s).2).1 = .ok (some mediation))
    (hadmits : AdmitsAll h mediator mediation (didOf next) payloads
      (h (.store (.mediationOf (didOf next))) (h .now s).2).2) :
    ((handle prim mediator resolver packed session).run.run h s).1 = .ok .accepted ∧
      queuedFor mediation (didOf next)
      ((handle prim mediator resolver packed session).run.trace h s) = payloads := by
  obtain ⟨hok, hqueued⟩ := @forward_admitted σ h prim mediator resolver
    _ _ _ _ _ hread hfound hadmits
  -- the forward is the only thing that the mediator does with the message
  have hmessage : handleAt prim mediator resolver (h .now s).1 (message.from_.filter fun _ =>
    metadata.authenticated)
      message session = (forward prim mediator resolver message >>= fun _ =>
        pure Handled.nothing) := by
    rw [handleAt, if_neg (by simp [Message.isExpiredAt, hlasting]), handleMessage, if_pos htype]
  have hhandle : handle prim mediator resolver packed session =
      handleUnpacked prim mediator resolver message metadata session := by
    rw [handle, hunpack]
    exact if_neg (by simp [hencrypted])
  obtain ⟨hforward, htraceForward⟩ := Program.run_exceptT_bind_ok
    (f := fun _ => (pure Handled.nothing : Handling Handled)) (Prod.ext hok rfl :
      (forward prim mediator resolver message).run.run h (h .now s).2 = (_, _))
  rw [hhandle, handleUnpacked, (run_call_bind .now _ s).1, (run_call_bind .now _ s).2, hmessage]
  obtain ⟨hrun, htrace⟩ := Program.run_exceptT_bind_ok
    (f := fun handled => (liftM (answer prim mediator resolver message handled session.isSome
      metadata.authenticated) : Handling Outcome)) hforward
  rw [hrun, htrace, htraceForward]
  refine ⟨rfl, ?_⟩
  change queuedFor mediation (didOf next) (⟨.now, (h .now s).1⟩ ::
    (((forward prim mediator resolver message).run.trace h (h .now s).2 ++ []) ++ [])) = _
  rw [List.append_nil, List.append_nil, ← hqueued]
  rfl

/-- What a sender packs for a recipient behind this mediator alone is accepted by the mediator, and
what it queues for the recipient is one payload. Whoever unpacks this gets what unpacking the
envelope packed without `forward` gives. -/
theorem forwarded_arrives (hlawful : prim.Lawful) {m : Message} {secrets : Secrets}
    {supply : Supply} (hsupply : (Message.restOf supply).Sound) {to_ uri hop : String}
    {from_ signBy : Option String} {options : PackOptions} (hforward : options.forward = true)
    {p : PackedMessage}
    (hpacked : m.packEncrypted prim resolver secrets supply to_ from_ signBy options = .ok p)
    (hdestination : Destination resolver to_ uri [hop])
    (hready : HopReady prim resolver (Message.restOf supply) options.anoncryptEnc hop) :
    ∃ direct payload,
      m.packEncrypted prim resolver secrets supply to_ from_ signBy
        { options with forward := false } = .ok direct ∧
      (∀ resolver' receiver, unpack prim resolver' receiver payload =
        unpack prim resolver' receiver direct.message) ∧
      ∀ mediator : Mediator,
        (∀ doc jwe, resolver (didOf hop) = .ok doc → Jwe.parse prim p.message = .ok jwe →
          HoldsSome prim mediator.identity.secrets doc jwe) →
        ∀ (σ : Type) (h : Handler Surroundings σ) (s : σ) resolver' session mediation,
          (h (.store (.mediationOf (didOf to_))) (h .now s).2).1 = .ok (some mediation) →
          AdmitsAll h mediator mediation (didOf to_) [payload]
            (h (.store (.mediationOf (didOf to_))) (h .now s).2).2 →
          ((handle prim mediator resolver' p.message session).run.run h s).1 = .ok .accepted ∧
          queuedFor mediation (didOf to_) ((handle prim mediator resolver' p.message
            session).run.trace h s) = [payload] := by
  obtain ⟨direct, jwe, routed, hdirect, hjwe, hrouted, hmessage, -⟩ :=
    packEncrypted_forward hforward hpacked
  obtain ⟨members, hread, -, -, hparse⟩ := hlawful.jwe jwe
  have htext : Didcomm.Carries prim (prim.value.toText (.object members)) jwe :=
    carries_toText hlawful hread
  have hwrapped : wrapForHop prim resolver (Message.restOf supply)
    options.anoncryptEnc 0 hop (didOf to_)
      direct.message = .ok p.message := by
    obtain ⟨plan, hplan, hwrapped⟩ := bind_eq_ok.mp hrouted
    obtain rfl := Except.ok.inj ((routePlan_eq hdestination).symm.trans hplan)
    obtain ⟨text, hwrap, hresult⟩ := bind_eq_ok.mp hwrapped
    obtain rfl := pure_eq_ok.mp hresult
    -- the envelope is wrapped once, for the one hop
    obtain ⟨inner, hinner, hwrap⟩ := bind_eq_ok.mp hwrap
    obtain rfl := Except.ok.inj hinner
    rw [hmessage]
    exact hwrap
  refine ⟨direct, prim.value.toText (.object members), hdirect, fun resolver' receiver => ?_, ?_⟩
  · rw [hjwe]
    exact unpack_carries htext (carries_toJson hlawful jwe)
  intro mediator hholds σ h s resolver' session mediation hfound hadmits
  obtain ⟨doc, keys, hdoc, hkeys, hown, -⟩ := hready.keys
  have howned : ∀ keys, keyAgreementKeys doc hop = .ok keys → ∀ r ∈ keys,
    didOf r.kid = didOf hop := by
    intro keys' hkeys'
    obtain rfl := Except.ok.inj (hkeys.symm.trans hkeys')
    exact hown
  obtain ⟨metadata, hunpack, hencrypted, -⟩ :=
    unpack_wrapForHop resolver' hlawful hsupply hready.did hdoc howned
    (hjwe ▸ hread) hwrapped fun jwe hparse => hholds doc jwe hdoc hparse
  rw [← didOf_didOf to_] at hfound hadmits
  have hhandled := @handle_forward σ h prim mediator resolver' _ _ _ session hunpack
    hencrypted rfl rfl _ _ _ s (readForward_forwardMessage htext.parsed) hfound hadmits
  rwa [didOf_didOf] at hhandled

/-! ## A ping to Bob -/

namespace ArrivalExample

open Didcomm.Transparent (packages ping)

/-- Bob's endpoint is his mediator. -/
def services (did : String) : List Service :=
  if did = "did:example:bob" then [Didcomm.Loopback.didcommService "did:example:mediator" []]
  else if did = "did:example:mediator" then [Didcomm.Loopback.didcommService
    "https://mediator.example" []]
  else []

abbrev documents : Resolver := Didcomm.Loopback.resolver services

/-- Bob is mediated, for himself. -/
def registered : Store.Inner :=
  ((Store.Inner.empty.grantMediation "did:example:bob" 0).addRecipient
    "did:example:bob" "did:example:bob" 2).2

/-- In the example bob is reached at the mediator's endpoint over the mediator alone. -/
theorem destination :
    Destination documents "did:example:bob" "https://mediator.example"
      ["did:example:mediator"] := by
  have hbob : FirstEndpoint (Didcomm.Loopback.document
    (services "did:example:bob") "did:example:bob")
      ⟨"did:example:mediator", [], []⟩ :=
    ⟨.inl rfl, [], _, [], rfl, by simp, [], [], rfl, by simp⟩
  have hmediator : FirstEndpoint
      (Didcomm.Loopback.document (services "did:example:mediator") "did:example:mediator")
      ⟨"https://mediator.example", [], []⟩ :=
    ⟨.inl rfl, [], _, [], rfl, by simp, [], [], rfl, by simp⟩
  exact @Destination.mediated documents "did:example:bob" _ _ _ _ rfl hbob rfl rfl hmediator rfl

/-- The ping, packed for Bob without a sender, is an envelope for the mediator. -/
theorem packEncrypted_mediated : ∃ p jwe,
    ping.packEncrypted packages documents Didcomm.Loopback.secrets
      Didcomm.Loopback.supply "did:example:bob" none none ⟨false, .xc20p, true⟩ = .ok p ∧
    p.message = Jwe.toJson packages jwe ∧ jwe.recipientKids = ["did:example:mediator#k"] := by
  obtain ⟨jwe, hjwe⟩ := Transparent.anoncrypt_isOk 0 (utf8 (ping.toPlaintextJson packages))
    "did:example:bob#k" .xc20p
  obtain ⟨members, hread, -⟩ := Transparent.lawful.jwe jwe
  -- the one hop gets a forward for bob around the inner envelope
  let wrapping := forwardMessage (Message.restOf Didcomm.Loopback.supply) 0
    "did:example:mediator" "did:example:bob"
    (.object members)
  obtain ⟨outer, houter⟩ := Transparent.anoncrypt_isOk 2 (utf8 (wrapping.toPlaintextJson packages))
    "did:example:mediator#k" .xc20p
  have hwrap : wrapForHop packages documents (Message.restOf Didcomm.Loopback.supply) .xc20p
    0 "did:example:mediator"
      "did:example:bob" (jwe.toJson packages) = .ok (outer.toJson packages) := by
    refine bind_eq_ok.mpr ⟨_, ofJson_eq_ok.mpr hread,
      bind_eq_ok.mpr ⟨_, rfl, bind_eq_ok.mpr ⟨_, rfl, ?_⟩⟩⟩
    exact bind_eq_ok.mpr ⟨outer, houter, rfl⟩
  have hroute : route packages documents (Message.restOf
    Didcomm.Loopback.supply) (jwe.toJson packages)
      "did:example:bob" .xc20p =
      .ok ⟨outer.toJson packages, some "https://mediator.example",
        some "did:example:mediator"⟩ := by
    refine bind_eq_ok.mpr ⟨_, routePlan_eq destination, bind_eq_ok.mpr ⟨_, ?_, rfl⟩⟩
    exact bind_eq_ok.mpr ⟨_, rfl, hwrap⟩
  have hencrypted : Message.encryptPayload packages documents
    Didcomm.Loopback.secrets Didcomm.Loopback.supply
      (ping.toPlaintextJson packages) none [⟨"did:example:bob#k",
        Didcomm.Loopback.agreementKey⟩] ⟨false, .xc20p, true⟩ =
      .ok (jwe.toJson packages, none, ["did:example:bob#k"]) := bind_eq_ok.mpr ⟨jwe, hjwe, rfl⟩
  refine ⟨⟨outer.toJson packages, none, none, ["did:example:bob#k"],
    some "https://mediator.example", true⟩, outer, ?_, rfl, ?_⟩
  · refine bind_eq_ok.mpr ⟨(), rfl, guard_eq_ok.mpr ⟨by decide, guard_eq_ok.mpr ⟨by decide, ?_⟩⟩⟩
    refine bind_eq_ok.mpr ⟨_, rfl, bind_eq_ok.mpr ⟨_, rfl, bind_eq_ok.mpr ⟨_, rfl, ?_⟩⟩⟩
    exact bind_eq_ok.mpr ⟨_, hencrypted, bind_eq_ok.mpr ⟨_, hroute, rfl⟩⟩
  · obtain ⟨draw, ephemeral, ciphertext, tag, hsealed⟩ := Jwe.encrypt_eq_ok houter
    exact hsealed.recipientKids

end ArrivalExample

/-- The ping arrives in Bob's queue, when the mediator has room for it. -/
theorem forwarded_arrives_ping : ∃ p payload mediator,
    Transparent.ping.packEncrypted Transparent.packages
      ArrivalExample.documents Didcomm.Loopback.secrets Didcomm.Loopback.supply "did:example:bob"
        none none ⟨false, .xc20p, true⟩ = .ok p ∧
          ((handle Transparent.packages mediator ArrivalExample.documents p.message
            none).run.run (Loopback.calm 0) ArrivalExample.registered).1 = .ok .accepted ∧
    queuedFor "did:example:bob" "did:example:bob"
      ((handle Transparent.packages mediator ArrivalExample.documents p.message none).run.trace
        (Loopback.calm 0) ArrivalExample.registered) = [payload] := by
  obtain ⟨p, outer, hpacked, hmessage, hkids⟩ := ArrivalExample.packEncrypted_mediated
  have hsupply : (Message.restOf Didcomm.Loopback.supply).Sound :=
    ⟨fun _ => by simp [Message.restOf, Didcomm.Loopback.supply],
      fun _ => by simp [Message.restOf, Didcomm.Loopback.supply]⟩
  have hready : HopReady Transparent.packages ArrivalExample.documents
    (Message.restOf Didcomm.Loopback.supply) .xc20p
      "did:example:mediator" :=
    ⟨by decide, _, _, rfl, rfl, by decide, fun i plaintext =>
      Transparent.anoncrypt_isOk (i + 2) plaintext _ _⟩
  obtain ⟨direct, payload, -, -, harrives⟩ :=
    forwarded_arrives Transparent.lawful hsupply rfl hpacked
    ArrivalExample.destination hready
  let mediator := Loopback.mediator
    { maxMessageBytes := 1000, queue := ⟨60, 1, payload.utf8ByteSize⟩, maxRecipientDids := 2,
      pushMinIntervalSecs := 0,
      recipientProof := false, mediationTtlSecs := 0 } false none
  have hadmits : AdmitsAll (Loopback.calm 0) mediator "did:example:bob" "did:example:bob" [payload]
      ArrivalExample.registered := by
    have hqueue : ArrivalExample.registered.queues "did:example:bob" = [] := by decide
    rw [Loopback.admitsAll_calm]
    right
    simp [mediator, Loopback.mediator, hqueue, Store.Inner.unexpired, Store.Inner.bytes]
  refine ⟨p, payload, mediator, hpacked, ?_⟩
  refine harrives mediator (fun doc jwe hdoc hparse => ?_) _ (Loopback.calm 0)
    ArrivalExample.registered ArrivalExample.documents none "did:example:bob" (by decide) hadmits
  -- the mediator holds the secret of its one key
  rw [hmessage, (carries_toJson Transparent.lawful outer).parsed] at hparse
  obtain rfl := Except.ok.inj hparse
  obtain rfl := Except.ok.inj hdoc
  constructor
  · rw [hkids]
    exact ⟨_, List.mem_singleton_self _, _, rfl⟩
  · rw [hkids]
    intro kid hkid
    obtain rfl := List.mem_singleton.mp hkid
    refine ⟨_, rfl, fun key hkey => ?_⟩
    obtain rfl := Option.mem_some.mp hkey
    rfl

end Dispatch
