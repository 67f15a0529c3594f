import AlmenaMediator.Dispatch.Receive
import AlmenaMediator.Store.Estates

/-!
# What jobs do, and on whose behalf

A handler of the protocols between a wallet and its mediator only names the mediation of the wallet
that sent the message, and adds recipient DIDs only after checking a proof. Carrying a message,
waking the devices of a mediation and the periodic tasks each have their own few effects. A
mediation is given a recipient, a message, a device or a push marker only after an earlier call of
the same job found it: `has_mediation` said that it is granted, `mediation_of` named it, or
`devices` returned some of its devices.

Each kind of program is walked once, for the strongest guarantee that it gives; `program_ensures`
puts them together for every job, and what later modules need of jobs follows from it.
-/

namespace Dispatch

open Didcomm

/-- Some answer found the mediation. -/
def Known (rely : (e : Effect) → Surroundings.Reply e → Prop) (m : String) : Prop :=
  ∃ (op : Store.Op) (answer : Except Store.StoreError op.Answer),
    rely (.store op) answer ∧ Store.Finds m ⟨op, answer⟩

/-- A mediation that is known under an assumption is known under every weaker one. -/
theorem Known.imp {rely rely' : (e : Effect) → Surroundings.Reply e → Prop} {m : String}
    (h : Known rely m) (hrely : ∀ e r, rely e r → rely' e r) : Known rely' m := by
  obtain ⟨op, answer, hanswer, hfinds⟩ := h
  exact ⟨op, answer, hrely _ _ hanswer, hfinds⟩

/-- A mediation that `has_mediation` said is granted was found. -/
theorem known_of_hasMediation {rely : (e : Effect) → Surroundings.Reply e → Prop} {m : String}
    {mediated : Bool} (hrely : rely (.store (.hasMediation m)) (.ok mediated))
    (hmediated : ¬ (!mediated) = true) : Known rely m :=
  ⟨.hasMediation m, .ok mediated, hrely, rfl, by simpa using hmediated⟩

/-- The store calls a handler may make for `requester` after the replies in `rely`, when it may add
the DIDs in `mayAdd`. -/
def OpOnBehalfOf (mediator : Mediator) (rely : (e : Effect) → Surroundings.Reply e → Prop)
    (requester : String) (mayAdd : String → Prop) : Store.Op → Prop
  | .grantMediation m now | .touchMediation m now => m = requester ∧ rely .now now
  | .hasMediation m | .removeRecipient m _ | .recipients m | .remove m _ | .devices m =>
    m = requester
  | .setDevice m _ _ => m = requester ∧ Known rely requester
  | .summary m _ now ttlSecs | .peek m _ _ now ttlSecs =>
    m = requester ∧ rely .now now ∧ ttlSecs = mediator.limits.queue.ttlSecs
  | .releasePush m now minIntervalSecs =>
    m = requester ∧ rely .now now ∧ minIntervalSecs = mediator.limits.pushMinIntervalSecs
  | .addRecipient m did max =>
    m = requester ∧ Known rely requester ∧ max = mediator.limits.maxRecipientDids ∧ mayAdd did
  | _ => False

/-- What a handler may do for `requester` whose message came on `session`, after the replies in
`rely`. -/
def OnBehalfOf (mediator : Mediator) (rely : (e : Effect) → Surroundings.Reply e → Prop)
    (requester : String) (session : Option ℕ) (mayAdd : String → Prop) : Effect → Prop
  | .store op => OpOnBehalfOf mediator rely requester mayAdd op
  | .now | .uuid => True
  | .liveMediation s | .disable s => session = some s
  | .enable s m => session = some s ∧ m = requester
  | _ => False

/-- More replies and more DIDs to add allow more. -/
theorem OnBehalfOf.imp {mediator : Mediator}
    {rely rely' : (e : Effect) → Surroundings.Reply e → Prop} {requester : String}
    {session : Option ℕ} {mayAdd mayAdd' : String → Prop} {e : Effect}
    (h : OnBehalfOf mediator rely requester session mayAdd e)
    (hrely : ∀ e r, rely e r → rely' e r) (hadd : ∀ did, mayAdd did → mayAdd' did) :
    OnBehalfOf mediator rely' requester session mayAdd' e := by
  cases e with
  | store op =>
    cases op with
    | addRecipient m did max => exact ⟨h.1, h.2.1.imp hrely, h.2.2.1, hadd did h.2.2.2⟩
    | setDevice m service device => exact ⟨h.1, h.2.imp hrely⟩
    | grantMediation m now | touchMediation m now => exact ⟨h.1, hrely .now now h.2⟩
    | summary m recipient now ttlSecs | peek m recipient limit now ttlSecs
    | releasePush m now minIntervalSecs => exact ⟨h.1, hrely .now now h.2.1, h.2.2⟩
    | _ => exact h
  | _ => exact h

section Wallet

variable {prim : Primitives} {mediator : Mediator} {resolver : Resolver} {requester : String}
  {session : Option ℕ} {mayAdd : String → Prop} {message : Message} {recipient : Option String}
  {rely : (e : Effect) → Surroundings.Reply e → Prop}

/-- A status request acts on the queue of the requester only. -/
theorem status_onBehalf {live : Bool} :
    (Pickup.status mediator requester recipient message live).run.Ensures rely
      (OnBehalfOf mediator rely requester session mayAdd) fun _ => True := by
  refine ensures_lift_bind.mpr ⟨trivial, fun now hnow => ?_⟩
  refine ensures_store_bind.mpr ⟨⟨rfl, hnow, rfl⟩, fun _ _ => trivial, fun summary _ => ?_⟩
  exact ensures_lift_bind.mpr ⟨trivial, fun _ _ => ⟨trivial, fun _ _ => trivial⟩⟩

/-- A delivery request acts on the queue of the requester only. -/
theorem deliveryRequest_onBehalf {live : Bool} :
    (Pickup.deliveryRequest mediator requester recipient message live).run.Ensures rely
      (OnBehalfOf mediator rely requester session mayAdd) fun _ => True := by
  unfold Pickup.deliveryRequest
  split
  · trivial
  · trivial
  · refine ensures_lift_bind.mpr ⟨trivial, fun now hnow => ?_⟩
    refine ensures_store_bind.mpr ⟨⟨rfl, hnow, rfl⟩, fun _ _ => trivial, fun queued _ => ?_⟩
    split
    · exact status_onBehalf
    · exact ensures_lift_bind.mpr ⟨trivial, fun _ _ => ⟨trivial, fun _ _ => trivial⟩⟩

/-- Acknowledging messages acts on the queue of the requester only. -/
theorem messagesReceived_onBehalf {live : Bool} :
    (Pickup.messagesReceived mediator requester recipient message live).run.Ensures rely
      (OnBehalfOf mediator rely requester session mayAdd) fun _ => True := by
  unfold Pickup.messagesReceived
  split
  · trivial
  · exact ensures_store_bind.mpr ⟨rfl, fun _ _ => trivial, fun _ _ => status_onBehalf⟩

/-- Switching live delivery acts on the requester's own session and queue. -/
theorem liveDeliveryChange_onBehalf :
    (Pickup.liveDeliveryChange mediator requester recipient message session).run.Ensures rely
      (OnBehalfOf mediator rely requester session mayAdd) fun _ => True := by
  unfold Pickup.liveDeliveryChange
  split
  · trivial
  · trivial
  · exact ensures_lift_bind.mpr ⟨⟨rfl, rfl⟩, fun _ _ => status_onBehalf⟩
  · exact ensures_lift_bind.mpr ⟨rfl, fun _ _ => status_onBehalf⟩
  · exact status_onBehalf

/-- Whatever its type, a pickup message acts on behalf of the requester. -/
theorem handleType_onBehalf {live : Bool} :
    (Pickup.handleType mediator requester recipient message session live).run.Ensures rely
      (OnBehalfOf mediator rely requester session mayAdd) fun _ => True := by
  unfold Pickup.handleType
  split_ifs
  · exact status_onBehalf
  · exact deliveryRequest_onBehalf
  · exact messagesReceived_onBehalf
  · exact liveDeliveryChange_onBehalf
  · trivial

/-- A pickup message for one recipient acts on behalf of the requester. -/
theorem handleFor_onBehalf :
    (Pickup.handleFor mediator requester recipient message session).run.Ensures rely
      (OnBehalfOf mediator rely requester session mayAdd) fun _ => True := by
  refine ensures_lift_bind.mpr ?_
  cases session with
  | none => exact handleType_onBehalf
  | some s => exact ⟨rfl, fun _ _ => handleType_onBehalf⟩

/-- A pickup message acts on behalf of the requester, whether it names a recipient or not. -/
theorem handleFiltered_onBehalf :
    (Pickup.handleFiltered mediator requester message session).run.Ensures rely
      (OnBehalfOf mediator rely requester session mayAdd) fun _ => True := by
  unfold Pickup.handleFiltered
  split
  · exact handleFor_onBehalf
  · exact handleFor_onBehalf
  · refine ensures_store_bind.mpr ⟨rfl, fun _ _ => trivial, fun recipients _ => ?_⟩
    split_ifs
    · trivial
    · exact handleFor_onBehalf
  · trivial

/-- Message Pickup names the requester's mediation only. -/
theorem pickup_onBehalf :
    (Pickup.handle mediator requester message session).run.Ensures rely
      (OnBehalfOf mediator rely requester session mayAdd) fun _ => True := by
  refine ensures_store_bind.mpr ⟨rfl, fun _ _ => trivial, fun mediated _ => ?_⟩
  split_ifs
  · trivial
  · refine Program.Ensures.seq ?_ fun _ => handleFiltered_onBehalf
    unfold pickedUp
    split
    · exact ensures_lift_bind.mpr
        ⟨trivial, fun now hnow => ⟨⟨rfl, hnow, rfl⟩, fun _ _ => trivial⟩⟩
    · trivial

/-- A push protocol's messages set and read the devices of a mediation that was found. -/
theorem handleName_onBehalf {service : Store.Service} {name : String}
    (hknown : Known rely requester) :
    (Devices.handleName requester service name message).run.Ensures rely
      (OnBehalfOf mediator rely requester session mayAdd) fun _ => True := by
  unfold Devices.handleName
  split_ifs
  · unfold Devices.set
    split
    · trivial
    · refine ensures_store_bind.mpr ⟨⟨rfl, hknown⟩, fun _ _ => trivial, fun _ _ => ?_⟩
      exact ensures_lift_bind.mpr ⟨trivial, fun _ _ => ⟨trivial, fun _ _ => trivial⟩⟩
  · refine ensures_store_bind.mpr ⟨rfl, fun _ _ => trivial, fun devices _ => ?_⟩
    exact ensures_lift_bind.mpr ⟨trivial, fun _ _ => ⟨trivial, fun _ _ => trivial⟩⟩
  · trivial

/-- The push protocols name the requester's mediation only. -/
theorem devices_onBehalf :
    (Devices.handle mediator requester message).run.Ensures rely
      (OnBehalfOf mediator rely requester session mayAdd) fun _ => True := by
  unfold Devices.handle
  split
  · trivial
  · split
    · trivial
    · refine ensures_store_bind.mpr ⟨rfl, fun _ _ => trivial, fun mediated hmediated => ?_⟩
      split
      · trivial
      · rename_i hgranted
        exact handleName_onBehalf (known_of_hasMediation hmediated hgranted)

/-- A proof lets `requester` add `did`, checked at one of `readings` of the clock. -/
structure Proven (prim : Primitives) (mediator : Mediator) (resolver : Resolver)
    (readings : ℕ → Prop) (requester did token : String) : Prop where
  /-- It is a JWT signed with an authentication key of the DID, whose claims are for this mediator
  on behalf of the requester, and recent. -/
  proof : ∃ jwt kid claims now, SignedBy prim resolver token kid did jwt ∧
    prim.possession.fromSlice jwt.payload = .ok claims ∧ claims.iss = did ∧
    claims.aud = mediator.identity.did ∧ claims.sub = requester ∧ readings now ∧
    now ≤ claims.iat + proofMaxAgeSecs ∧ claims.iat ≤ now + proofMaxSkewSecs

/-- The DIDs an update may add: the requester's own and those it proves, or any if the mediator asks
for no proof. -/
def MayAdd (prim : Primitives) (mediator : Mediator) (resolver : Resolver) (readings : ℕ → Prop)
    (requester : String) (update : Value) (did : String) : Prop :=
  mediator.limits.recipientProof → did ≠ requester → ∃ token,
    update.get "proof" = some (.string token) ∧
      Proven prim mediator resolver readings requester did token

/-- Claims that are accepted are those of the DID, for this mediator and this requester, and they
are recent. -/
theorem checkClaims_sound {did : String} {proof : PossessionProof} {now : ℕ} (hnow : now < maxClock)
    (h : checkClaims mediator requester did proof now = .ok ()) :
    proof.iss = did ∧ proof.aud = mediator.identity.did ∧ proof.sub = requester ∧
      now ≤ proof.iat + proofMaxAgeSecs ∧ proof.iat ≤ now + proofMaxSkewSecs := by
  simp only [checkClaims, guard_eq_ok, ne_eq, not_not, not_or, not_lt] at h
  obtain ⟨hiss, haud, hsub, ⟨hage, hskew⟩, -⟩ := h
  refine ⟨hiss, haud, hsub, ?_, ?_⟩
  all_goals
    simp only [addU64, proofMaxAgeSecs, proofMaxSkewSecs, maxClock] at *
    omega

/-- A check that passes lets the requester add the DID. -/
theorem checkProof_ensures {guar : Effect → Prop} (hnow : guar .now)
    (hclock : ∀ now, rely .now now → now < maxClock) {did : String} {update : Value} :
    (checkProof prim mediator resolver requester did update).Ensures rely guar fun result =>
      result = .ok () → MayAdd prim mediator resolver (rely .now) requester update did := by
  unfold checkProof
  split_ifs with hskip
  -- no proof is asked for, or the mediation adds itself
  · intro _ hproof hne
    simp [hproof, hne] at hskip
  · split
    · exact nofun
    · rename_i token htoken
      split
      · exact nofun
      · rename_i proof hunpack
        refine ⟨hnow, fun now hreading hok => fun _ _ => ?_⟩
        obtain ⟨hiss, haud, hsub, hage, hskew⟩ := checkClaims_sound (hclock now hreading) hok
        obtain ⟨jwt, kid, hsigned, hclaims⟩ := PossessionProof.unpack_sound prim hunpack
        -- the token that was checked is the update's own
        have hmember : update.get "proof" = some (.string token) := by
          cases hget : update.get "proof" with
          | none => simp [hget] at htoken
          | some v => cases v <;> simp_all [Value.asStr]
        exact ⟨token, hmember,
          ⟨jwt, kid, proof, now, hiss ▸ hsigned, hclaims, hiss, haud, hsub, hreading, hage, hskew⟩⟩

/-- The DIDs that one of `updates` asks to add and may. -/
def Adds (prim : Primitives) (mediator : Mediator) (resolver : Resolver) (readings : ℕ → Prop)
    (requester : String) (updates : List Value) (did : String) : Prop :=
  ∃ update ∈ updates, member "recipient_did" update = did ∧ member "action" update = "add" ∧
    MayAdd prim mediator resolver readings requester update did

/-- An update adds a recipient to the mediation of the requester only, and only one that the update
may add. -/
theorem updateRecipient_onBehalf (hknown : Known rely requester)
    (hclock : ∀ now, rely .now now → now < maxClock) {updates : List Value} {update : Value}
    (hmem : update ∈ updates) :
    (updateRecipient prim mediator resolver requester (member "recipient_did" update)
      (member "action" update) update).run.Ensures rely
      (OnBehalfOf mediator rely requester session
        (Adds prim mediator resolver (rely .now) requester updates))
      fun _ => True := by
  unfold updateRecipient
  split
  · trivial
  · split
    · rename_i hadd
      refine ensures_lift_bind.mpr ((checkProof_ensures trivial hclock).imp
        fun result hproved => ?_)
      cases result with
      | error e => trivial
      | ok u =>
        -- the add comes after the check, with what the check has shown
        refine ensures_store_bind.mpr
          ⟨⟨rfl, hknown, rfl, update, hmem, rfl, hadd, hproved rfl⟩, fun _ _ => trivial,
            fun result _ => ?_⟩
        cases result <;> trivial
    · split
      · refine ensures_store_bind.mpr ⟨rfl, fun _ _ => trivial, fun result _ => ?_⟩
        cases result <;> trivial
      · trivial

/-- A list of updates acts on behalf of the requester, by induction on the updates. -/
theorem updateRecipients_onBehalf (session : Option ℕ) (hknown : Known rely requester)
    (hclock : ∀ now, rely .now now → now < maxClock) {all updates : List Value}
    (hsub : ∀ update ∈ updates, update ∈ all) :
    (updateRecipients prim mediator resolver requester updates).run.Ensures rely
      (OnBehalfOf mediator rely requester session
        (Adds prim mediator resolver (rely .now) requester all))
      fun _ => True := by
  induction updates with
  | nil => trivial
  | cons update updates ih =>
    rw [List.forall_mem_cons] at hsub
    refine Program.Ensures.seq (updateRecipient_onBehalf hknown hclock hsub.1) fun result => ?_
    exact Program.Ensures.seq (ih hsub.2) fun _ => trivial

/-- The DIDs a `recipient-update` may add. -/
def AddedBy (prim : Primitives) (mediator : Mediator) (resolver : Resolver) (readings : ℕ → Prop)
    (requester : String) (message : Message) (did : String) : Prop :=
  message.type_ = recipientUpdate ∧ ∃ updates, message.body.get "updates" = some (.array updates) ∧
    Adds prim mediator resolver readings requester updates did

/-- Coordinate Mediation names the requester's mediation only, and adds what a `recipient-update`
may add. -/
theorem mediation_onBehalf (hclock : ∀ now, rely .now now → now < maxClock) :
    (Mediation.handle prim mediator resolver requester message).run.Ensures rely
      (OnBehalfOf mediator rely requester session
        (AddedBy prim mediator resolver (rely .now) requester message)) fun _ => True := by
  unfold Mediation.handle
  split_ifs with hrequest hupdate hquery
  -- a request grants the requester its own mediation
  · refine ensures_lift_bind.mpr ⟨trivial, fun now hnow => ?_⟩
    refine ensures_store_bind.mpr ⟨⟨rfl, hnow⟩, fun _ _ => trivial, fun _ _ => ?_⟩
    exact ensures_lift_bind.mpr ⟨trivial, fun _ _ => ⟨trivial, fun _ _ => trivial⟩⟩
  · refine ensures_store_bind.mpr ⟨rfl, fun _ _ => trivial, fun mediated hmediated => ?_⟩
    split
    · trivial
    · rename_i hgranted
      split
      · trivial
      · rename_i updates hupdates
        -- the updates come from the message's body
        have harray : message.body.get "updates" = some (.array updates) := by
          cases hget : message.body.get "updates" with
          | none => simp [hget] at hupdates
          | some v => cases v <;> simp_all [Value.asArray]
        refine Program.Ensures.seq ?_ fun updated =>
          ensures_lift_bind.mpr ⟨trivial, fun _ _ => ⟨trivial, fun _ _ => trivial⟩⟩
        refine (updateRecipients_onBehalf session (known_of_hasMediation hmediated hgranted) hclock
          fun _ h => h).mono (fun _ _ h => h) (fun e he => he.imp (fun _ _ h => h)
            fun did hadds => ?_)
          fun _ h => h
        exact ⟨hupdate, updates, harray, hadds⟩
  · refine ensures_store_bind.mpr ⟨rfl, fun _ _ => trivial, fun mediated _ => ?_⟩
    split
    · trivial
    · refine ensures_store_bind.mpr ⟨rfl, fun _ _ => trivial, fun all _ => ?_⟩
      split
      · trivial
      · exact ensures_lift_bind.mpr ⟨trivial, fun _ _ => ⟨trivial, fun _ _ => trivial⟩⟩
  · trivial

/-- The protocols between a wallet and its mediator name the requester's mediation only. -/
theorem handleWallet_onBehalf (hclock : ∀ now, rely .now now → now < maxClock) :
    (handleWallet prim mediator resolver (some requester) message session).run.Ensures rely
      (OnBehalfOf mediator rely requester session
        (AddedBy prim mediator resolver (rely .now) requester message)) fun _ => True := by
  refine ensures_lift_bind.mpr ⟨trivial, fun now hnow => ?_⟩
  refine ensures_store_bind.mpr ⟨⟨rfl, hnow⟩, fun _ _ => trivial, fun _ _ => ?_⟩
  split
  · exact pickup_onBehalf
  · split
    · exact mediation_onBehalf hclock
    · exact devices_onBehalf

end Wallet

/-! ## Carrying messages -/

/-- What carrying a message to its recipient takes, after the replies in `rely`. -/
def Carries (mediator : Mediator) (rely : (e : Effect) → Surroundings.Reply e → Prop) :
    Effect → Prop
  | .store (.mediationOf _) | .store (.scheduleRelay _ _ _) => True
  | .store (.enqueue m _ _ now limits) =>
    rely .now now ∧ limits = mediator.limits.queue ∧ Known rely m
  | .now | .uuid | .supply | .isLive _ | .notify _ _ | .post _ _ | .spawnWake _
  | .spawnDeliver _ _ => True
  | _ => False

section Carrying

variable {prim : Primitives} {mediator : Mediator} {resolver : Resolver} {message : Message}
  {rely : (e : Effect) → Surroundings.Reply e → Prop}

/-- Waking the devices of a mediation carries a message further and does nothing else. -/
theorem wake_carries {mediation : String} :
    (wake mediator mediation).Ensures rely (Carries mediator rely) fun _ => True := by
  unfold wake
  split
  · refine ⟨trivial, fun live _ => ?_⟩
    cases live with
    | true => trivial
    | false => exact ⟨trivial, fun _ _ => trivial⟩
  · trivial

/-- Queueing a message adds it to a mediation that was found. -/
theorem queue_carries {mediation recipient payload : String} (hknown : Known rely mediation) :
    (queue mediator mediation recipient payload).run.Ensures rely
      (Carries mediator rely) fun _ => True := by
  refine ensures_lift_bind.mpr ⟨trivial, fun now hnow => ?_⟩
  refine Program.Ensures.seq (ensures_orRefuse.mpr ⟨⟨hnow, rfl, hknown⟩, fun _ _ =>
    trivial⟩) fun id => ?_
  cases id with
  | none => trivial
  | some id => exact ⟨trivial, fun _ _ => trivial⟩

/-- Queueing payloads for a mediation that is known carries them, by induction on the payloads. -/
theorem queueEach_carries {mediation recipient : String} {payloads : List String}
    (hknown : Known rely mediation) :
    (queueEach mediator mediation recipient payloads).run.Ensures rely
      (Carries mediator rely) fun _ => True := by
  induction payloads with
  | nil => trivial
  | cons payload payloads ih => exact Program.Ensures.seq (queue_carries hknown) fun _ => ih

/-- Delivering to an endpoint POSTs and stores relays and does nothing else. -/
theorem deliver_carries {uri payload : String} {post : Unit → Prop} (hpost : post ()) :
    (deliver prim uri payload).Ensures rely (Carries mediator rely) post := by
  refine ⟨trivial, fun posted _ => ?_⟩
  cases posted with
  | ok _ => exact hpost
  | error _ => exact ⟨trivial, fun _ _ => ⟨trivial, fun _ _ => hpost⟩⟩

/-- Relaying payloads to the next hop carries them, by induction on the payloads. -/
theorem relay_carries {next : String} {payloads : List String} :
    (relay prim mediator resolver next payloads).run.Ensures rely
      (Carries mediator rely) fun _ => True := by
  unfold relay
  split
  -- payload by payload; a refusal ends the relay
  · induction payloads with
    | nil => trivial
    | cons payload payloads ih =>
      refine ensures_lift_bind.mpr (ensures_call.mpr ⟨trivial, fun supply _ => ?_⟩)
      split
      · trivial
      · split
        · trivial
        · split
          · trivial
          · exact ensures_lift_bind.mpr (deliver_carries ih)
  · trivial

/-- A `forward` carries its payloads. -/
theorem forward_carries :
    (forward prim mediator resolver message).run.Ensures rely
      (Carries mediator rely) fun _ => True := by
  unfold forward
  split
  · trivial
  · refine ensures_orRefuse_bind.mpr ⟨trivial, fun _ _ => trivial, fun owner howner => ?_⟩
    cases owner with
    | none => exact relay_carries
    | some mediation =>
      -- `mediation_of` named the mediation that the payloads are queued for.
      have hknown : Known rely mediation := ⟨_, _, howner, rfl⟩
      exact Program.Ensures.seq (queueEach_carries hknown) fun _ => ensures_lift.mpr wake_carries

/-- Packing a reply draws randomness and does nothing else. -/
theorem packReply_carries {reply : Message} {recipient : String} {wrapped : Bool}
    {post : Option PackedMessage → Prop} (hpost : ∀ packed, post packed) :
    (packReply prim mediator resolver reply recipient wrapped).Ensures rely
      (Carries mediator rely) post := by
  refine Program.ensures_bind.mpr (ensures_call.mpr ⟨trivial, fun supply _ => ?_⟩)
  split <;> exact hpost _

/-- Sending a reply carries it to the sender, over a queue of this mediator or an endpoint. -/
theorem sendReply_carries {reply : Message} {sender : String} {post : Unit → Prop}
    (hpost : post ()) :
    (sendReply prim mediator resolver reply sender).Ensures rely (Carries mediator rely)
      post := by
  refine Program.ensures_bind.mpr (ensures_store.mpr ⟨trivial, fun owner howner => ?_⟩)
  rcases owner with _ | _ | mediation
  · exact hpost
  -- the sender is not mediated here, so the reply is relayed
  · change (relayReply _ _ _ _ _).Ensures _ _ _
    unfold relayReply
    split
    · refine Program.ensures_bind.mpr (packReply_carries fun packed => ?_)
      split
      · exact hpost
      · split
        · exact hpost
        · exact ⟨trivial, fun _ _ => hpost⟩
    · exact hpost
  -- the sender is mediated here, so the reply is queued
  · have hknown : Known rely mediation := ⟨_, _, howner, rfl⟩
    refine Program.ensures_bind.mpr (packReply_carries fun packed => ?_)
    cases packed with
    | none => exact hpost
    | some packed =>
      refine Program.ensures_bind.mpr ((queue_carries hknown).imp fun queued _ => ?_)
      cases queued with
      | ok _ => exact wake_carries.imp fun _ _ => hpost
      | error _ => exact hpost

/-- Routing a reply back carries it, over the connection or to the sender. -/
theorem routeBack_carries {request reply : Message} {websocket authenticated : Bool} :
    (routeBack prim mediator resolver request reply websocket authenticated).Ensures rely
      (Carries mediator rely) fun _ => True := by
  unfold routeBack
  split
  · trivial
  · split
    · refine Program.ensures_bind.mpr (packReply_carries fun packed => ?_)
      cases packed <;> trivial
    · split
      · exact Program.ensures_bind.mpr (sendReply_carries trivial)
      · trivial

/-- An answer is carried to the sender. -/
theorem answer_carries {handled : Handled} {websocket authenticated : Bool} :
    (answer prim mediator resolver message handled websocket authenticated).Ensures rely
      (Carries mediator rely) fun _ => True := by
  cases handled with
  | nothing => trivial
  | reply reply => exact routeBack_carries
  | problem problem =>
    exact Program.ensures_bind.mpr ⟨trivial, fun _ _ => ⟨trivial, fun _ _ => routeBack_carries⟩⟩

/-- A live delivery asks for the session's mediation and is packed for it. -/
theorem liveDelivery_carries {session : ℕ} {queued : Store.Queued} :
    (liveDelivery prim mediator resolver session queued).Ensures rely
      (fun e : Effect => Carries mediator rely e ∨ e = .liveMediation session) fun _ => True := by
  refine Program.ensures_bind.mpr (ensures_call.mpr ⟨.inr rfl, fun live _ => ?_⟩)
  split
  · trivial
  · refine Program.ensures_bind.mpr
      (ensures_newMessage.mpr ⟨.inl trivial, fun _ _ => ⟨.inl trivial, fun _ _ => ?_⟩⟩)
    have hpack : ∀ reply recipient, (packReply prim mediator resolver reply recipient false).Ensures
        rely (Carries mediator rely) fun _ => True := fun _ _ => packReply_carries fun _ => trivial
    exact Program.ensures_bind.mpr
      ((hpack _ _).mono (fun _ _ h => h) (fun _ h => .inl h) fun _ _ => trivial)

end Carrying

/-! ## Periodic tasks -/

/-- What retrying relays and the cleanup may do. -/
def Chore : Effect → Prop
  | .store (.dueRelays _ _ _) | .store (.finishRelay _) | .store (.scheduleRelay _ _ _)
  | .store (.removeIdleMediations _ _) => True
  | .now | .post _ _ => True
  | _ => False

section Chores

variable {rely : (e : Effect) → Surroundings.Reply e → Prop}

/-- Settling a relay after a retry is a chore of the worker. -/
theorem settle_chore {now : ℕ} {relay : Store.PendingRelay} {posted : Except String Unit} :
    (settle now relay posted).run.Ensures rely Chore fun _ => True := by
  unfold settle
  split
  · exact ⟨trivial, fun _ _ => trivial⟩
  · split
    · exact Program.Ensures.seq (ensures_store.mpr ⟨trivial, fun _ _ => trivial⟩) fun _ => trivial
    · exact ⟨trivial, fun _ _ => trivial⟩

/-- Retrying the due relays leases them, posts each and settles it. -/
theorem retryDue_chore {now : ℕ} : (retryDue now).run.Ensures rely Chore fun _ => True := by
  refine ensures_store_bind.mpr ⟨trivial, fun _ _ => trivial, fun relays hrelays => ?_⟩
  clear hrelays
  induction relays with
  | nil => trivial
  | cons relay relays ih =>
    refine ensures_lift_bind.mpr ⟨trivial, fun posted _ => ?_⟩
    exact Program.Ensures.seq settle_chore fun _ => ih

/-- The cleanup only removes idle mediations. -/
theorem removeIdle_chore {ttlSecs now batches : ℕ} :
    (removeIdle ttlSecs now batches).run.Ensures rely Chore fun _ => True := by
  unfold removeIdle
  induction batches with
  | zero => trivial
  | succ batches ih =>
    refine ensures_store_bind.mpr ⟨trivial, fun _ _ => trivial, fun removed _ => ?_⟩
    split
    · trivial
    · exact Program.Ensures.seq ih fun _ => trivial

end Chores

/-! ## Waking devices -/

/-- A job was answered that the device is registered, and that the turn of its mediation is the
job's. -/
structure Woken (rely : (e : Effect) → Surroundings.Reply e → Prop) (mediator : Mediator)
    (mediation : String) (service : Store.Service) (token : String) : Prop where
  registered : ∃ devices device, rely (.store (.devices mediation)) (.ok devices) ∧
    (service, device) ∈ devices ∧ device.token = token
  configured : service ∈ mediator.pusher.getD []
  claimed : ∃ now, rely (.store (.claimPush mediation now mediator.limits.queue.ttlSecs)) (.ok true)

/-- What waking the devices of a mediation may do: it claims the turn of a mediation that has
devices for the TTL of queued messages, pushes in that turn, and forgets the tokens the push service
rejected. -/
def Wakes (mediator : Mediator) (rely : (e : Effect) → Surroundings.Reply e → Prop)
    (mediation : String) : Effect → Prop
  | .store (.devices m) => m = mediation
  | .store (.claimPush m now holdSecs) =>
    m = mediation ∧ rely .now now ∧ holdSecs = mediator.limits.queue.ttlSecs ∧ Known rely mediation
  | .store (.removeDevice m service token) =>
    m = mediation ∧ rely (.push service token) (.ok .invalidToken)
  | .push service token => Woken rely mediator mediation service token
  | .now => True
  | _ => False

section Waking

variable {mediator : Mediator} {rely : (e : Effect) → Surroundings.Reply e → Prop}

/-- The devices left to wake are registered devices of configured services. -/
theorem wakeEach_wakes {mediation : String} {devices : List (Store.Service × Store.Device)}
    (hwoken : ∀ entry ∈ devices, Woken rely mediator mediation entry.1 entry.2.token) :
    (Push.wakeEach mediation devices).run.Ensures rely (Wakes mediator rely mediation)
      fun _ => True := by
  induction devices with
  | nil => trivial
  | cons entry devices ih =>
    rw [List.forall_mem_cons] at hwoken
    refine ensures_lift_bind.mpr (ensures_call.mpr ⟨hwoken.1, fun sent hsent => ?_⟩)
    split
    · exact ensures_store_bind.mpr ⟨⟨rfl, hsent⟩, fun _ _ => trivial, fun _ _ => ih hwoken.2⟩
    · exact ih hwoken.2

/-- Waking a mediation's devices names that mediation only, and wakes registered devices in a
turn. -/
theorem wake_wakes {mediation : String} :
    (Push.wake (mediator.pusher.getD []) mediation mediator.limits.queue.ttlSecs).run.Ensures rely
      (Wakes mediator rely mediation) fun _ => True := by
  refine ensures_store_bind.mpr ⟨rfl, fun _ _ => trivial, fun all hall => ?_⟩
  dsimp only
  split
  · trivial
  · rename_i hsome
    -- Some device is left, so `devices` found the mediation.
    have hknown : Known rely mediation := by
      refine ⟨_, _, hall, rfl, ?_⟩
      rintro rfl
      exact hsome rfl
    refine ensures_lift_bind.mpr (ensures_call.mpr ⟨trivial, fun now hnow => ?_⟩)
    refine ensures_store_bind.mpr
      ⟨⟨rfl, hnow, rfl, hknown⟩, fun _ _ => trivial, fun claimed hclaimed => ?_⟩
    split
    · rename_i htrue
      obtain rfl : claimed = true := htrue
      refine wakeEach_wakes fun entry hentry => ?_
      obtain ⟨hregistered, hconfigured⟩ := List.mem_filter.mp hentry
      exact ⟨⟨all, entry.2, hall, hregistered, rfl⟩, List.contains_iff_mem.mp hconfigured, now,
        hclaimed⟩
    · trivial

end Waking

/-! ## Messages -/

section Messages

variable {prim : Primitives} {mediator : Mediator} {resolver : Resolver} {session : Option ℕ}
  {rely : (e : Effect) → Surroundings.Reply e → Prop} {guar : Effect → Prop}

/-- Handling a message carries the payloads of a `forward`, and is done on the requester's behalf
otherwise. -/
theorem handleMessage_ensures (hclock : ∀ now, rely .now now → now < maxClock)
    {requester : Option String} {message : Message}
    (hforward : message.type_ = forwardType → ∀ e, Carries mediator rely e → guar e)
    (hnow : guar .now) (huuid : guar .uuid)
    (hwallet : ∀ r, requester = some r → ∀ e,
      OnBehalfOf mediator rely r session
        (AddedBy prim mediator resolver (rely .now) r message) e → guar e) :
    (handleMessage prim mediator resolver requester message session).run.Ensures rely guar
      fun _ => True := by
  unfold handleMessage
  split_ifs with htype
  -- a forward acts for whoever sent it, everything else for the requester
  · exact Program.Ensures.seq
      (forward_carries.mono (fun _ _ h => h) (hforward htype) fun _ h => h) fun _ => trivial
  · refine Program.Ensures.seq (ensures_lift.mpr ?_) fun response => ?_
    · unfold trustPing
      split
      · exact ⟨huuid, fun _ _ => ⟨hnow, fun _ _ => trivial⟩⟩
      · trivial
    · cases response <;> trivial
  · refine Program.Ensures.seq (ensures_lift.mpr ?_) fun disclosed => ?_
    · unfold discoverFeatures
      split
      · trivial
      · split
        · trivial
        · exact ⟨huuid, fun _ _ => ⟨hnow, fun _ _ => trivial⟩⟩
    · cases disclosed <;> trivial
  · trivial
  · rw [ensures_orRefuse]
    cases requester with
    | none => trivial
    | some r =>
      exact (handleWallet_onBehalf hclock).mono (fun _ _ h => h) (hwallet r rfl) fun _ _ => trivial
  · trivial

/-- Handling an envelope carries messages, and does what its authenticated sender may ask for. -/
theorem handle_ensures (hclock : ∀ now, rely .now now → now < maxClock) {packed : String}
    (hcarries : ∀ e, Carries mediator rely e → guar e)
    (hwallet : ∀ message metadata r,
      unpack prim resolver mediator.identity.secrets packed = .ok (message, metadata) →
      metadata.authenticated → message.from_ = some r → ∀ e,
        OnBehalfOf mediator rely r session
          (AddedBy prim mediator resolver (rely .now) r message) e → guar e) :
    (handle prim mediator resolver packed session).run.Ensures rely guar fun _ => True := by
  unfold handle
  split
  · trivial
  · rename_i message metadata hunpack
    split
    · trivial
    -- the clock is read once, before anything is decided
    · refine ensures_lift_bind.mpr (ensures_call.mpr ⟨hcarries _ trivial, fun now _ => ?_⟩)
      refine Program.Ensures.seq ?_ fun handled => ?_
      · unfold handleAt
        split
        · trivial
        · refine handleMessage_ensures hclock (fun _ => hcarries) (hcarries _ trivial)
            (hcarries _ trivial) fun r hr => ?_
          -- only an authenticated sender is a requester
          simp only [Option.filter_eq_some_iff] at hr
          exact hwallet message metadata r hunpack hr.2 hr.1
      · exact ensures_lift.mpr (answer_carries.mono (fun _ _ h => h) hcarries fun _ h => h)

/-- What a job may do: chores, waking devices, carrying messages, and what the authenticated sender
of a message asks for. -/
theorem program_ensures (hclock : ∀ now, rely .now now → now < maxClock) {job : Job}
    (hcarries : ∀ e, Carries mediator rely e → guar e) (hchore : ∀ e, Chore e → guar e)
    (hwakes : ∀ mediation e, Wakes mediator rely mediation e → guar e)
    (hlive : ∀ session, guar (.liveMediation session))
    (hwallet : ∀ resolver packed session message metadata r,
      job = .receive resolver packed session →
      unpack prim resolver mediator.identity.secrets packed = .ok (message, metadata) →
      metadata.authenticated → message.from_ = some r → ∀ e,
        OnBehalfOf mediator rely r session
          (AddedBy prim mediator resolver (rely .now) r message) e → guar e) :
    (job.program prim mediator).Ensures rely guar fun _ => True := by
  cases job with
  | receive resolver packed session =>
    exact ensures_void.mpr (handle_ensures hclock hcarries fun message metadata r =>
      hwallet resolver packed session message metadata r rfl)
  -- a live push packs for the session's mediation and reads nothing else
  | livePush resolver session queued =>
    refine ensures_void.mpr (liveDelivery_carries.mono (fun _ _ h => h) (fun e he => ?_)
      fun _ h => h)
    rcases he with he | rfl
    · exact hcarries e he
    · exact hlive session
  | wake mediation =>
    exact ensures_void.mpr (wake_wakes.mono (fun _ _ h => h) (hwakes mediation) fun _ h => h)
  | deliver uri message =>
    have hdeliver : (deliver prim uri message).Ensures rely (Carries mediator rely)
        fun _ => True := deliver_carries trivial
    exact hdeliver.mono (fun _ _ h => h) hcarries fun _ h => h
  | retry =>
    refine Program.ensures_bind.mpr (ensures_call.mpr ⟨hchore _ trivial, fun now _ => ?_⟩)
    exact ensures_void.mpr (retryDue_chore.mono (fun _ _ h => h) hchore fun _ h => h)
  | cleanup batches =>
    dsimp only [Job.program]
    split
    · trivial
    · refine Program.ensures_bind.mpr (ensures_call.mpr ⟨hchore _ trivial, fun now _ => ?_⟩)
      exact ensures_void.mpr (removeIdle_chore.mono (fun _ _ h => h) hchore fun _ h => h)

end Messages

end Dispatch
