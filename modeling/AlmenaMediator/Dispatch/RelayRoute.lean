import AlmenaMediator.Dispatch.Authority
import AlmenaMediator.Dispatch.Loopback

/-!
# Routes that come back

What the mediator relays goes along the route that strangers' DID documents give. The guard against
routes that lead back here looks at the first hop and at the HTTP endpoints: a route may still name
the mediator as a later hop, or its WebSocket endpoint.
-/

namespace Dispatch

open Didcomm

/-- The endpoints of the mediator's own document. -/
def allEndpoints (mediator : Mediator) : List String :=
  (mediator.identity.document.didcommServices.flatMap fun s =>
    match s.didcommEndpoints with
    | .ok endpoints => endpoints
    | .error _ => []).map DidCommEndpoint.uri

/-- The mediator is nowhere on the route: the URI is none of its endpoints and no hop is its. -/
def OffRoute (mediator : Mediator) (plan : Route) : Prop :=
  plan.uri ∉ allEndpoints mediator ∧ ∀ hop ∈ plan.routingKeys, didOf hop ≠ mediator.identity.did

/-- What the guard does not look at is clear of the mediator: the hops after the first, and the
endpoints other than the HTTP one. -/
def ClearBeyond (mediator : Mediator) (plan : Route) : Prop :=
  (plan.uri ∈ allEndpoints mediator → endsWith plan.uri didcommPath) ∧
    ∀ hop ∈ plan.routingKeys.tail, didOf hop ≠ mediator.identity.did

/-- The call posts the message to the URI, or schedules that for later. -/
def Sends (uri message : String) : Effect → Prop
  | .post u m => u = uri ∧ m = message
  | .store (.scheduleRelay relay _ _) => relay.uri = uri ∧ relay.message = message
  | _ => False

/-- A route the guard lets through, and a message wrapped for it. -/
structure LetThrough (prim : Primitives) (mediator : Mediator) (resolver : Resolver) (next : String)
    (uri message : String) : Prop where
  plan : ∃ plan, routePlan resolver next = .ok (some plan) ∧ plan.uri = uri ∧
    plan.routingKeys.head?.map didOf ≠ some mediator.identity.did ∧
    ∃ supply payload, wrapForHops prim resolver supply .a256CbcHs512 (didOf next) plan.routingKeys
      payload = .ok message
  endpoint : uri ∉ ownEndpoints mediator

section Relay

variable {prim : Primitives} {mediator : Mediator} {resolver : Resolver} {next : String}

/-- The own endpoints are those of the mediator that end in the path of DIDComm. -/
theorem mem_ownEndpoints {uri : String} :
    uri ∈ ownEndpoints mediator ↔ uri ∈ allEndpoints mediator ∧ endsWith uri didcommPath :=
  List.mem_filter

/-- A routed message is wrapped for the hops of the plan. -/
theorem route_eq_ok {supply : Supply} {payload uri : String} {enc : ContentEncryption}
    {routed : Routed} (h : route prim resolver supply payload next enc = .ok routed)
    (huri : routed.serviceUri = some uri) :
    ∃ plan, routePlan resolver next = .ok (some plan) ∧ plan.uri = uri ∧
      routed.firstHop = plan.routingKeys.head? ∧
      wrapForHops prim resolver supply enc (didOf next) plan.routingKeys payload =
        .ok routed.message := by
  simp only [route, bind_eq_ok] at h
  obtain ⟨plan, hplan, h⟩ := h
  cases plan with
  | none =>
    obtain rfl := (pure_eq_ok.mp h).symm
    simp at huri
  | some plan =>
    simp only [bind_eq_ok, pure_eq_ok] at h
    obtain ⟨message, hwrap, rfl⟩ := h
    exact ⟨plan, hplan, Option.some.inj huri, rfl, hwrap⟩

section Sending

variable {rely : (e : Effect) → Surroundings.Reply e → Prop}

/-- Delivering a message to an endpoint sends this message there and no other. -/
theorem deliver_sends {uri message : String} {post : Unit → Prop} (hpost : post ()) :
    (deliver prim uri message).Ensures rely
      (fun e => ∀ u m, Sends u m e → u = uri ∧ m = message) post := by
  refine ⟨fun _ _ h => ⟨h.1.symm, h.2.symm⟩, fun posted _ => ?_⟩
  cases posted with
  | ok _ => exact hpost
  | error _ =>
    exact ⟨fun _ _ => False.elim, fun _ _ =>
      ⟨fun _ _ h => ⟨h.1.symm, h.2.symm⟩, fun _ _ => hpost⟩⟩

/-- What is relayed was let through. -/
theorem relay_sends {payloads : List String} :
    (relay prim mediator resolver next payloads).run.Ensures rely
      (fun e => ∀ uri message, Sends uri message e →
        LetThrough prim mediator resolver next uri message) fun _ => True := by
  unfold relay
  split
  -- payload by payload, and each is checked anew before it is posted
  · induction payloads with
    | nil => trivial
    | cons payload payloads ih =>
      refine ensures_lift_bind.mpr (ensures_call.mpr ⟨fun _ _ => False.elim, fun supply _ => ?_⟩)
      split
      · trivial
      · rename_i routed hrouted
        split
        · trivial
        · rename_i uri huri
          split
          · trivial
          · rename_i hguard
            obtain ⟨plan, hplan, rfl, hfirst, hwrap⟩ := route_eq_ok hrouted huri
            -- the two tests of `relay`: the first hop, and the own endpoints
            rw [hfirst, not_or, List.contains_iff_mem] at hguard
            have hthrough : LetThrough prim mediator resolver next plan.uri routed.message :=
              ⟨⟨plan, hplan, rfl, hguard.1, supply, payload, hwrap⟩, hguard.2⟩
            have hdeliver : (deliver prim plan.uri routed.message).Ensures rely
                (fun e => ∀ uri message, Sends uri message e →
                  LetThrough prim mediator resolver next uri message) fun _ => True :=
              (deliver_sends trivial).mono (fun _ _ h => h) (fun e he uri message hsends => by
                obtain ⟨rfl, rfl⟩ := he uri message hsends
                exact hthrough) fun _ h => h
            exact ensures_lift_bind.mpr (hdeliver.imp fun _ _ => ih)
  · trivial

end Sending

/-- A route let through is off the mediator as far as the guard looks. -/
theorem LetThrough.offRoute_iff {uri message : String}
    (h : LetThrough prim mediator resolver next uri message) :
    ∃ plan, routePlan resolver next = .ok (some plan) ∧ plan.uri = uri ∧
      (OffRoute mediator plan ↔ ClearBeyond mediator plan) := by
  obtain ⟨⟨plan, hplan, rfl, hfirst, -⟩, hendpoint⟩ := h
  rw [mem_ownEndpoints, not_and] at hendpoint
  refine ⟨plan, hplan, rfl, fun hoff => ?_, fun hclear => ?_⟩
  · exact ⟨fun hown => absurd hown hoff.1, fun hop hmem => hoff.2 hop (List.mem_of_mem_tail hmem)⟩
  · refine ⟨fun hown => hendpoint hown (hclear.1 hown), fun hop hmem => ?_⟩
    cases hkeys : plan.routingKeys with
    | nil => simp [hkeys] at hmem
    | cons first rest =>
      rw [hkeys, List.mem_cons] at hmem
      rcases hmem with rfl | hmem
      · simpa [hkeys] using hfirst
      · exact hclear.2 hop (by simpa [hkeys] using hmem)

/-- Whatever is posted or scheduled goes along the route of `next`, and the mediator is off that
route exactly when it is no later hop and the URI is no endpoint of its own but the HTTP one. -/
theorem relay_off_route {σ : Type} {env : Program.Environment Surroundings σ} {s t : σ}
    {calls : List (Call Surroundings)} {payloads : List String} {result : Except ReceiveError Unit}
    (h : Program.Executes env (relay prim mediator resolver next payloads).run s calls result t)
    {uri message : String} (hsends : ∃ c ∈ calls, Sends uri message c.op) :
    ∃ plan, routePlan resolver next = .ok (some plan) ∧ plan.uri = uri ∧
      (∃ supply payload, wrapForHops prim resolver supply .a256CbcHs512 (didOf next)
        plan.routingKeys payload = .ok message) ∧
      (OffRoute mediator plan ↔ ClearBeyond mediator plan) := by
  have hrelay : (relay prim mediator resolver next payloads).run.Ensures (fun _ _ => True)
      (fun e => ∀ uri message, Sends uri message e →
        LetThrough prim mediator resolver next uri message) fun _ => True := relay_sends
  -- every call of the run is one the relay may make
  obtain ⟨-, -, hcalls⟩ := hrelay.sound (fun _ => True) (fun _ _ _ _ _ _ => ⟨trivial, trivial⟩)
    trivial h
  obtain ⟨c, hmem, hsend⟩ := hsends
  have hthrough := (hcalls c hmem).1 uri message hsend
  obtain ⟨plan, hplan, huri, hiff⟩ := hthrough.offRoute_iff
  obtain ⟨⟨plan', hplan', -, -, hwrapped⟩, -⟩ := hthrough
  obtain rfl : plan = plan' := by simpa [hplan] using hplan'
  exact ⟨plan, hplan, huri, hwrapped, hiff⟩

end Relay

/-! ### A route through two mediators and back -/

namespace RouteExample

open Didcomm.Loopback Loopback

/-- Federation is on. -/
def federated : Mediator := mediator
  { maxMessageBytes := 1000, queue := ⟨60, 10, 1000⟩, maxRecipientDids := 2,
    pushMinIntervalSecs := 0,
    recipientProof := false, mediationTtlSecs := 0 } true none

/-- The route that the document of `did:ex:n` asks for: through `did:ex:o`, and then through
here. -/
def plan : Route := ⟨"https://o/didcomm", ["did:ex:o", "did:ex:m"]⟩

/-- What DIDs resolve to. -/
def documents : Resolver := resolver fun did =>
  if did = "did:ex:n" then [didcommService plan.uri plan.routingKeys] else []

def prim : Primitives :=
  packages (fun _ => ⟨"", Message.new "" 0 "" .null⟩) self ⟨"", "", "", 0⟩

/-- Relaying a payload for `did:ex:n`. -/
def relaying : Task (Except ReceiveError Unit) :=
  (relay prim federated documents "did:ex:n" ["e"]).run

/-- The route of the example is planned as it is written out. -/
theorem planned : routePlan documents "did:ex:n" = .ok (some plan) := by decide +kernel

/-- The route of the example is not off this mediator's route: its last hop is the mediator itself.
-/
theorem not_offRoute : ¬ OffRoute federated plan := fun h =>
  h.2 "did:ex:m" (by decide) (by decide)

/-- The example's forward is POSTed to the mediator's own endpoint. -/
theorem posted : ∃ c ∈ relaying.trace (calm 1000) .empty, Sends "https://o/didcomm" "e" c.op := by
  have h : (relaying.trace (calm 1000) .empty).any
      (fun c => decide (c.op = .post "https://o/didcomm" "e")) := by decide +kernel
  obtain ⟨c, hmem, hpost⟩ := List.any_eq_true.mp h
  exact ⟨c, hmem, by simp [of_decide_eq_true hpost, Sends]⟩

end RouteExample

open RouteExample Loopback in
/-- A payload is posted along a route that comes back to the mediator. -/
theorem relayed_back :
    ∃ calls result t, Program.Executes (around Store.MemoryStep)
        (relay RouteExample.prim federated documents "did:ex:n" ["e"]).run .empty calls result t ∧
      (∃ c ∈ calls, Sends "https://o/didcomm" "e" c.op) ∧
      routePlan documents "did:ex:n" = .ok (some plan) ∧ plan.uri = "https://o/didcomm" ∧
      ¬ OffRoute federated plan :=
  ⟨_, _, _, (Program.run_executes (calm 1000) relaying .empty).mono fun _ _ _ =>
    calm_around (by decide), posted, planned, rfl, not_offRoute⟩

open RouteExample Loopback in
/-- It is not off the route, and a later hop is its own. -/
theorem relay_off_route_back :
    ∃ plan, routePlan documents "did:ex:n" = .ok (some plan) ∧
      (OffRoute federated plan ↔ ClearBeyond federated plan) := by
  have hexec : Program.Executes (around Store.MemoryStep)
      (relay RouteExample.prim federated documents "did:ex:n" ["e"]).run .empty _ _ _ :=
    (Program.run_executes (calm 1000) relaying .empty).mono fun _ _ _ => calm_around (by decide)
  obtain ⟨plan, hplan, -, -, hiff⟩ := relay_off_route hexec posted
  exact ⟨plan, hplan, hiff⟩

end Dispatch
