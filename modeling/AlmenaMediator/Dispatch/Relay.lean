import AlmenaMediator.Dispatch.Basic

/-!
# Relaying to other mediators

`dispatch/relay.rs`: passing a `forward` payload on to the mediator that mediates its `next`
recipient. The first attempt happens before answering; if it fails the payload goes to the store and
`retryDue` tries it again with backoff.
-/

namespace Dispatch

open Didcomm

variable (prim : Primitives)

/-- Seconds before each retry after the first attempt. -/
def backoff : List ℕ := [5, 30, 120, 600]

/-- Relays waiting for a retry, at most. -/
def maxPending : ℕ := 1000

/-- How long a relay being tried is kept from other workers. -/
def leaseSecs : ℕ := 60

/-- Relays tried per round. -/
def batch : ℕ := 16

/-- The path of the HTTP endpoint (`identity.rs`). -/
def didcommPath : String := "/didcomm"

/-- The same payload for the same destination is one relay. -/
def relayId (uri message : String) : String :=
  b64Encode (prim.sha256 (utf8 uri ++ [0] ++ utf8 message))

/-- The HTTP endpoints of the mediator's own document. -/
def ownEndpoints (mediator : Mediator) : List String :=
  let endpoints := mediator.identity.document.didcommServices.flatMap fun s =>
    match s.didcommEndpoints with
    | .ok endpoints => endpoints
    | .error _ => []
  (endpoints.map DidCommEndpoint.uri).filter fun uri => endsWith uri didcommPath

/-- A relay that has not been retried yet. -/
def newRelay (uri message : String) : Store.PendingRelay where
  id := relayId prim uri message
  uri := uri
  message := message
  retries := 0

/-- First attempt now; on failure, stored for `retryDue`. -/
def deliver (uri message : String) : Task Unit := do
  let posted : Except String Unit ← call (.post uri message)
  match posted with
  | .ok _ => return ()
  | .error _ => do
    let now : ℕ ← call .now
    let _ ← (store (.scheduleRelay (newRelay prim uri message)
      (now + backoff.headD 0) maxPending)).run
    return ()

/-- Relays each payload along the route of `next`. -/
def relayEach (mediator : Mediator) (resolver : Resolver) (next : String) :
    List String → Handling Unit
  | [] => return ()
  | payload :: payloads => do
    let supply : Supply ← call .supply
    match route prim resolver supply payload next .a256CbcHs512 with
    | .error _ => refuse .unknownRecipient
    | .ok routed =>
      match routed.serviceUri with
      | none => refuse .unknownRecipient
      | some uri =>
        -- A route that comes back to this mediator: nowhere to deliver.
        if routed.firstHop.map didOf = some mediator.identity.did ∨
            (ownEndpoints mediator).contains uri then
          refuse .unknownRecipient
        else do
          deliver prim uri routed.message
          relayEach mediator resolver next payloads

/-- Passes payloads on to the mediator that mediates `next`, when federation is on. -/
def relay (mediator : Mediator) (resolver : Resolver) (next : String) (payloads : List String) :
    Handling Unit :=
  if mediator.federation then relayEach prim mediator resolver next payloads
  else refuse .unknownRecipient

/-- What a worker does with a relay after trying it: an entry delivered or given up is finished, any
other is stored again with one more retry. -/
def settle (now : ℕ) (relay : Store.PendingRelay) (posted : Except String Unit) : StoreTask Unit :=
  match posted with
  | .ok _ => store (.finishRelay relay.id)
  | .error _ =>
    match backoff[relay.retries + 1]? with
    | some wait => do
      let _ ← store (.scheduleRelay { relay with retries := relay.retries + 1 } (now + wait)
        maxPending)
      return ()
    | none => store (.finishRelay relay.id)

/-- Tries each relay once. -/
def retryEach (now : ℕ) : List Store.PendingRelay → StoreTask Unit
  | [] => return ()
  | relay :: relays => do
    let posted : Except String Unit ← call (.post relay.uri relay.message)
    settle now relay posted
    retryEach now relays

/-- Tries the relays due by `now` once each; the ones that fail again are rescheduled, or dropped
after the last retry. -/
def retryDue (now : ℕ) : StoreTask Unit := do
  let relays : List Store.PendingRelay ← store (.dueRelays now leaseSecs batch)
  retryEach now relays

end Dispatch
