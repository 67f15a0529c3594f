import AlmenaMediator.Didcomm.Loopback
import AlmenaMediator.Dispatch.Receive
import AlmenaMediator.Store.Memory

/-!
# A mediator by itself

A mediator over an in-process store in surroundings that answer every call at once and in one way,
with packages that encrypt nothing: what it does with a message can be computed.
-/

namespace Dispatch.Loopback

open Didcomm Didcomm.Loopback

/-- The mediator's DID. -/
def self : String := "did:ex:m"

/-- A mediator with these settings. -/
def mediator (limits : Limits) (federation : Bool) (pusher : Option (List Store.Service)) :
    Mediator where
  identity := ⟨self, document [] self, secrets⟩
  limits := limits
  federation := federation
  pusher := pusher

/-- Surroundings in which the clock stands at `now`, nobody is live, posts fail and push services
reject every token. -/
def calm (now : ℕ) : Handler Surroundings Store.Inner := fun e inner =>
  match e with
  | .store op => Store.memory inner.seen op inner
  | .now => (now, inner)
  | .uuid => ("u", inner)
  | .supply => (supply, inner)
  | .liveMediation _ => (none, inner)
  | .isLive _ => (false, inner)
  | .post _ _ => (.error "refused", inner)
  | .push _ _ => (.ok .invalidToken, inner)
  | .enable _ _ | .disable _ | .notify _ _ | .spawnWake _ | .spawnDeliver _ _ => ((), inner)

/-- Such surroundings are possible. -/
theorem calm_around {now : ℕ} (hnow : now < maxClock) {s t : Store.Inner} {c : Call Surroundings}
    (h : Program.Handled (calm now) s c t) : around Store.MemoryStep s c t := by
  obtain ⟨op, reply⟩ := c
  obtain ⟨rfl, rfl⟩ := h.eq
  cases op with
  | store op => exact ⟨s.seen, .refl _, Program.handled _ _ _⟩
  | now => exact ⟨hnow, rfl⟩
  | _ => rfl

/-- An envelope is handled as the message in it. -/
theorem handle_eq {mails : ℕ → Mail} {n : UInt8} {message : Message} {sender : String}
    {m : Mediator} {proof : PossessionProof} {services : String → List Service} {session : Option ℕ}
    (hsecrets : m.identity.secrets = secrets) (hmail : mails n.toNat = ⟨sender, message⟩)
    (hsender : didOf (kid sender) = sender) (hfrom : message.from_ = some sender)
    (hto : message.to_ = none) (hprior : message.fromPrior = none)
    (hvalid : message.validate = .ok ()) :
    handle (packages mails self proof) m (resolver services) (envelope n) session =
      handleUnpacked (packages mails self proof) m (resolver services) message
        (metadata sender self) session := by
  rw [handle, hsecrets, unpack_eq hmail hsender hfrom hto hprior hvalid]
  rfl

/-- A job that runs without interruption in calm surroundings. -/
theorem executes_calm (prim : Primitives) (m : Mediator) (job : Job) {now : ℕ}
    (hnow : now < maxClock) (s : Store.Inner) :
    Program.Executes (around Store.MemoryStep) (job.program prim m) s
      ((job.program prim m).trace (calm now) s) () ((job.program prim m).run (calm now) s).2 :=
  (Program.run_executes (calm now) (job.program prim m) s).mono fun _ _ _ => calm_around hnow

end Dispatch.Loopback
