import AlmenaMediator.Didcomm.Pack
import AlmenaMediator.Didcomm.Unpack
import AlmenaMediator.Store.Basic

/-!
# The mediator and its surroundings

`dispatch/mod.rs`: the mediator's configuration, and what a message handler calls as it goes: the
store, the clock, the live hub, the transport, the push services, and tasks it starts. Handlers are
programs over these effects. Logs and metrics are left out. What DIDs resolve to is a function for
the length of one message.
-/

namespace Dispatch

open Didcomm (Message Resolver Secrets DidDocument Supply Primitives Value)

/-- Limits the mediator enforces. -/
structure Limits where
  maxMessageBytes : ℕ
  queue : Store.QueueLimits
  maxRecipientDids : ℕ
  /-- Least time between two pushes to one mediation. -/
  pushMinIntervalSecs : ℕ
  /-- Registering a recipient DID other than the mediation's own needs a possession proof signed by
  that DID. -/
  recipientProof : Bool
  /-- A mediation whose wallet sends nothing for this long is removed with all it owns; 0 keeps
  mediations forever. -/
  mediationTtlSecs : ℕ
  deriving DecidableEq, Repr

/-- The mediator's DID, DID document and private keys (`identity.rs`). -/
structure Identity where
  did : String
  document : DidDocument
  secrets : Secrets

/-- The mediator. -/
structure Mediator where
  identity : Identity
  limits : Limits
  /-- Whether there is a transport to other mediators: federation. -/
  federation : Bool
  /-- The services of the pusher; `none` turns push off. -/
  pusher : Option (List Store.Service)

/-- What a push service said about one push (`push/mod.rs`). -/
inductive Sent
  | delivered
  /-- The token is no longer valid; it should be forgotten. -/
  | invalidToken
  deriving DecidableEq, Repr

/-- What the mediator calls. A live-capable connection is known by its session's number. -/
inductive Effect
  /-- A method of the store. -/
  | store (op : Store.Op)
  /-- `message::now`. -/
  | now
  /-- The id of a new message. -/
  | uuid
  /-- What packing a message draws from its surroundings. -/
  | supply
  /-- `Session::live_mediation`. -/
  | liveMediation (session : ℕ)
  /-- `LiveHub::enable`. -/
  | enable (session : ℕ) (mediation : String)
  /-- `LiveHub::disable`. -/
  | disable (session : ℕ)
  /-- `LiveHub::is_live`. -/
  | isLive (mediation : String)
  /-- `LiveHub::notify`. -/
  | notify (mediation : String) (queued : Store.Queued)
  /-- `Transport::post_didcomm`. -/
  | post (uri message : String)
  /-- `Pusher::wake`. -/
  | push (service : Store.Service) (token : String)
  /-- Starts a task that wakes the mediation's devices. -/
  | spawnWake (mediation : String)
  /-- Starts a task that delivers a message to another mediator. -/
  | spawnDeliver (uri message : String)
  deriving DecidableEq, Repr

namespace Effect

/-- What an effect is answered with. -/
@[reducible] def Reply : Effect → Type
  | store op => Except Store.StoreError op.Answer
  | now => ℕ
  | uuid => String
  | supply => Supply
  | liveMediation .. => Option String
  | isLive .. => Bool
  | post .. => Except String Unit
  | push .. => Except String Sent
  | enable .. | disable .. | notify .. | spawnWake .. | spawnDeliver .. => Unit

end Effect

/-- The mediator's surroundings. -/
abbrev Surroundings : Interface where
  Op := Effect
  Reply := Effect.Reply

/-- What runs in the mediator. -/
abbrev Task (α : Type) : Type := Program Surroundings α

/-- Calls one effect. -/
def call (e : Effect) : Task e.Reply := Program.request (I := Surroundings) e

/-- Why a message was not accepted. None of these can be answered over DIDComm: the envelope did not
open, or it was a `forward`, whose sender is anonymous by design. -/
inductive ReceiveError
  | unpack (error : Didcomm.Error)
  | badForward (reason : String)
  /-- The forward's next recipient is not mediated here. -/
  | unknownRecipient
  /-- The recipient's queue is full. -/
  | queueFull
  | store (error : Store.StoreError)
  deriving DecidableEq, Repr

/-- What the HTTP layer should answer after a message was accepted. -/
inductive Outcome
  /-- Processed; nothing goes back on this connection. -/
  | accepted
  /-- Processed; this encrypted reply goes back on this connection. -/
  | reply (packed : String)
  deriving DecidableEq, Repr

/-- A task that may stop at a storage failure (`anyhow::Result`). -/
abbrev StoreTask (α : Type) : Type := ExceptT Store.StoreError (Program Surroundings) α

/-- Handling a message, which may end with it refused. -/
abbrev Handling (α : Type) : Type := ExceptT ReceiveError (Program Surroundings) α

/-- Calls a method of the store. -/
def store (op : Store.Op) : StoreTask op.Answer := ExceptT.mk (call (.store op))

/-- A storage failure refuses the message (`From<anyhow::Error>`). -/
def orRefuse {α : Type} (t : StoreTask α) : Handling α := ExceptT.adapt ReceiveError.store t

/-- Refuses the message. -/
def refuse {α : Type} (error : ReceiveError) : Handling α := throw error

/-- `Message::new`: a message with a fresh id, created now. -/
def newMessage (type_ : String) (body : Value) : Task Message := do
  let id : String ← call .uuid
  let now : ℕ ← call .now
  return Message.new id now type_ body

/-- Runs a task for what it does only. -/
def void {α : Type} (t : Task α) : Task Unit := do
  let _ ← t
  return ()

/-- The clock is far from where `u64` seconds wrap. -/
def maxClock : ℕ := 2 ^ 63

/-- Surroundings with a store that answers as `env` does and changes at nothing else; the other
effects get any answer, the clock's below `maxClock`. -/
def around {σ : Type} (env : Program.Environment Store.StoreCall σ) :
    Program.Environment Surroundings σ := fun s c t =>
  match c with
  | ⟨.store op, answer⟩ => env s ⟨op, answer⟩ t
  | ⟨.now, now⟩ => now < maxClock ∧ t = s
  | _ => t = s

/-- What a call does to the store: its methods change it as `env` says, and nothing else does. -/
def onStore {σ : Type} (env : Program.Environment Store.StoreCall σ) :
    Program.Environment Surroundings σ := fun s c t =>
  match c with
  | ⟨.store op, answer⟩ => env s ⟨op, answer⟩ t
  | _ => t = s

/-- In such surroundings only the methods change the store. -/
theorem around_onStore {σ : Type} {env : Program.Environment Store.StoreCall σ} {s t : σ}
    {c : Call Surroundings} (h : around env s c t) : onStore env s c t := by
  obtain ⟨op, reply⟩ := c
  cases op with
  | now => exact h.2
  | _ => exact h

/-- A call of the clock is answered below `maxClock`. -/
def readsClock : Call Surroundings → Prop
  | ⟨.now, now⟩ => now < maxClock
  | _ => True

/-- Every reading of the clock around a store is one of the mediator's range. -/
theorem around_clock {σ : Type} {env : Program.Environment Store.StoreCall σ} {s t : σ}
    {c : Call Surroundings} (h : around env s c t) : readsClock c := by
  obtain ⟨op, reply⟩ := c
  cases op with
  | now => exact h.1
  | _ => trivial

/-! ## Rules -/

section Rules

variable {rely : (e : Effect) → Surroundings.Reply e → Prop} {guar : Effect → Prop} {ε α : Type}

/-- An effect ensures what holds of every reply to be relied on, if it is a guaranteed one. -/
@[simp] theorem ensures_call {e : Effect} {post : e.Reply → Prop} :
    (call e).Ensures rely guar post ↔ guar e ∧ ∀ r, rely e r → post r := Iff.rfl

/-- A task that cannot fail ensures in a failing program what it ensures by itself. -/
@[simp] theorem ensures_lift {t : Task α} {post : Except ε α → Prop} :
    (liftM t : ExceptT ε (Program Surroundings) α).run.Ensures rely guar post ↔
      t.Ensures rely guar fun a => post (.ok a) := by
  change (t >>= fun a => pure (Except.ok a)).Ensures rely guar post ↔ _
  rw [Program.ensures_bind]
  rfl

/-- A call of the store ensures what holds of every answer to be relied on, if the call is
guaranteed. -/
@[simp] theorem ensures_store {op : Store.Op} {post : Except Store.StoreError op.Answer → Prop} :
    (store op).run.Ensures rely guar post ↔
      guar (.store op) ∧ ∀ answer, rely (.store op) answer → post answer := Iff.rfl

/-- The rule for a store call that others follow. -/
theorem ensures_store_bind {op : Store.Op} {f : op.Answer → StoreTask α}
    {post : Except Store.StoreError α → Prop} :
    (store op >>= f).run.Ensures rely guar post ↔
      guar (.store op) ∧ (∀ e, rely (.store op) (.error e) → post (.error e)) ∧
        ∀ a, rely (.store op) (.ok a) → (f a).run.Ensures rely guar post := by
  rw [Program.ensures_exceptT_bind, ensures_store]
  refine and_congr_right fun _ => ⟨fun h => ⟨fun e => h (.error e), fun a => h (.ok a)⟩, ?_⟩
  rintro ⟨herror, hok⟩ (e | a) hrely
  · exact herror e hrely
  · exact hok a hrely

/-- The rule for an effect that others follow. -/
theorem ensures_lift_bind {β : Type} {t : Task α} {f : α → ExceptT ε (Program Surroundings) β}
    {post : Except ε β → Prop} :
    ((liftM t : ExceptT ε (Program Surroundings) α) >>= f).run.Ensures rely guar post ↔
      t.Ensures rely guar fun a => (f a).run.Ensures rely guar post := by
  rw [Program.ensures_exceptT_bind, ensures_lift]

/-- Refusing a store error ensures what holds of the results with the error wrapped. -/
@[simp] theorem ensures_orRefuse {t : StoreTask α} {post : Except ReceiveError α → Prop} :
    (orRefuse t).run.Ensures rely guar post ↔
      t.run.Ensures rely guar fun result => post (result.mapError ReceiveError.store) := by
  change ((t.run >>= fun result => pure (result.mapError ReceiveError.store)) : Task _).Ensures
    rely guar post ↔ _
  rw [Program.ensures_bind]
  rfl

/-- The rule for a store call that refuses the message when it fails, and that others follow. -/
theorem ensures_orRefuse_bind {op : Store.Op} {f : op.Answer → Handling α}
    {post : Except ReceiveError α → Prop} :
    (orRefuse (store op) >>= f).run.Ensures rely guar post ↔
      guar (.store op) ∧ (∀ e, rely (.store op) (.error e) → post (.error (.store e))) ∧
        ∀ a, rely (.store op) (.ok a) → (f a).run.Ensures rely guar post := by
  rw [Program.ensures_exceptT_bind, ensures_orRefuse, ensures_store]
  refine and_congr_right fun _ => ⟨fun h => ⟨fun e => h (.error e), fun a => h (.ok a)⟩, ?_⟩
  rintro ⟨herror, hok⟩ (e | a) hrely
  · exact herror e hrely
  · exact hok a hrely

/-- A new message takes one id and one reading of the clock. -/
@[simp] theorem ensures_newMessage {type_ : String} {body : Value} {post : Message → Prop} :
    (newMessage type_ body).Ensures rely guar post ↔
      guar .uuid ∧ ∀ id, rely .uuid id → guar .now ∧ ∀ now, rely .now now →
        post (Message.new id now type_ body) := Iff.rfl

/-- Leaving a result out leaves out what was ensured of it. -/
@[simp] theorem ensures_void {t : Task α} :
    (void t).Ensures rely guar (fun _ => True) ↔ t.Ensures rely guar fun _ => True :=
  Program.ensures_bind

end Rules

end Dispatch
