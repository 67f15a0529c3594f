import AlmenaMediator.Didcomm.UnpackSoundness
import AlmenaMediator.Dispatch.Authority
import AlmenaMediator.Dispatch.Loopback
import AlmenaMediator.Store.Mailbox

/-!
# What a wallet picks up

The mediator over an in-process store, handling one message or background task after the other by a
clock that never goes back. A `delivery-request` is answered from the mailbox: with the messages
queued for the mediation and not acknowledged since, in order, as far as they have not expired.
-/

namespace Dispatch

open Didcomm

/-- An in-process store, the latest reading of the clock, and the history of method calls. -/
structure Logged where
  store : Store.Inner
  clock : ℕ
  log : List (Call Store.StoreCall)

/-- A mediator that has just started. -/
def Logged.start : Logged := ⟨.empty, 0, []⟩

/-- Surroundings whose clock never goes back and which log the calls of the store; the other effects
get any answer. -/
def ticking : Program.Environment Surroundings Logged := fun s c t =>
  match c with
  | ⟨.store op, answer⟩ =>
    ∃ inner, Store.MemoryStep s.store ⟨op, answer⟩ inner ∧
      t = ⟨inner, s.clock, s.log ++ [⟨op, answer⟩]⟩
  | ⟨.now, now⟩ => s.clock ≤ now ∧ now < maxClock ∧ t = { s with clock := now }
  | _ => t = s

/-- One job, run to its end. -/
def JobStep (prim : Primitives) (mediator : Mediator) (s : Logged) (job : Job)
    (t : Logged) : Prop :=
  ∃ calls, Program.Executes ticking (job.program prim mediator) s calls () t

/-! ## Times -/

/-- The clock reads no more than `clock`. -/
def Before (clock : ℕ) (e : Effect) (r : Surroundings.Reply e) : Prop :=
  match (⟨e, r⟩ : Call Surroundings) with
  | ⟨.now, now⟩ => now ≤ clock ∧ now < maxClock
  | _ => True

/-- A store call is given the mediator's TTL and a time no later than `clock`. -/
def Timely (mediator : Mediator) (clock : ℕ) : Effect → Prop
  | .store op => op.Timely mediator.limits.queue.ttlSecs clock
  | _ => True

section Times

variable {prim : Primitives} {mediator : Mediator} {clock : ℕ} {e : Effect}
  {rely : (e : Effect) → Surroundings.Reply e → Prop}

/-- A message is queued at a reading of the clock, under the mediator's limits. -/
theorem Carries.timely (h : Carries mediator rely e)
    (hreadings : ∀ now, rely .now now → now ≤ clock) : Timely mediator clock e := by
  cases e with
  | store op =>
    cases op with
    | enqueue m recipient message now limits =>
      obtain ⟨hnow, rfl, -⟩ := h
      exact ⟨hreadings now hnow, rfl⟩
    | mediationOf | scheduleRelay => trivial
    | _ => exact h.elim
  | _ => trivial

/-- Waking devices reads no queue. -/
theorem Wakes.timely {mediation : String} (h : Wakes mediator rely mediation e) :
    Timely mediator clock e := by
  cases e with
  | store op =>
    cases op with
    | enqueue | summary | peek => exact h.elim
    | _ => trivial
  | _ => trivial

/-- The periodic tasks read no queue. -/
theorem Chore.timely (h : Chore e) : Timely mediator clock e := by
  cases e with
  | store op =>
    cases op with
    | enqueue | summary | peek => exact h.elim
    | _ => trivial
  | _ => trivial

/-- A queue is read for the requester at a reading of the clock. -/
theorem OnBehalfOf.timely {requester : String} {session : Option ℕ} {mayAdd : String → Prop}
    (h : OnBehalfOf mediator rely requester session mayAdd e)
    (hreadings : ∀ now, rely .now now → now ≤ clock) : Timely mediator clock e := by
  cases e with
  | store op =>
    cases op with
    | summary | peek => exact ⟨hreadings _ h.2.1, h.2.2⟩
    | enqueue => exact h.elim
    | _ => trivial
  | _ => trivial

/-- Every job gives the store timely times. -/
theorem program_timely {job : Job} :
    (job.program prim mediator).Ensures (Before clock) (Timely mediator clock) fun _ => True :=
  program_ensures (fun _ h => h.2) (fun _ h => h.timely fun _ h => h.1) (fun _ h => h.timely)
    (fun _ _ h => h.timely) (fun _ => trivial) fun _ _ _ _ _ _ _ _ _ _ _ h => h.timely
      fun _ h => h.1

variable {α : Type} {p : Task α} {s t : Logged} {calls : List (Call Surroundings)} {a : α}

/-- No reading is later than the clock in the end. -/
theorem before_of_executes (h : Program.Executes ticking p s calls a t) :
    s.clock ≤ t.clock ∧ ∀ c ∈ calls, Before t.clock c.op c.reply := by
  induction h with
  | done => exact ⟨le_rfl, by simp⟩
  | @call op next r s u t calls a hstep _ ih =>
    rw [List.forall_mem_cons]
    cases op with
    | store op =>
      obtain ⟨inner, -, rfl⟩ := hstep
      exact ⟨ih.1, trivial, ih.2⟩
    | now =>
      obtain ⟨hle, hmax, rfl⟩ := hstep
      exact ⟨hle.trans ih.1, ⟨ih.1, hmax⟩, ih.2⟩
    | _ =>
      obtain rfl : u = s := hstep
      exact ⟨ih.1, trivial, ih.2⟩

/-- The queues are those of the mailboxes, as far as the clock has come. -/
def Kept (mediator : Mediator) (s : Logged) : Prop :=
  Store.Holds mediator.limits.queue.ttlSecs s.clock s.log s.store

/-- A program that is timely keeps the mailboxes. -/
theorem Kept.executes {guar : Effect → Prop} {post : α → Prop}
    (hp : p.Ensures (Before t.clock) guar post) (hguar : ∀ e, guar e → Timely mediator t.clock e)
    (h : Program.Executes ticking p s calls a t) (hkept : Kept mediator s) : Kept mediator t := by
  obtain ⟨hclock, hbefore⟩ := before_of_executes h
  -- the mailbox is kept by each timely call of the store
  refine (hp.sound (fun u => Store.Holds mediator.limits.queue.ttlSecs t.clock u.log u.store) ?_
    (hkept.later hclock) h.among).2.1
  rintro u ⟨op, reply⟩ v hholds hop ⟨hstep, hmem⟩
  refine ⟨hbefore _ hmem, ?_⟩
  cases op with
  | store op =>
    obtain ⟨inner, hstore, rfl⟩ := hstep
    exact hholds.step hstore (hguar _ hop)
  | now =>
    obtain ⟨-, -, rfl⟩ := hstep
    exact hholds
  | _ =>
    obtain rfl : v = u := hstep
    exact hholds

/-- Every run keeps the mailboxes. -/
theorem kept_of_run {jobs : List Job}
    (hrun : Transition.Run (JobStep prim mediator) .start jobs s) : Kept mediator s := by
  induction hrun with
  | nil => exact Store.Holds.start
  | snoc _ hstep ih =>
    obtain ⟨calls, hexec⟩ := hstep
    exact ih.executes program_timely (fun _ h => h) hexec

end Times

/-! ## Pickup -/

/-- Nothing happened that a pickup by `m` depends on, but for the clock. -/
structure Quiet (mediator : Mediator) (m : String) (s t : Logged) : Prop where
  mailbox : Store.mailbox m t.log = Store.mailbox m s.log
  mediations : t.store.mediations = s.store.mediations
  recipients : t.store.recipients = s.store.recipients
  clock : s.clock ≤ t.clock
  kept : Kept mediator s → Kept mediator t

/-- The messages of `m` that a pickup gets at a time. -/
def due (mediator : Mediator) (m : String) (recipient : Option String) (limit now : ℕ)
    (log : List (Call Store.StoreCall)) : List Store.Queued :=
  (Store.Inner.matching recipient (Store.Inner.unexpired now mediator.limits.queue.ttlSecs
    (Store.mailbox m log))).take (min limit maxBatch)

/-- The delivery has an attachment for each of the messages, in order: its id, and its text when
decoded. -/
def Delivers (queued : List Store.Queued) (delivery : Message) : Prop :=
  List.Forall₂ (fun (q : Store.Queued) (a : Attachment) => a.id = some q.id ∧
    ∃ text, a.data.base64 = some text ∧ b64Decode text = .ok (utf8 q.message))
    queued (delivery.attachments.getD [])

/-- The answer to a pickup that gets these messages: a delivery, or a status if there are none. -/
def PickedUp (queued : List Store.Queued) (reply : Message) : Prop :=
  (queued = [] ∧ reply.type_ = statusType) ∨
    (queued ≠ [] ∧ reply.type_ = deliveryType ∧ Delivers queued reply)

/-- What a `delivery-request` asks for: the messages for `recipient`, one of the requester's, or
all. -/
def AsksFor (message : Message) (recipients : List String) : Option String → Prop
  | none => message.body.get "recipient_did" = none ∨ message.body.get "recipient_did" = some .null
  | some did => message.body.get "recipient_did" = some (.string did) ∧ did ∈ recipients

section Pickup

variable {prim : Primitives} {mediator : Mediator} {resolver : Resolver} {m : String}
  {recipient : Option String} {message : Message} {session : Option ℕ} {limit : ℕ}
  {s t u : Logged} {calls : List (Call Surroundings)}

/-- A state is quiet towards itself. -/
theorem Quiet.refl (m : String) (s : Logged) : Quiet mediator m s s :=
  ⟨rfl, rfl, rfl, le_rfl, fun h => h⟩

/-- Two quiet steps make a quiet step. -/
theorem Quiet.trans (h : Quiet mediator m s t) (h' : Quiet mediator m t u) : Quiet mediator m s u :=
  ⟨h'.mailbox.trans h.mailbox, h'.mediations.trans h.mediations, h'.recipients.trans h.recipients,
    h.clock.trans h'.clock, fun hkept => h'.kept (h.kept hkept)⟩

/-- Reading the clock is quiet. -/
theorem Quiet.now {now : ℕ} (h : ticking s ⟨.now, now⟩ t) : Quiet mediator m s t := by
  obtain ⟨hle, -, rfl⟩ := h
  exact ⟨rfl, rfl, rfl, hle, fun hkept => hkept.later hle⟩

/-- A method that neither queues, discards nor changes mediations and their recipients. -/
theorem Quiet.store {op : Store.Op} {answer : Except Store.StoreError op.Answer}
    (h : ticking s ⟨.store op, answer⟩ t) (hqueues : Store.enqueued ⟨op, answer⟩ = [])
    (hdiscards : ∀ m id, Store.discards m id ⟨op, answer⟩ = false)
    (htimely : op.Timely mediator.limits.queue.ttlSecs s.clock)
    (hmediations : t.store.mediations = s.store.mediations)
    (hrecipients : t.store.recipients = s.store.recipients) : Quiet mediator m s t := by
  obtain ⟨inner, hstep, rfl⟩ := h
  exact ⟨Store.mailbox_snoc_same hqueues hdiscards m s.log, hmediations, hrecipients, le_rfl,
    fun hkept => hkept.step hstep htimely⟩

/-- What a store call answers and leaves. -/
theorem ticking_store {op : Store.Op} {answer : Except Store.StoreError op.Answer}
    (h : ticking s ⟨.store op, answer⟩ t) : ∃ order,
      answer = (Store.memory order op s.store).1 ∧ t.store = (Store.memory order op s.store).2 := by
  obtain ⟨inner, ⟨order, -, hstep⟩, rfl⟩ := h
  exact ⟨order, hstep.eq⟩

/-- Recording a contact is quiet. -/
theorem Quiet.touch {now : ℕ} {answer : Except Store.StoreError Unit}
    (h : ticking s ⟨.store (.touchMediation m now), answer⟩ t) : Quiet mediator m s t := by
  obtain ⟨order, -, hstore⟩ := ticking_store h
  obtain ⟨seen, heq⟩ := s.store.touchMediation_effect m now
  exact .store h rfl (fun _ _ => rfl) trivial (by simp [hstore, Store.memory, heq])
    (by simp [hstore, Store.memory, heq])

/-- Asking for a mediation is quiet, and the answer is what the store holds. -/
theorem Quiet.hasMediation {answer : Except Store.StoreError Bool}
    (h : ticking s ⟨.store (.hasMediation m), answer⟩ t) :
    answer = .ok (s.store.mediations m) ∧ Quiet mediator m s t := by
  obtain ⟨order, hanswer, hstore⟩ := ticking_store h
  exact ⟨hanswer, .store h rfl (fun _ _ => rfl) trivial (by rw [hstore]; rfl) (by rw [hstore]; rfl)⟩

/-- Asking for the recipients is quiet, and the answer is what the store holds. -/
theorem Quiet.recipientsOf {answer : Except Store.StoreError (List String)}
    (h : ticking s ⟨.store (.recipients m), answer⟩ t) :
    answer = .ok (s.store.recipients m) ∧ Quiet mediator m s t := by
  obtain ⟨order, hanswer, hstore⟩ := ticking_store h
  exact ⟨hanswer, .store h rfl (fun _ _ => rfl) trivial (by rw [hstore]; rfl) (by rw [hstore]; rfl)⟩

/-- The wallet's pickup is noted for its pushes. -/
theorem pickedUp_executes {result : Except Store.StoreError Unit}
    (h : Program.Executes ticking (pickedUp mediator m).run s calls result t) :
    result = .ok () ∧ Quiet mediator m s t := by
  unfold pickedUp at h
  split at h
  · cases h with
    | @call _ _ now _ u _ calls _ hnow h =>
      cases h with
      | @call _ _ answer _ v _ calls _ hrelease h =>
        obtain ⟨order, hanswer, hstore⟩ := ticking_store hrelease
        obtain ⟨marker, heq⟩ := u.store.releasePush_effect m now mediator.limits.pushMinIntervalSecs
        cases h
        refine ⟨hanswer, (Quiet.now hnow).trans
          (.store hrelease rfl (fun _ _ => rfl) trivial ?_ ?_)⟩
        · simp [hstore, Store.memory, heq]
        · simp [hstore, Store.memory, heq]
  · cases h
    exact ⟨rfl, .refl m s⟩

/-- Asking whether a session is live changes nothing. -/
theorem isLiveFor_executes {live : Bool}
    (h : Program.Executes ticking (isLiveFor session m) s calls live t) : t = s := by
  cases session with
  | none =>
    cases h
    rfl
  | some session =>
    cases h with
    | call hlive h =>
      obtain rfl := hlive
      cases h
      rfl

/-- Attachments are added in order, each of them the queued message. -/
theorem delivers_attach (queued : List Store.Queued) (delivery : Message)
    (hnone : delivery.attachments = none) :
    Delivers queued (queued.foldl Pickup.attach delivery) ∧
      (queued.foldl Pickup.attach delivery).type_ = delivery.type_ := by
  -- with what is attached already as the accumulator
  suffices h : ∀ (before : List Store.Queued) (delivery : Message), Delivers before delivery →
      Delivers (before ++ queued) (queued.foldl Pickup.attach delivery) ∧
        (queued.foldl Pickup.attach delivery).type_ = delivery.type_ from
    h [] delivery (by simp [Delivers, hnone])
  induction queued with
  | nil => exact fun before delivery h => ⟨by simpa using h, rfl⟩
  | cons q queued ih =>
    intro before delivery h
    have hattach : Delivers (before ++ [q]) (Pickup.attach delivery q) := by
      refine List.rel_append h (.cons ?_ .nil)
      exact ⟨rfl, _, rfl, b64Decode_b64Encode _⟩
    obtain ⟨hdelivers, htype⟩ := ih (before ++ [q]) _ hattach
    exact ⟨by simpa using hdelivers, htype⟩

/-- A status request is answered with a status. -/
theorem status_executes {live : Bool} {result : Except Store.StoreError Handled}
    (h : Program.Executes ticking (Pickup.status mediator m recipient
      message live).run s calls result t) :
      ∃ reply, result = .ok (.reply reply) ∧ reply.type_ = statusType := by
  cases h with
  | call _ h =>
    cases h with
    | @call _ _ answer _ u _ calls _ hsummary h =>
      obtain ⟨order, hanswer, -⟩ := ticking_store hsummary
      subst hanswer
      cases h with
      | call _ h =>
        cases h with
        | call _ h =>
          cases h
          exact ⟨_, rfl, rfl⟩

/-- A `delivery-request` reads the mailbox. -/
theorem deliveryRequest_executes {live : Bool} {result : Except Store.StoreError Handled}
    (hkept : Kept mediator s) (hlimit : (message.body.get "limit").bind Value.asU64 = some limit)
    (hpos : 0 < limit)
    (h : Program.Executes ticking
      (Pickup.deliveryRequest mediator m recipient message live).run s calls result t) :
    ∃ now reply, s.clock ≤ now ∧ now ≤ t.clock ∧ result = .ok (.reply reply) ∧
      PickedUp (due mediator m recipient limit now s.log) reply := by
  obtain ⟨k, rfl⟩ : ∃ k, limit = k + 1 := ⟨limit - 1, by omega⟩
  simp only [Pickup.deliveryRequest, hlimit] at h
  cases h with
  | @call _ _ now _ u _ calls _ hnow h =>
    obtain ⟨hclock, -, rfl⟩ := hnow
    cases h with
    | @call _ _ answer _ v _ calls _ hpeek h =>
      have hlast : now ≤ t.clock := by
        obtain ⟨inner, -, rfl⟩ := hpeek
        exact (before_of_executes h).1
      obtain ⟨order, hanswer, -⟩ := ticking_store hpeek
      -- what the store hands out is what is due by the log
      have hdue : answer = .ok (due mediator m recipient (k + 1) now s.log) := by
        rw [hanswer]
        exact congrArg Except.ok (hkept.peek_eq hclock m recipient _)
      subst hdue
      refine ⟨now, ?_⟩
      change Program.Executes ticking (ExceptT.run
        (if due mediator m recipient (k + 1) now s.log = []
        then _ else _)) _ _ _ _ at h
      split at h
      · rename_i hempty
        obtain ⟨reply, hresult, htype⟩ := status_executes h
        exact ⟨reply, hclock, hlast, hresult, .inl ⟨hempty, htype⟩⟩
      · rename_i hsome
        cases h with
        | call _ h =>
          cases h with
          | @call _ _ created _ w _ calls _ _ h =>
            cases h
            refine ⟨_, hclock, hlast, rfl, .inr ⟨hsome, ?_⟩⟩
            exact (delivers_attach (due mediator m recipient (k + 1) now s.log)
              ((Message.new _ _ deliveryType _).replyTo message) rfl).symm

/-- A delivery request for one recipient is answered with what is due to it at some time in between.
-/
theorem handleFor_executes {result : Except Store.StoreError Handled} (hkept : Kept mediator s)
    (htype : message.type_ = deliveryRequest)
    (hlimit : (message.body.get "limit").bind Value.asU64 = some limit) (hpos : 0 < limit)
    (h : Program.Executes ticking
      (Pickup.handleFor mediator m recipient message session).run s calls result t) :
    ∃ now reply, s.clock ≤ now ∧ now ≤ t.clock ∧ result = .ok (.reply reply) ∧
      PickedUp (due mediator m recipient limit now s.log) reply := by
  obtain ⟨calls₁, calls₂, live, u, -, hlive, hhandle⟩ := Program.Executes.bind_inv
    (p := (liftM (isLiveFor session m) : StoreTask Bool).run) h
  obtain ⟨calls₃, calls₄, live', v, -, hlive, hdone⟩ := Program.Executes.bind_inv
    (p := isLiveFor session m) hlive
  obtain rfl := isLiveFor_executes hlive
  cases hdone
  -- of the four types of pickup it is a delivery request
  have htypes : Pickup.handleType mediator m recipient message session live' =
      Pickup.deliveryRequest mediator m recipient message live' := by
    have hstatus : message.type_ ≠ statusRequest := by
      rw [htype]
      decide
    rw [Pickup.handleType, if_neg hstatus, if_pos htype]
  change Program.Executes ticking (Pickup.handleType mediator m recipient message session live').run
    _ _ _ _ at hhandle
  rw [htypes] at hhandle
  exact deliveryRequest_executes hkept hlimit hpos hhandle

/-- A delivery request that asks for a recipient of the mediation is answered with what is due to
it. -/
theorem handleFiltered_executes {result : Except Store.StoreError Handled} (hkept : Kept mediator s)
    (htype : message.type_ = deliveryRequest)
    (hlimit : (message.body.get "limit").bind Value.asU64 = some limit) (hpos : 0 < limit)
    (hasks : AsksFor message (s.store.recipients m) recipient)
    (h : Program.Executes ticking
      (Pickup.handleFiltered mediator m message session).run s calls result t) :
    ∃ now reply, s.clock ≤ now ∧ now ≤ t.clock ∧ result = .ok (.reply reply) ∧
      PickedUp (due mediator m recipient limit now s.log) reply := by
  cases recipient with
  | none =>
    -- no recipient is named, so the whole mailbox is asked for
    have hall : Pickup.handleFiltered mediator m message session =
        Pickup.handleFor mediator m none message session := by
      rcases hasks with hnone | hnull
      · simp only [Pickup.handleFiltered, hnone]
      · simp only [Pickup.handleFiltered, hnull]
    rw [hall] at h
    exact handleFor_executes hkept htype hlimit hpos h
  | some did =>
    obtain ⟨hdid, hmem⟩ := hasks
    simp only [Pickup.handleFiltered, hdid] at h
    cases h with
    | @call _ _ answer _ u _ calls _ hrecipients h =>
      obtain ⟨rfl, hquiet⟩ : answer = .ok (s.store.recipients m) ∧ Quiet mediator m s u :=
        Quiet.recipientsOf hrecipients
      -- the recipient that is named is one of the mediation
      have hregistered : (s.store.recipients m).contains did = true := by simpa using hmem
      change Program.Executes ticking (ExceptT.run (if !(s.store.recipients m).contains did then _
        else Pickup.handleFor mediator m (some did) message session)) _ _ _ _ at h
      rw [hregistered] at h
      obtain ⟨now, reply, hfirst, hlast, hresult, hpicked⟩ :=
        handleFor_executes (hquiet.kept hkept) htype hlimit hpos h
      rw [due, hquiet.mailbox] at hpicked
      exact ⟨now, reply, hquiet.clock.trans hfirst, hlast, hresult, hpicked⟩

/-- A delivery request of a mediation that is granted is answered with what is due. -/
theorem pickup_executes {result : Except Store.StoreError Handled} (hkept : Kept mediator s)
    (htype : message.type_ = deliveryRequest)
    (hlimit : (message.body.get "limit").bind Value.asU64 = some limit) (hpos : 0 < limit)
    (hmediated : s.store.mediations m) (hasks : AsksFor message (s.store.recipients m) recipient)
    (h : Program.Executes ticking (Pickup.handle mediator m message session).run s calls result t) :
    ∃ now reply, s.clock ≤ now ∧ now ≤ t.clock ∧ result = .ok (.reply reply) ∧
      PickedUp (due mediator m recipient limit now s.log) reply := by
  cases h with
  | @call _ _ answer _ u _ calls _ hhas h =>
    obtain ⟨rfl, hquiet⟩ : answer = .ok (s.store.mediations m) ∧ Quiet mediator m s u :=
      Quiet.hasMediation hhas
    rw [hmediated] at h
    obtain ⟨calls₁, calls₂, picked, v, rfl, hpicked, h⟩ := Program.Executes.bind_inv
      (p := (pickedUp mediator m).run) h
    obtain ⟨rfl, hquiet'⟩ := pickedUp_executes hpicked
    -- up to here the mailbox has not changed
    have hboth := hquiet.trans hquiet'
    have hasks' : AsksFor message (v.store.recipients m) recipient := by
      rw [hboth.recipients]
      exact hasks
    obtain ⟨now, reply, hfirst, hlast, hresult, hpicked⟩ :=
      handleFiltered_executes (hboth.kept hkept) htype hlimit hpos hasks' h
    rw [due, hboth.mailbox] at hpicked
    exact ⟨now, reply, hboth.clock.trans hfirst, hlast, hresult, hpicked⟩

/-- A delivery request that has not expired is answered with what is due. -/
theorem handleAt_executes {n : ℕ} {result : Except ReceiveError Handled} (hkept : Kept mediator s)
    (htype : message.type_ = deliveryRequest)
    (hlimit : (message.body.get "limit").bind Value.asU64 = some limit) (hpos : 0 < limit)
    (hmediated : s.store.mediations m) (hasks : AsksFor message (s.store.recipients m) recipient)
    (hexpired : message.isExpiredAt n = false)
    (h : Program.Executes ticking
      (handleAt prim mediator resolver n (some m) message session).run s calls result t) :
    ∃ now reply, s.clock ≤ now ∧ now ≤ t.clock ∧ result = .ok (.reply reply) ∧
      PickedUp (due mediator m recipient limit now s.log) reply := by
  -- the message is neither expired nor of a type that is handled before the wallet's
  have hwallet : handleAt prim mediator resolver n (some m) message session =
      orRefuse (handleWallet prim mediator resolver (some m) message session) := by
    rw [handleAt, hexpired, if_neg Bool.false_ne_true]
    simp only [handleMessage, htype]
    rfl
  have hpickup : startsWith message.type_ pickup = true := by
    rw [htype]
    decide
  rw [hwallet] at h
  obtain ⟨calls₁, calls₂, handled, u, -, hhandle, hadapt⟩ := Program.Executes.bind_inv
    (p := (handleWallet prim mediator resolver (some m) message session).run) h
  cases hadapt
  cases hhandle with
  | @call _ _ now _ v _ calls _ hnow hhandle =>
    cases hhandle with
    | @call _ _ answer _ w _ calls _ htouch hhandle =>
      obtain ⟨order, rfl, -⟩ := ticking_store htouch
      have hread : Quiet mediator m s v := Quiet.now hnow
      have hquiet : Quiet mediator m s w := hread.trans (Quiet.touch htouch)
      have hasks' : AsksFor message (w.store.recipients m) recipient := by
        rw [hquiet.recipients]
        exact hasks
      change Program.Executes ticking (ExceptT.run (if startsWith message.type_ pickup then
        Pickup.handle mediator m message session else _)) _ _ _ _ at hhandle
      rw [if_pos hpickup] at hhandle
      obtain ⟨now, reply, hfirst, hlast, rfl, hpicked⟩ := pickup_executes (hquiet.kept hkept) htype
        hlimit hpos (by rw [hquiet.mediations]; exact hmediated) hasks' hhandle
      rw [due, hquiet.mailbox] at hpicked
      exact ⟨now, reply, hquiet.clock.trans hfirst, hlast, rfl, hpicked⟩

/-- The mailbox neither loses, duplicates, reorders nor invents messages: after any run, the ids
given to queued messages are distinct, and a `delivery-request` that authenticates a mediation, has
not expired and asks for all messages or those for one of its recipients is answered with the first
messages of the mailbox that match and have not expired, in order, or with a status if there are
none. -/
theorem mailbox_delivered (prim : Primitives) (mediator : Mediator) {jobs : List Job}
    (hrun : Transition.Run (JobStep prim mediator) .start jobs s) {packed : String}
    {metadata : UnpackMetadata} {n : ℕ} {result : Except ReceiveError Outcome}
    (hunpack : unpack prim resolver mediator.identity.secrets packed = .ok (message, metadata))
    (hauth : metadata.authenticated) (hfrom : message.from_ = some m)
    (htype : message.type_ = deliveryRequest)
    (hlimit : (message.body.get "limit").bind Value.asU64 = some limit) (hpos : 0 < limit)
    (hmediated : s.store.mediations m) (hasks : AsksFor message (s.store.recipients m) recipient)
    (hexpired : message.isExpiredAt n = false)
    (hexec : Program.Executes ticking (handle prim mediator resolver packed session).run s
      (⟨.now, n⟩ :: calls) result t) :
    (Store.queuedIds t.log).Nodup ∧
    ∃ now reply calls₁ calls₂ u outcome, s.clock ≤ now ∧ now ≤ t.clock ∧ calls = calls₁ ++ calls₂ ∧
      Program.Executes ticking (handleAt prim mediator resolver n (some m) message session).run
        { s with clock := n } calls₁ (.ok (.reply reply)) u ∧
      PickedUp (due mediator m recipient limit now s.log) reply ∧
      Program.Executes ticking (answer prim mediator resolver message (.reply reply) session.isSome
        true) u calls₂ outcome t ∧ result = .ok outcome := by
  have hkept := kept_of_run hrun
  have hjob : JobStep prim mediator s (.receive resolver packed session) t :=
    ⟨_, hexec.bind .done⟩
  refine ⟨(kept_of_run (hrun.snoc hjob)).nodup, ?_⟩
  have hencrypted : metadata.encrypted = true := unpack_encrypted hunpack hauth
  simp only [handle, hunpack, hencrypted] at hexec
  cases hexec with
  | call hnow h =>
    obtain ⟨hclock, -, rfl⟩ := hnow
    -- the requester is the authenticated sender
    have hrequester : (message.from_.filter fun _ => metadata.authenticated) = some m := by
      simp [hfrom, hauth]
    obtain ⟨calls₁, calls₂, handled, u, rfl, hhandle, hanswer⟩ := Program.Executes.bind_inv
      (p := (handleAt prim mediator resolver n (message.from_.filter fun _ =>
        metadata.authenticated) message session).run) h
    rw [hrequester] at hhandle
    have hread : Kept mediator { s with clock := n } := hkept.later hclock
    obtain ⟨now, reply, hfirst, hlast, rfl, hpicked⟩ := handleAt_executes hread htype hlimit hpos
      hmediated hasks hexpired hhandle
    obtain ⟨calls₃, calls₄, outcome, v, rfl, hanswer, hdone⟩ := Program.Executes.bind_inv
      (p := answer prim mediator resolver message (.reply reply) session.isSome
        metadata.authenticated) hanswer
    rw [hauth] at hanswer
    cases hdone
    exact ⟨now, reply, calls₁, calls₃, u, outcome, hclock.trans hfirst,
      hlast.trans (before_of_executes hanswer).1, by simp, hhandle, hpicked, hanswer, rfl⟩

end Pickup

/-! ### A recipient that is removed -/

namespace MailboxExample

open Didcomm.Loopback Loopback

/-- The mediator keeps messages for a minute and asks for no proofs. -/
def keeping : Mediator := mediator
  { maxMessageBytes := 1000, queue := ⟨60, 10, 1000⟩, maxRecipientDids := 2,
    pushMinIntervalSecs := 0,
    recipientProof := false, mediationTtlSecs := 0 } false none

/-- `did:ex:a` updates its recipient `did:ex:b`. -/
def updating (action : String) : Value := .object [("updates", .array [.object
  [("recipient_did", .string "did:ex:b"), ("action", .string action)]])]

def message (type_ sender : String) (body : Value) : Message :=
  (Message.new "1" 0 type_ body).withFrom sender

/-- `did:ex:a` asks for mediation and registers `did:ex:b`; `did:ex:c` sends `did:ex:b` a message;
`did:ex:a` removes `did:ex:b`, or asks for its messages. -/
def mails : ℕ → Mail
  | 0 => ⟨"did:ex:a", message mediateRequest "did:ex:a" (.object [])⟩
  | 1 => ⟨"did:ex:a", message recipientUpdate "did:ex:a" (updating "add")⟩
  | 2 => ⟨"did:ex:c", (message forwardType "did:ex:c"
      (.object [("next", .string "did:ex:b")])).attachment (.ofJson .null)⟩
  | 3 => ⟨"did:ex:a", message recipientUpdate "did:ex:a" (updating "remove")⟩
  | _ => ⟨"did:ex:a", message deliveryRequest "did:ex:a"
      (.object [("limit", .ofNat 1), ("recipient_did", .string "did:ex:b")])⟩

def prim : Primitives := packages mails self ⟨"", "", "", 0⟩

/-- Surroundings whose clock stands still, and nobody is live. -/
def standing : Handler Surroundings Logged := fun e s =>
  match e with
  | .store op =>
    let (answer, inner) := Store.memory s.store.seen op s.store
    (answer, ⟨inner, s.clock, s.log ++ [⟨op, answer⟩]⟩)
  | .now => (s.clock, s)
  | .uuid => ("u", s)
  | .supply => (supply, s)
  | .liveMediation _ => (none, s)
  | .isLive _ => (false, s)
  | .post _ _ => (.error "refused", s)
  | .push _ _ => (.ok .invalidToken, s)
  | .enable _ _ | .disable _ | .notify _ _ | .spawnWake _ | .spawnDeliver _ _ => ((), s)

/-- Such surroundings are possible. -/
theorem executes_standing {α : Type} (p : Task α) {s : Logged} (hs : s.clock < maxClock) :
    Program.Executes ticking p s (p.trace standing s) (p.run standing s).1 (p.run standing s).2 ∧
      (p.run standing s).2.clock = s.clock := by
  induction p generalizing s with
  | done a => exact ⟨.done, rfl⟩
  | call op next ih =>
    have hclock : (standing op s).2.clock = s.clock := by cases op <;> rfl
    obtain ⟨hrest, hend⟩ := ih (standing op s).1 (s := (standing op s).2) (hclock ▸ hs)
    refine ⟨.call ?_ hrest, hend.trans hclock⟩
    cases op with
    | store op => exact ⟨_, ⟨s.store.seen, .refl _, rfl⟩, rfl⟩
    | now => exact ⟨le_rfl, hs, rfl⟩
    | _ => rfl

/-- Handling mail `n`. -/
def handling (n : UInt8) : Task (Except ReceiveError Outcome) :=
  (handleUnpacked prim keeping (resolver fun _ => []) (mails n.toNat).message
    (metadata (mails n.toNat).sender self) none).run

/-- The mail is well formed. -/
def Sendable (mail : Mail) : Prop :=
  didOf (kid mail.sender) = mail.sender ∧ mail.message.from_ = some mail.sender ∧
    mail.message.to_ = none ∧ mail.message.fromPrior = none ∧ mail.message.validate = .ok ()

/-- Handling an envelope of the example is handling the mail in it. -/
theorem handle_mail {n : UInt8} (h : Sendable (mails n.toNat)) :
    (handle prim keeping (resolver fun _ => []) (envelope n) none).run = handling n :=
  congrArg ExceptT.run (handle_eq rfl rfl h.1 h.2.1 h.2.2.1 h.2.2.2.1 h.2.2.2.2)

/-- Receiving a mail of the example is one step of a job. -/
theorem step_mail {n : UInt8} (h : Sendable (mails n.toNat)) {s : Logged}
    (hs : s.clock < maxClock) :
    JobStep prim keeping s (.receive (resolver fun _ => []) (envelope n) none)
      ((handling n).run standing s).2 := by
  have hexec := (executes_standing (handling n) hs).1
  rw [← handle_mail h] at hexec ⊢
  exact ⟨_, hexec.bind .done⟩

/-- The mails of a list are handled one after the other. -/
def after (ns : List UInt8) : Logged := ns.foldl (fun s n => ((handling n).run standing s).2) .start

/-- Receiving a list of mails of the example is a run, in which no time passes. -/
theorem run_mails (ns : List UInt8) (h : ∀ n ∈ ns, Sendable (mails n.toNat)) :
    (after ns).clock = 0 ∧ Transition.Run (JobStep prim keeping) .start
      (ns.map fun n => .receive (resolver fun _ => []) (envelope n) none) (after ns) := by
  induction ns using List.reverseRecOn with
  | nil => exact ⟨rfl, .nil⟩
  | append_singleton ns n ih =>
    rw [List.forall_mem_append] at h
    obtain ⟨hclock, hrun⟩ := ih h.1
    have hlt : (after ns).clock < maxClock := by
      rw [hclock]
      decide
    simp only [after, List.foldl_append, List.foldl_cons, List.foldl_nil, List.map_append,
      List.map_cons, List.map_nil]
    exact ⟨(executes_standing (handling n) hlt).2.trans hclock,
      hrun.snoc (step_mail (h.2 n (by simp)) hlt)⟩

/-- Every mail of the example can be sent. -/
theorem sendable_mails (n : UInt8) : Sendable (mails n.toNat) := by
  unfold mails
  split <;> exact ⟨by decide, rfl, rfl, rfl, by decide⟩

/-- Every envelope of the example is unpacked to the mail in it. -/
theorem unpacked (n : UInt8) : unpack prim (resolver fun _ => []) keeping.identity.secrets
    (envelope n) = .ok ((mails n.toNat).message, metadata (mails n.toNat).sender self) :=
  have h := sendable_mails n
  unpack_eq rfl h.1 h.2.1 h.2.2.1 h.2.2.2.1 h.2.2.2.2

/-- What is queued for `did:ex:b`. -/
def queued : Store.Queued := ⟨"0-1", "did:ex:b", 0, "e"⟩

/-- `did:ex:b` is removed before the request. -/
def removed : Logged := after [0, 1, 2, 3]

/-- It is not. -/
def kept : Logged := after [0, 1, 2]

/-- When `did:ex:b` has been removed the message queued for it is still due. -/
theorem removed_due : removed.store.mediations "did:ex:a" = true ∧
    due keeping "did:ex:a" (some "did:ex:b") 1 0 removed.log = [queued] := by decide +kernel

/-- `did:ex:a` asks for the messages of `did:ex:b`. -/
abbrev request : Message := (mails 4).message

/-- Deciding on the request. -/
def deciding : Task (Except ReceiveError Handled) :=
  (handleAt prim keeping (resolver fun _ => []) 0 (some "did:ex:a") request none).run

/-- A delivery request that names the removed recipient is refused all the same. -/
theorem removed_refused : (deciding.run standing removed).1 =
    .ok (.problem (.unknownRecipient "did:ex:b")) := by decide +kernel

/-- In the other run `did:ex:a` is granted and has `did:ex:b` as its recipient. -/
theorem kept_store : kept.store.mediations "did:ex:a" = true ∧
    kept.store.recipients "did:ex:a" = ["did:ex:b"] := by decide +kernel

end MailboxExample

open MailboxExample in
/-- A `delivery-request` for a recipient that was removed is refused, though a message for it
waits. -/
theorem removed_recipient_refused :
    ∃ jobs s calls₁ u calls₂ outcome t,
      Transition.Run (JobStep prim keeping) .start jobs s ∧
      unpack prim (Loopback.resolver fun _ => []) keeping.identity.secrets (Loopback.envelope 4) =
        .ok (request, Loopback.metadata "did:ex:a" Loopback.self) ∧
      request.from_ = some "did:ex:a" ∧ request.type_ = deliveryRequest ∧
      (request.body.get "limit").bind Value.asU64 = some 1 ∧
      request.body.get "recipient_did" = some (.string "did:ex:b") ∧
      s.store.mediations "did:ex:a" ∧
      due keeping "did:ex:a" (some "did:ex:b") 1 0 s.log = [MailboxExample.queued] ∧
      Program.Executes ticking (handle prim keeping (Loopback.resolver fun _ => [])
        (Loopback.envelope 4) none).run s (⟨.now, 0⟩ :: (calls₁ ++ calls₂)) (.ok outcome) t ∧
      Program.Executes ticking (handleAt prim keeping (Loopback.resolver fun _ => []) 0
        (some "did:ex:a") request none).run s calls₁
        (.ok (.problem (.unknownRecipient "did:ex:b"))) u ∧
      Program.Executes ticking (answer prim keeping (Loopback.resolver fun _ => []) request
        (.problem (.unknownRecipient "did:ex:b")) false true) u calls₂ outcome t := by
  obtain ⟨hclock, hrun⟩ := run_mails [0, 1, 2, 3] fun n _ => sendable_mails n
  have hlt : removed.clock < maxClock := lt_of_eq_of_lt hclock (by decide)
  -- the request is decided first and answered with what was decided
  obtain ⟨hdecides, hstays⟩ := executes_standing deciding hlt
  rw [removed_refused] at hdecides
  have hlt' : (deciding.run standing removed).2.clock < maxClock := lt_of_eq_of_lt hstays hlt
  obtain ⟨hanswers, -⟩ := executes_standing
    (answer prim keeping (Loopback.resolver fun _ => []) request
      (.problem (.unknownRecipient "did:ex:b")) false true) hlt'
  refine ⟨_, removed, _, _, _, _, _, hrun, unpacked 4, rfl, rfl, rfl, rfl, removed_due.1,
    removed_due.2, ?_, hdecides, hanswers⟩
  rw [handle_mail (sendable_mails 4)]
  have hnow : ticking removed ⟨.now, 0⟩ removed := by
    refine ⟨hclock.le, by decide, ?_⟩
    exact congrArg (fun clock => (⟨removed.store, clock, removed.log⟩ : Logged)) hclock
  have hrest := hanswers.bind
    (f := fun outcome => (pure (.ok outcome) : Task (Except ReceiveError Outcome))) .done
  rw [List.append_nil] at hrest
  exact .call hnow (hdecides.bind hrest)

open MailboxExample in
/-- While it is registered it is answered. -/
theorem mailbox_delivered_kept :
    ∃ jobs s calls result t, Transition.Run (JobStep prim keeping) .start jobs s ∧
      Program.Executes ticking (handle prim keeping (Loopback.resolver fun _ => [])
        (Loopback.envelope 4) none).run s calls result t ∧
      (Store.queuedIds t.log).Nodup ∧
      ∃ now reply, s.clock ≤ now ∧ now ≤ t.clock ∧
        PickedUp (due keeping "did:ex:a" (some "did:ex:b") 1 now s.log) reply := by
  obtain ⟨hclock, hrun⟩ := run_mails [0, 1, 2] fun n _ => sendable_mails n
  have hlt : kept.clock < maxClock := lt_of_eq_of_lt hclock (by decide)
  have hexec := (executes_standing (handling 4) hlt).1
  rw [← handle_mail (sendable_mails 4)] at hexec
  have htrace :
    (handle prim keeping (Loopback.resolver fun _ => []) (Loopback.envelope 4) none).run.trace
      standing kept = ⟨.now, kept.clock⟩ :: ((handle prim keeping (Loopback.resolver fun _ => [])
        (Loopback.envelope 4) none).run.trace standing kept).tail := by
    rw [handle_mail (sendable_mails 4)]
    rfl
  rw [htrace] at hexec
  refine ⟨_, kept, _, _, _, hrun, hexec, ?_⟩
  -- the filter names a recipient of the mediation
  have hasks : AsksFor request (kept.store.recipients "did:ex:a") (some "did:ex:b") :=
    ⟨rfl, kept_store.2 ▸ List.mem_singleton.mpr rfl⟩
  obtain ⟨hnodup, now, reply, -, -, -, -, hfirst, hlast, -, -, hpicked, -⟩ :=
    mailbox_delivered prim keeping hrun (unpacked 4) rfl rfl rfl rfl (by decide) kept_store.1 hasks
      rfl hexec
  exact ⟨hnodup, now, reply, hfirst, hlast, hpicked⟩

end Dispatch
