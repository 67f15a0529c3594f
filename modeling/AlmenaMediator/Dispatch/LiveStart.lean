import AlmenaMediator.Dispatch.LiveDelivery
import AlmenaMediator.Store.Queues

/-!
# The start of live mode

A sender stores its message and then notifies the hub; a `live-delivery-change` registers the
session and then counts the queue. Whatever is stored before the count is in the count, and whatever
is stored after it is notified to a session that is registered already, so that no message falls
between (`live_without_gap`).
-/

namespace Dispatch

open Didcomm (Primitives Message Resolver Value)
open Store (Queued QueueStore QueueSummary)
open Transition (Event)

/-- The session is live for `m`, and its connection is open. -/
def Subscribed (hub : LiveHub) (session : ℕ) (m : String) : Prop :=
  (hub.session session).live = some m ∧ (hub.session session).isOpen

/-- Live mode is switched on the session, or its connection ends. -/
def Leaves (session : ℕ) : Pool.Label Surroundings LiveJob → Prop
  | .start _ (.closes s) | .start _ (.dies s) => s = session
  | .call _ _ _ ⟨.enable s _, _⟩ | .call _ _ _ ⟨.disable s, _⟩ => s = session
  | _ => False

/-! ## What steps do to a session -/

section Moves

variable {mediator : Mediator} {hub hub' : LiveHub} {label : Pool.Label Surroundings LiveJob}
  {session : ℕ} {m : String}

/-- An open session is not one to come. -/
theorem ne_nextId_of_isOpen (hreg : hub.Registered) (hopen : (hub.session session).isOpen) :
    session ≠ hub.nextId := Nat.ne_of_lt (lt_nextId_of_isOpen hreg hopen)

/-- Opening a session leaves the others as they were. -/
theorem session_openSession (hub : LiveHub) (hid : session ≠ hub.nextId) :
    hub.openSession.session session = hub.session session := LiveHub.setSession_of_ne _ hid _

/-- A connection stays open until it closes or dies. -/
theorem HubMoves.isOpen (h : HubMoves mediator hub label hub') (hreg : hub.Registered)
    (hopen : (hub.session session).isOpen) : (hub'.session session).isOpen ∨
      (∃ i, label = .start i (.dies session)) ∨ label = .start (2 * session) (.closes session) := by
  -- a session stops being open when its connection dies or closes, and no other way
  cases h with
  | opens =>
    left
    rwa [session_openSession hub (ne_nextId_of_isOpen hreg hopen)]
  | @closes closed _ =>
    by_cases hid : session = closed
    · exact .inr (.inr (by rw [hid]))
    · left
      rwa [LiveHub.drop, LiveHub.setSession_of_ne _ hid, LiveHub.disable_session,
        Function.update_of_ne hid]
  | @dies i closed _ =>
    by_cases hid : session = closed
    · exact .inr (.inl ⟨i, by rw [hid]⟩)
    · left
      rwa [LiveHub.drop, LiveHub.setSession_of_ne _ hid]
  | @takes resolver taker queued _ htakes =>
    left
    obtain ⟨rest, -, rfl⟩ := recv_eq_some htakes
    by_cases hid : session = taker
    · subst hid
      simpa using hopen
    · rwa [LiveHub.setSession_of_ne _ hid]
  | @enables requester recipient message switched =>
    left
    rw [LiveHub.enable_session]
    by_cases hid : session = switched
    · subst hid
      rwa [Function.update_self]
    · rwa [Function.update_of_ne hid]
  | @disables requester recipient message switched =>
    left
    rw [LiveHub.disable_session]
    by_cases hid : session = switched
    · subst hid
      rwa [Function.update_self]
    · rwa [Function.update_of_ne hid]
  | notifies =>
    left
    rwa [(hreg.notify_live _ _ _).2]
  | quiet => exact .inl hopen

/-- A session stays live for its mediation until live mode is switched or the connection closes. -/
theorem HubMoves.stays_live (h : HubMoves mediator hub label hub') (hreg : hub.Registered)
    (hlive : (hub.session session).live = some m) : (hub'.session session).live = some m ∨
      label = .start (2 * session) (.closes session) ∨ ∃ requester recipient message k,
        label = .call (2 * session) (.change requester recipient message session) [] k ∧
          ((∃ m', k.op = .enable session m') ∨ k.op = .disable session) := by
  -- a session stops being live when it closes or is switched, and no other way
  cases h with
  | opens =>
    left
    have hclosed : hub.session session ≠ .closed := fun hclosed => by
      rw [hclosed] at hlive
      exact nomatch hlive
    rwa [session_openSession hub (Nat.ne_of_lt (lt_nextId hreg hclosed))]
  | @closes closed _ =>
    by_cases hid : session = closed
    · exact .inr (.inl (by rw [hid]))
    · left
      rwa [LiveHub.drop, LiveHub.setSession_of_ne _ hid, LiveHub.disable_session,
        Function.update_of_ne hid]
  | @dies i closed _ =>
    left
    by_cases hid : session = closed
    · subst hid
      simpa [LiveHub.drop] using hlive
    · rwa [LiveHub.drop, LiveHub.setSession_of_ne _ hid]
  | @takes resolver taker queued _ htakes =>
    left
    obtain ⟨rest, -, rfl⟩ := recv_eq_some htakes
    by_cases hid : session = taker
    · subst hid
      simpa using hlive
    · rwa [LiveHub.setSession_of_ne _ hid]
  | @enables requester recipient message switched =>
    by_cases hid : session = switched
    · subst hid
      exact .inr (.inr ⟨requester, recipient, message, _, rfl, .inl ⟨requester, rfl⟩⟩)
    · left
      rwa [LiveHub.enable_session, Function.update_of_ne hid]
  | @disables requester recipient message switched =>
    by_cases hid : session = switched
    · subst hid
      exact .inr (.inr ⟨requester, recipient, message, _, rfl, .inr rfl⟩)
    · left
      rwa [LiveHub.disable_session, Function.update_of_ne hid]
  | notifies =>
    left
    rwa [(hreg.notify_live _ _ _).1]
  | quiet => exact .inl hlive

/-- A session stays subscribed until it leaves. -/
theorem HubMoves.subscribed (h : HubMoves mediator hub label hub') (hreg : hub.Registered)
    (hsub : Subscribed hub session m) : Subscribed hub' session m ∨ Leaves session label := by
  rcases h.isOpen hreg hsub.2 with hopen | ⟨i, rfl⟩ | rfl
  · rcases h.stays_live hreg hsub.1 with hlive | rfl | ⟨_, _, _, ⟨op, answer⟩, rfl, ⟨m', hop⟩ | hop⟩
    · exact .inl ⟨hlive, hopen⟩
    · exact .inr rfl
    · obtain rfl : op = _ := hop
      exact .inr rfl
    · obtain rfl : op = _ := hop
      exact .inr rfl
  · exact .inr rfl
  · exact .inr rfl

/-- A push is handed to every subscribed session, unless its channel is full. -/
theorem pushes_of_notify (hreg : hub.Registered) (hsub : Subscribed hub session m) (q : Queued) :
    ((hub.notify m q).session session).pushes = (hub.session session).pushes ++ [q] ∨
      buffer ≤ (hub.session session).pushes.length := by
  have hlisted := hreg.listed m session hsub.1 hsub.2
  rw [hreg.notify_session, if_pos hlisted, Session.trySend, hsub.2, Bool.true_and]
  split
  · exact .inl rfl
  · rename_i hfull
    exact .inr (Nat.not_lt.mp (by simpa using hfull))

end Moves

/-! ## Connections that are switched on -/

section Machine

variable {prim : Primitives} {mediator : Mediator} {σ : Type}
  {inner : Program.Environment Surroundings σ}
  {c c' : Pool.Config Surroundings LiveJob (Connected σ)}
  {label : Pool.Label Surroundings LiveJob} {labels : List (Pool.Label Surroundings LiveJob)}

/-- While a connection handles a `live-delivery-change`, its session is what the change made it, and
the connection is open unless its task died. -/
structure Switching (labels : List (Pool.Label Surroundings LiveJob))
    (c : Pool.Config Surroundings LiveJob (Connected σ)) : Prop where
  live : ∀ session m recipient message k calls rest,
    c.threads (2 * session) = some ⟨.change m recipient message session, k :: calls, rest⟩ →
      k.op = .enable session m → (c.shared.hub.session session).live = some m
  isOpen : ∀ session m recipient message calls rest,
    c.threads (2 * session) = some ⟨.change m recipient message session, calls, rest⟩ →
      (c.shared.hub.session session).isOpen ∨ ∃ i, .start i (.dies session) ∈ labels

/-- One step keeps the account of a session that is being switched on. -/
theorem Switching.step (h : Switching labels c) (hserved : Served c)
    (hunfolded : Pool.Unfolded (connections prim mediator inner) c)
    (hstep : Pool.Step (connections prim mediator inner) c label c') :
    Switching (labels ++ [label]) c' := by
  have hmoves := hserved.moves hunfolded hstep
  have hreg := hserved.registered
  constructor
  · intro session m recipient message k calls rest hthread hk
    have hstays : (c.shared.hub.session session).live = some m →
        label ≠ .start (2 * session) (.closes session) →
        (∀ task k, label ≠ .call (2 * session) task [] k) →
          (c'.shared.hub.session session).live = some m := by
      intro hlive hcloses hcalls
      rcases hmoves.stays_live hreg hlive with hlive' | hlabel | ⟨_, _, _, k', hlabel, -⟩
      · exact hlive'
      · exact absurd hlabel hcloses
      · exact absurd hlabel (hcalls _ k')
    rcases hstep.thread_cases hthread with ⟨hbefore, hother⟩ | ⟨-, hcalls, -⟩ |
      ⟨before, k', rest', rfl, hcalls, hbefore⟩
    · exact hstays (h.live session m recipient message k calls rest hbefore hk) (hother _).1
        fun task k => (hother task).2 [] k
    · exact nomatch hcalls
    · cases before with
      | cons first before =>
        -- the switch was before
        obtain ⟨rfl, -⟩ := List.cons.inj hcalls
        exact hstays (h.live session m recipient message k before rest' hbefore hk) nofun
          fun _ _ heq => nomatch (Pool.Label.call.inj heq).2.2.1
      | nil =>
        -- this is the switch
        obtain ⟨rfl, -⟩ := List.cons.inj hcalls
        obtain ⟨op, answer⟩ := k
        obtain rfl : op = _ := hk
        cases hstep with
        | call hthread' hanswer =>
          obtain rfl : _ = _ := hanswer
          rw [Pool.Config.set_shared, LiveHub.enable_session, Function.update_self]
  · intro session m recipient message calls rest hthread
    have hstays : (c.shared.hub.session session).isOpen →
        label ≠ .start (2 * session) (.closes session) → (c'.shared.hub.session session).isOpen ∨
          ∃ i, .start i (.dies session) ∈ labels ++ [label] := by
      intro hopen hcloses
      rcases hmoves.isOpen hreg hopen with hopen' | ⟨i, rfl⟩ | hlabel
      · exact .inl hopen'
      · exact .inr ⟨i, List.mem_append_right _ (List.mem_singleton_self _)⟩
      · exact absurd hlabel hcloses
    have hbusy : ∀ calls rest, c.threads (2 * session) =
        some ⟨.change m recipient message session, calls, rest⟩ →
        label ≠ .start (2 * session) (.closes session) → (c'.shared.hub.session session).isOpen ∨
          ∃ i, .start i (.dies session) ∈ labels ++ [label] := by
      intro calls rest hbefore hcloses
      rcases h.isOpen session m recipient message calls rest hbefore with hopen | ⟨i, hi⟩
      · exact hstays hopen hcloses
      · exact .inr ⟨i, List.mem_append_left _ hi⟩
    rcases hstep.thread_cases hthread with ⟨hbefore, hother⟩ | ⟨rfl, -, hstart⟩ |
      ⟨before, k, rest', rfl, -, hbefore⟩
    · exact hbusy calls rest hbefore (hother _).1
    · exact hstays hstart.1.2.1 (by simp)
    · exact hbusy before rest' hbefore nofun

/-- In every run the account of a session that is being switched on is kept. -/
theorem switching_of_run {s : σ}
    (hrun : Transition.Run (Pool.Step (connections prim mediator inner))
      (.empty ⟨.empty, s⟩) labels c) : Switching labels c := by
  induction hrun with
  | nil => constructor <;> intros <;> contradiction
  | snoc hrun hstep ih => exact ih.step (served_of_run hrun) (Pool.unfolded_of_run hrun) hstep

/-- What happens on connections. -/
abbrev LiveEvent (σ : Type) :=
  Event (Pool.Config Surroundings LiveJob (Connected σ)) (Pool.Label Surroundings LiveJob)

/-- A subscribed session stays subscribed until it leaves. -/
theorem subscribed_of_run {s : σ} {evs : List (LiveEvent σ)} {session : ℕ} {m : String}
    (hbefore : Transition.Run (Pool.Step (connections prim mediator inner))
      (.empty ⟨.empty, s⟩) labels c) (hsub : Subscribed c.shared.hub session m)
    (hrun : Transition.Run (Transition.Observed (Pool.Step (connections prim mediator inner)))
      c evs c') : Subscribed c'.shared.hub session m ∨ ∃ e ∈ evs, Leaves session e.label := by
  induction hrun with
  | nil => exact .inl hsub
  | @snoc evs c₁ c₂ e hrun hstep ih =>
    rcases ih with hsub' | ⟨e', he', hleaves⟩
    · have hall := hbefore.append hrun.labels
      have hserved := served_of_run hall
      rcases (hserved.moves (Pool.unfolded_of_run hall) hstep.2.2).subscribed
        hserved.registered hsub' with hsub₂ | hleaves
      · exact .inl hsub₂
      · exact .inr ⟨e, List.mem_append_right _ (List.mem_singleton_self _), hleaves⟩
    · exact .inr ⟨e', List.mem_append_left _ he', hleaves⟩

/-! ## What stays in the queue -/

/-- A step of a pool is a call on the store, or leaves the store alone. -/
theorem inner_of_step {env : Program.Environment Store.StoreCall σ}
    (hstep : Pool.Step (connections prim mediator (around env)) c label c') :
    c'.shared.inner = c.shared.inner ∨ ∃ i job calls op answer,
      label = .call i job calls ⟨.store op, answer⟩ ∧
        env c.shared.inner ⟨op, answer⟩ c'.shared.inner := by
  cases hstep with
  | start _ hstart => exact .inl hstart.2
  | @call i job calls op next answer s _ hanswer =>
    cases op with
    | store op => exact .inr ⟨i, job, calls, op, answer, rfl, hanswer.2⟩
    | liveMediation | isLive =>
      left
      rw [Pool.Config.set_shared, hanswer.2]
    | enable | disable | notify =>
      left
      obtain rfl : s = _ := hanswer
      rfl
    | now => exact .inl hanswer.2.2
    | _ => exact .inl hanswer.2
  | stop => exact .inl rfl
  | idle hidle => exact hidle.elim

/-- A call on the store that ends the message `id` of `m`. -/
def EndedBy (store : QueueStore σ) (m id : String) (e : LiveEvent σ) : Prop :=
  ∃ i job calls op answer, e.label = .call i job calls ⟨.store op, answer⟩ ∧
    store.Ends e.before.shared.inner ⟨op, answer⟩ e.after.shared.inner m id

/-- A message stays in its queue until a call ends it. -/
theorem stays_of_run (store : QueueStore σ) {m id : String} {evs : List (LiveEvent σ)}
    (hid : id ∈ store.queue c.shared.inner m)
    (hrun : Transition.Run (Transition.Observed (Pool.Step (connections prim mediator
      (around store.env)))) c evs c') :
    id ∈ store.queue c'.shared.inner m ∨ ∃ e ∈ evs, EndedBy store m id e := by
  induction hrun with
  | nil => exact .inl hid
  | @snoc evs c₁ c₂ e _ hstep ih =>
    -- once ended, the event is among the ones before
    rcases ih with hstay | ⟨e', he', hended⟩
    swap
    · exact .inr ⟨e', List.mem_append_left _ he', hended⟩
    obtain ⟨rfl, rfl, hstep⟩ := hstep
    rcases inner_of_step hstep with hsame | ⟨i, job, calls, op, answer, hlabel, henv⟩
    · left
      rwa [hsame]
    · rcases store.stays henv hstay with hstay' | hends
      · exact .inl hstay'
      · exact .inr ⟨e, List.mem_append_right _ (List.mem_singleton_self _),
          i, job, calls, op, answer, hlabel, hends⟩

/-! ## No gap -/

/-- The status that answers a switch carries the count of the queue. -/
theorem status_counts (mediator : Mediator) {m : String} {message : Message} (session now : ℕ)
    (hon : (message.body.get "live_delivery").bind Value.asBool = some true)
    (summary : QueueSummary) (uuid : String) (created : ℕ) : ∃ reply : Message,
      (Pickup.liveDeliveryChange mediator m none message (some session)).run.Unfolds
        [⟨.enable session m, ()⟩, ⟨.now, now⟩, ⟨.store (.summary m none now
          mediator.limits.queue.ttlSecs), .ok summary⟩, ⟨.uuid, uuid⟩, ⟨.now, created⟩]
        (.done (.ok (.reply reply))) ∧
      reply.body.get "message_count" = some (.ofNat summary.count) := by
  refine ⟨(Message.new uuid created statusType (Pickup.statusBody summary none now true)).replyTo
    message, ?_, rfl⟩
  unfold Pickup.liveDeliveryChange
  rw [hon]
  exact .cons (.cons (.cons (.cons (.cons .nil))))

/-- The connection that is about to count the queue is subscribed, unless its task died. -/
theorem subscribed_of_counting {s : σ} {session now ttlSecs : ℕ} {m : String} {message : Message}
    {calls : List (Call Surroundings)} {answer : Except Store.StoreError QueueSummary}
    (hrun : Transition.Run (Pool.Step (connections prim mediator inner))
      (.empty ⟨.empty, s⟩) labels c)
      (hstep : Pool.Step (connections prim mediator inner) c (.call (2 * session)
      (.change m none message session) calls ⟨.store (.summary m none now ttlSecs), answer⟩) c')
    (hon : (message.body.get "live_delivery").bind Value.asBool = some true) :
    (∃ read : ℕ, now = read ∧ ttlSecs = mediator.limits.queue.ttlSecs ∧
      calls = [⟨.enable session m, ()⟩, ⟨.now, read⟩]) ∧
    (Subscribed c.shared.hub session m ∨ ∃ i, .start i (.dies session) ∈ labels) := by
  have hswitching := switching_of_run hrun
  cases hstep with
  | call hthread _ =>
    obtain ⟨wanted, hwanted, hcalls⟩ := change_calls (Pool.unfolded_of_run hrun _ _ hthread)
    obtain rfl : true = wanted := Option.some_inj.mp (hon.symm.trans hwanted)
    rcases hcalls with ⟨-, hop⟩ | hop | hop | ⟨k, read, rfl, hk, hop⟩
    · exact nomatch hop
    · exact nomatch hop
    · exact nomatch hop
    -- the count comes after the switch, which made the session live
    · obtain ⟨op, answer⟩ := k
      obtain rfl : op = .enable session m := hk
      cases hop
      refine ⟨⟨now, rfl, rfl, rfl⟩, ?_⟩
      rcases hswitching.isOpen session m none message _ _ hthread with hopen | hdied
      · exact .inl ⟨hswitching.live session m none message _ _ _ hthread rfl, hopen⟩
      · exact .inr hdied

/-- A sender that stored its message is about to notify the hub. -/
theorem queue_stored (id : String) {m r payload : String} {received : ℕ}
    {limits : Store.QueueLimits} {before : List (Call Surroundings)}
    {next : Except Store.StoreError (Option String) → Task Unit}
    (h : (void (queue mediator m r payload).run).Unfolds before
      (.call (.store (.enqueue m r payload received limits)) next)) :
    ∃ next', next (.ok (some id)) = .call (.notify m ⟨id, r, received, payload⟩) next' := by
  rcases h.of_call with ⟨-, hcall⟩ | ⟨now, calls₁, -, h₁⟩
  · exact nomatch hcall
  rcases h₁.of_call with ⟨-, hcall⟩ | ⟨answer, calls₂, -, h₂⟩
  · cases hcall
    exact ⟨_, rfl⟩
  rcases answer with e | _ | id'
  · exact nomatch h₂.of_done.2
  · exact nomatch h₂.of_done.2
  · rcases h₂.of_call with ⟨-, hcall⟩ | ⟨_, calls₃, -, h₃⟩
    · exact nomatch hcall
    · exact nomatch h₃.of_done.2

section Gap

variable {store : QueueStore σ} {counting queueing : LiveEvent σ}
    {session now ttlSecs i received : ℕ} {m r payload id : String}
    {calls before : List (Call Surroundings)} {limits : Store.QueueLimits}

/-- A message that was queued is there when the queue is counted, unless a call ended it in
between. -/
theorem counted_or_ended {recipient : Option String} {message : Message} {summary : QueueSummary}
    {pre : List (LiveEvent σ)}
    (hcounting : counting.label = .call (2 * session) (.change m recipient message session) calls
      ⟨.store (.summary m none now ttlSecs), .ok summary⟩)
    (hqueueing : queueing.label = .call i (.queue m r payload) before
      ⟨.store (.enqueue m r payload received limits), .ok (some id)⟩)
    (hqueue : Pool.Step (connections prim mediator (around store.env))
      queueing.before queueing.label queueing.after)
    (hbetween : Transition.Run (Transition.Observed (Pool.Step (connections prim mediator
      (around store.env)))) queueing.after pre counting.before)
    (hcount : Pool.Step (connections prim mediator (around store.env))
      counting.before counting.label counting.after) :
    (id ∈ store.queue counting.after.shared.inner m ∧
      summary.count = (store.queue counting.after.shared.inner m).length) ∨
    ∃ e ∈ pre ++ [counting], EndedBy store m id e := by
  -- the message is in the queue when it was queued, and stays there until a call ends it
  have hadded : id ∈ store.queue queueing.after.shared.inner m := by
    rw [hqueueing] at hqueue
    generalize queueing.after = after at hqueue
    cases hqueue with
    | call _ hanswer => exact store.added hanswer.2
  have hlast : Transition.Observed (Pool.Step (connections prim mediator (around store.env)))
      counting.before counting counting.after := ⟨rfl, rfl, hcount⟩
  have hcounted : summary.count = (store.queue counting.after.shared.inner m).length := by
    rw [hcounting] at hcount
    generalize counting.after = after at hcount
    cases hcount with
    | call _ hanswer => exact store.counted hanswer.2
  exact (stays_of_run store hadded (hbetween.snoc hlast)).imp_left fun hstays => ⟨hstays, hcounted⟩

/-- A sender that has just stored its message goes on to notify the hub of it. -/
theorem notifies_next {s : σ}
    (hbefore : Transition.Run (Pool.Step (connections prim mediator inner))
      (.empty ⟨.empty, s⟩) labels c)
      (hstep : Pool.Step (connections prim mediator inner) c (.call i (.queue m r payload) before
      ⟨.store (.enqueue m r payload received limits), .ok (some id)⟩) c') :
    ∃ next, c'.threads i = some ⟨.queue m r payload,
      before ++ [⟨.store (.enqueue m r payload received limits), .ok (some id)⟩],
      .call (.notify m ⟨id, r, received, payload⟩) next⟩ := by
  cases hstep with
  | call hthread _ =>
    obtain ⟨next, hnext⟩ := queue_stored id (Pool.unfolded_of_run hbefore _ _ hthread)
    refine ⟨next, ?_⟩
    rw [Pool.Config.set_threads_self, hnext]

/-- A notification reaches the channel of a session that was subscribed, unless the channel is full
or the session left meanwhile. -/
theorem handed_or_left {notifying : LiveEvent σ} {s : σ} {queued : Queued} {job : LiveJob}
    {evs : List (LiveEvent σ)}
    (hbefore : Transition.Run (Pool.Step (connections prim mediator inner))
      (.empty ⟨.empty, s⟩) labels c) (hsub : Subscribed c.shared.hub session m)
    (hbetween : Transition.Run (Transition.Observed (Pool.Step (connections prim mediator inner)))
      c evs notifying.before)
    (hlabel : notifying.label = .call i job before ⟨.notify m queued, ()⟩)
    (hnotify : Pool.Step (connections prim mediator inner) notifying.before notifying.label
      notifying.after) :
    (notifying.after.shared.hub.session session).pushes =
        (notifying.before.shared.hub.session session).pushes ++ [queued] ∨
      buffer ≤ (notifying.before.shared.hub.session session).pushes.length ∨
      ∃ e ∈ evs, Leaves session e.label := by
  rcases subscribed_of_run hbefore hsub hbetween with hsub' | hleft
  -- the session has left in between
  swap
  · exact .inr (.inr hleft)
  have hserved := served_of_run (hbefore.append hbetween.labels)
  have hpushes := pushes_of_notify hserved.registered hsub' queued
  rw [hlabel] at hnotify
  generalize notifying.after = after at hnotify
  cases hnotify with
  | call _ hanswer =>
    obtain rfl : _ = _ := hanswer
    exact hpushes.imp_right .inl

end Gap

/-- A message that is queued while a connection switches live mode on is counted in the status that
answers, unless a call ended it before; or it is queued after the count, and then its sender is
still about to notify the hub, or did and handed it to the connection's channel, unless the channel
was full or the connection ended or was switched again. -/
theorem live_without_gap (store : QueueStore σ) {s : σ} {pre post : List (LiveEvent σ)}
    {counting queueing : LiveEvent σ}
    (hrun : Transition.Run (Transition.Observed (Pool.Step (connections prim mediator
      (around store.env)))) (.empty ⟨.empty, s⟩) (pre ++ counting :: post) c)
    {session now ttlSecs : ℕ} {m : String} {message : Message} {calls : List (Call Surroundings)}
    {summary : QueueSummary}
    (hcounting : counting.label = .call (2 * session) (.change m none message session) calls
      ⟨.store (.summary m none now ttlSecs), .ok summary⟩)
    (hon : (message.body.get "live_delivery").bind Value.asBool = some true)
    {i received : ℕ} {r payload id : String} {before : List (Call Surroundings)}
    {limits : Store.QueueLimits}
    (hqueueing : queueing.label = .call i (.queue m r payload) before
      ⟨.store (.enqueue m r payload received limits), .ok (some id)⟩) :
    (∀ pre₁ pre₂, pre = pre₁ ++ queueing :: pre₂ →
      (id ∈ store.queue counting.after.shared.inner m ∧
        summary.count = (store.queue counting.after.shared.inner m).length ∧
        ∀ uuid created, ∃ reply : Message,
          (Pickup.liveDeliveryChange mediator m none message (some session)).run.Unfolds
            (calls ++ [⟨.store (.summary m none now ttlSecs), .ok summary⟩, ⟨.uuid, uuid⟩,
              ⟨.now, created⟩]) (.done (.ok (.reply reply))) ∧
          reply.body.get "message_count" = some (.ofNat summary.count)) ∨
      ∃ e ∈ pre₂ ++ [counting], EndedBy store m id e) ∧
    ∀ post₁ post₂, post = post₁ ++ queueing :: post₂ →
      (∃ next, c.threads i = some ⟨.queue m r payload,
        before ++ [⟨.store (.enqueue m r payload received limits), .ok (some id)⟩],
        .call (.notify m ⟨id, r, received, payload⟩) next⟩) ∨
      ∃ mid notifying rest, post₂ = mid ++ notifying :: rest ∧
        notifying.label = .call i (.queue m r payload)
          (before ++ [⟨.store (.enqueue m r payload received limits), .ok (some id)⟩])
          ⟨.notify m ⟨id, r, received, payload⟩, ()⟩ ∧
        ((notifying.after.shared.hub.session session).pushes =
            (notifying.before.shared.hub.session session).pushes ++ [⟨id, r, received, payload⟩] ∨
          buffer ≤ (notifying.before.shared.hub.session session).pushes.length ∨
          (∃ e ∈ pre, ∃ j, e.label = .start j (.dies session)) ∨
          ∃ e ∈ counting :: post₁ ++ queueing :: mid, Leaves session e.label) := by
  obtain ⟨c₁, c₂, hpre, ⟨rfl, rfl, hcount⟩, hpost⟩ := hrun.middle_inv
  have hcount' := hcount
  rw [hcounting] at hcount'
  obtain ⟨⟨read, rfl, rfl, rfl⟩, hsub⟩ := subscribed_of_counting hpre.labels hcount' hon
  constructor
  · rintro pre₁ pre₂ rfl
    obtain ⟨_, _, -, ⟨rfl, rfl, hqueue⟩, hbetween⟩ := hpre.middle_inv
    rcases counted_or_ended hcounting hqueueing hqueue hbetween
      hcount with ⟨hstays, hcounted⟩ | hended
    · exact .inl ⟨hstays, hcounted, status_counts mediator session now hon summary⟩
    · exact .inr hended
  · rintro post₁ post₂ rfl
    obtain ⟨_, _, hfirst, ⟨rfl, rfl, hqueue⟩, hsecond⟩ := hpost.middle_inv
    obtain ⟨next, hthread⟩ := notifies_next
      (hpre.labels.append (Transition.Run.cons hcount hfirst.labels)) (hqueueing ▸ hqueue)
    rcases Pool.waits_of_run hthread hsecond with hwaits | ⟨mid, notifying,
      rest, answer, rfl, hlabel⟩
    · exact .inl ⟨next, hwaits⟩
    right
    refine ⟨mid, notifying, rest, rfl, hlabel, ?_⟩
    obtain ⟨_, _, hmid, ⟨rfl, rfl, hnotify⟩, -⟩ := hsecond.middle_inv
    rcases hsub with hsub | ⟨j, hdied⟩
    swap
    · obtain ⟨e, he, hlabel'⟩ := List.mem_map.mp hdied
      exact .inr (.inr (.inl ⟨e, he, j, hlabel'⟩))
    -- from the count to the notification the session is subscribed
    have hbetween : Transition.Run (Transition.Observed (Pool.Step (connections prim mediator
        (around store.env)))) counting.before (counting :: post₁ ++ queueing :: mid)
        notifying.before :=
      (Transition.Run.cons ⟨rfl, rfl, hcount⟩ hfirst).append (.cons ⟨rfl, rfl, hqueue⟩ hmid)
    rcases handed_or_left hpre.labels hsub hbetween hlabel hnotify with hpushed | hfull | hleft
    · exact .inl hpushed
    · exact .inr (.inl hfull)
    · exact .inr (.inr (.inr hleft))

end Machine

/-- A connection switches live mode on, and then a message is queued: the hub is notified of it. -/
theorem live_without_gap_notified : ∃ (evs : List (LiveEvent Store.Inner))
    (notifying : LiveEvent Store.Inner), Transition.Run
      (Transition.Observed (Pool.Step LiveExample.system))
      (.empty ⟨.empty, Store.Inner.empty⟩) evs (.empty LiveExample.queuedFor) ∧ notifying ∈ evs ∧
      ∃ calls, notifying.label = .call 1 (.queue "did:ex:a" "did:ex:r" "p") calls
        ⟨.notify "did:ex:a" LiveExample.queued, ()⟩ := by
  have hlive := LiveExample.job_run 0 (.change "did:ex:a" none LiveExample.switchOn 0)
    (s := LiveExample.opened) ⟨rfl, rfl, rfl⟩
  have hqueue := LiveExample.job_run 1 (.queue "did:ex:a" "did:ex:r" "p")
    (s := LiveExample.live) ⟨rfl, rfl⟩
  obtain ⟨evs, hevs, hrun⟩ := ((LiveExample.opened_run.append hlive).append hqueue).observe
  -- the events around the count
  obtain ⟨pre, rest, rfl, -, hrest⟩ := List.map_eq_append_iff.mp (hevs.trans (show _ =
    [.start 1 .opens, .stop 1 .opens, .start 0 (.change "did:ex:a" none LiveExample.switchOn 0), _,
      _] ++ _ from rfl))
  obtain ⟨counting, post, rfl, hcounting, hpost⟩ := List.map_eq_cons_iff.mp hrest
  -- the events around the `enqueue`
  obtain ⟨post₁, rest, rfl, -, hrest⟩ := List.map_eq_append_iff.mp (hpost.trans (show _ =
    [_, _, _, .start 1 (.queue "did:ex:a" "did:ex:r" "p"), _] ++ _ from rfl))
  obtain ⟨queueing, post₂, rfl, hqueueing, -⟩ := List.map_eq_cons_iff.mp hrest
  have hcounting : counting.label = .call (2 * 0) (.change "did:ex:a" none LiveExample.switchOn 0)
      [⟨.enable 0 "did:ex:a", ()⟩, ⟨.now, (0 : ℕ)⟩]
      ⟨.store (.summary "did:ex:a" none 0 60), .ok ⟨0, none, none, 0⟩⟩ := hcounting
  have hqueueing : queueing.label = .call 1 (.queue "did:ex:a" "did:ex:r" "p") [⟨.now, (0 : ℕ)⟩]
      ⟨.store (.enqueue "did:ex:a" "did:ex:r" "p" 0 ⟨60, 10, 1000⟩), .ok (some "0-1")⟩ := hqueueing
  rcases (live_without_gap Store.Inner.queueStore hrun hcounting rfl
    hqueueing).2 post₁ post₂ rfl with
    ⟨next, hwaits⟩ | ⟨mid, notifying, rest, rfl, hlabel, -⟩
  · exact nomatch hwaits
  · exact ⟨_, notifying, hrun, by simp, _, hlabel⟩

end Dispatch
