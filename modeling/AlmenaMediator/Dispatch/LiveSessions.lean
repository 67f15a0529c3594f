import AlmenaMediator.Dispatch.Live
import AlmenaMediator.Dispatch.Isolation
import AlmenaMediator.Library.Pool

/-!
# Connections and their sessions

`websocket_session` (`routes.rs`) on the hub: connections open, handle `live-delivery-change`
messages, take pushes out of their channels and close, while senders queue messages and other
handlers use the store, their steps in any order. A connection handles one thing at a time: thread
`2 * session` is the task of a connection, and the odd threads run the rest. `HubMoves` says what a
step does to the hub.
-/

namespace Dispatch

open Didcomm (Primitives Message Resolver Value)
open Store (Queued)

/-- What happens on connections, and elsewhere. -/
inductive LiveJob
  /-- `open_session`. -/
  | opens
  /-- The connection ends: `close_session`, and its receiver is dropped. -/
  | closes (session : ℕ)
  /-- The connection's task dies. -/
  | dies (session : ℕ)
  /-- A `live-delivery-change` from an authenticated DID arrives on the connection. -/
  | change (requester : String) (recipient : Option String) (message : Message) (session : ℕ)
  /-- The connection takes a push out of its channel. -/
  | push (resolver : Resolver) (session : ℕ) (queued : Queued)
  /-- A message is queued. -/
  | queue (mediation recipient payload : String)
  /-- Some other call of the store. -/
  | other (op : Store.Op)

/-- What a job runs. -/
def LiveJob.program (prim : Primitives) (mediator : Mediator) : LiveJob → Task Unit
  | .opens | .closes _ | .dies _ => return ()
  | .change requester recipient message session =>
    void (Pickup.liveDeliveryChange mediator requester recipient message (some session)).run
  | .push resolver session queued => void (liveDelivery prim mediator resolver session queued)
  | .queue mediation recipient payload =>
    void (Dispatch.queue mediator mediation recipient payload).run
  | .other op => void (call (.store op))

/-- The hub, and the rest of the mediator's surroundings. -/
structure Connected (σ : Type) where
  hub : LiveHub
  inner : σ

/-- What starting a job does to the hub. -/
def LiveJob.starts (i : ℕ) (job : LiveJob) (hub hub' : LiveHub) : Prop :=
  match job with
  | .opens => i % 2 = 1 ∧ hub' = hub.openSession
  | .closes session =>
    i = 2 * session ∧ (hub.session session).isOpen ∧ hub' = (hub.disable session).drop session
  | .dies session => i % 2 = 1 ∧ (hub.session session).isOpen ∧ hub' = hub.drop session
  | .change _ _ _ session => i = 2 * session ∧ (hub.session session).isOpen ∧ hub' = hub
  | .push _ session queued => i = 2 * session ∧ hub.recv session = some (queued, hub')
  | .queue _ _ _ | .other _ => i % 2 = 1 ∧ hub' = hub

/-- What a call is answered: the hub's methods by the hub, and the rest as `inner` does. -/
def hubbed {σ : Type} (inner : Program.Environment Surroundings σ) :
    Program.Environment Surroundings (Connected σ) := fun s c t =>
  match c with
  | ⟨.liveMediation session, live⟩ => live = (s.hub.session session).live ∧ t = s
  | ⟨.isLive mediation, live⟩ => live = s.hub.isLive mediation ∧ t = s
  | ⟨.enable session mediation, _⟩ => t = { s with hub := s.hub.enable session mediation }
  | ⟨.disable session, _⟩ => t = { s with hub := s.hub.disable session }
  | ⟨.notify mediation queued, _⟩ => t = { s with hub := s.hub.notify mediation queued }
  | c => t.hub = s.hub ∧ inner s.inner c t.inner

/-- Connections and senders. -/
def connections (prim : Primitives) (mediator : Mediator) {σ : Type}
    (inner : Program.Environment Surroundings σ) :
    Pool.System Surroundings LiveJob (Connected σ) where
  program := LiveJob.program prim mediator
  start i job s t := job.starts i s.hub t.hub ∧ t.inner = s.inner
  env _ := hubbed inner
  idle _ _ := False

/-! ## The calls of the jobs -/

section Calls

variable {prim : Primitives} {mediator : Mediator} {before : List (Call Surroundings)} {op : Effect}
  {next : Surroundings.Reply op → Task Unit}

/-- What goes before each call of a sender. -/
theorem queue_calls {m r payload : String}
    (h : (void (queue mediator m r payload).run).Unfolds before (.call op next)) :
    (before = [] ∧ op = .now) ∨
    (∃ received : ℕ, before = [⟨.now, received⟩] ∧
      op = .store (.enqueue m r payload received mediator.limits.queue)) ∨
    ∃ (received : ℕ) (id : String), before = [⟨.now, received⟩,
        ⟨.store (.enqueue m r payload received mediator.limits.queue), .ok (some id)⟩] ∧
      op = .notify m ⟨id, r, received, payload⟩ := by
  rcases h.of_call with ⟨rfl, hcall⟩ | ⟨received, calls₁, rfl, h₁⟩
  · cases hcall
    exact .inl ⟨rfl, rfl⟩
  rcases h₁.of_call with ⟨rfl, hcall⟩ | ⟨answer, calls₂, rfl, h₂⟩
  · cases hcall
    exact .inr (.inl ⟨received, rfl, rfl⟩)
  -- only a message that was queued is notified
  rcases answer with e | _ | id
  · exact nomatch h₂.of_done.2
  · exact nomatch h₂.of_done.2
  · rcases h₂.of_call with ⟨rfl, hcall⟩ | ⟨_, calls₃, rfl, h₃⟩
    · cases hcall
      exact .inr (.inr ⟨received, id, rfl, rfl⟩)
    · exact nomatch h₃.of_done.2

/-- What goes before each call that answers with a status. -/
theorem status_calls {m : String} {recipient : Option String} {message : Message} {live : Bool}
    (h : (void (Pickup.status mediator m recipient message live).run).Unfolds before
      (.call op next)) :
    op = .now ∨ op = .uuid ∨ ∃ now : ℕ, before = [⟨.now, now⟩] ∧
      op = .store (.summary m recipient now mediator.limits.queue.ttlSecs) := by
  rcases h.of_call with ⟨rfl, hcall⟩ | ⟨now, calls₁, rfl, h₁⟩
  · cases hcall
    exact .inl rfl
  rcases h₁.of_call with ⟨rfl, hcall⟩ | ⟨answer, calls₂, rfl, h₂⟩
  · cases hcall
    exact .inr (.inr ⟨now, rfl, rfl⟩)
  rcases answer with e | summary
  · exact nomatch h₂.of_done.2
  -- the new message's id and time
  rcases h₂.of_call with ⟨rfl, hcall⟩ | ⟨id, calls₃, rfl, h₃⟩
  · cases hcall
    exact .inr (.inl rfl)
  rcases h₃.of_call with ⟨rfl, hcall⟩ | ⟨created, calls₄, rfl, h₄⟩
  · cases hcall
    exact .inl rfl
  · exact nomatch h₄.of_done.2

/-- The hub call of a `live-delivery-change`. -/
def switch (requester : String) (session : ℕ) (wanted : Bool) : Effect :=
  if wanted then .enable session requester else .disable session

/-- What goes before each call of a `live-delivery-change`: first it switches, and then it
counts. -/
theorem change_calls {requester : String} {recipient : Option String} {message : Message}
    {session : ℕ} (h : (void (Pickup.liveDeliveryChange mediator requester recipient message
      (some session)).run).Unfolds before (.call op next)) :
    ∃ wanted, (message.body.get "live_delivery").bind Value.asBool = some wanted ∧
      ((before = [] ∧ op = switch requester session wanted) ∨ op = .now ∨ op = .uuid ∨
        ∃ (k : Call Surroundings) (now : ℕ), before = [k, ⟨.now, now⟩] ∧
          k.op = switch requester session wanted ∧
          op = .store (.summary requester recipient now mediator.limits.queue.ttlSecs)) := by
  -- the status follows the switch, and reads the clock before it counts
  have hcounted : ∀ {k : Call Surroundings} {calls : List (Call Surroundings)} {wanted live : Bool},
      k.op = switch requester session wanted →
      (void (Pickup.status mediator requester recipient message live).run).Unfolds calls
        (.call op next) →
      op = .now ∨ op = .uuid ∨ ∃ (k' : Call Surroundings) (now : ℕ),
        k :: calls = [k', ⟨.now, now⟩] ∧
        k'.op = switch requester session wanted ∧
        op = .store (.summary requester recipient now mediator.limits.queue.ttlSecs) := by
    intro k calls wanted live hk hstatus
    rcases status_calls hstatus with hop | hop | ⟨now, rfl, hop⟩
    · exact .inl hop
    · exact .inr (.inl hop)
    · exact .inr (.inr ⟨k, now, rfl, hk, hop⟩)
  unfold Pickup.liveDeliveryChange at h
  split at h
  · exact nomatch h.of_done.2
  · rename_i hsession
    exact nomatch hsession
  · rename_i hwanted hsession
    obtain rfl := Option.some_inj.mp hsession
    refine ⟨true, hwanted, ?_⟩
    rcases h.of_call with ⟨rfl, hcall⟩ | ⟨answer, rest, rfl, h₁⟩
    · cases hcall
      exact .inl ⟨rfl, rfl⟩
    · exact .inr (hcounted rfl h₁)
  · rename_i hwanted hsession
    obtain rfl := Option.some_inj.mp hsession
    refine ⟨false, hwanted, ?_⟩
    rcases h.of_call with ⟨rfl, hcall⟩ | ⟨answer, rest, rfl, h₁⟩
    · cases hcall
      exact .inl ⟨rfl, rfl⟩
    · exact .inr (hcounted rfl h₁)
  · rename_i hsession
    exact nomatch hsession

/-- A connection that takes a push only reads its session. -/
theorem push_ensures {rely : (e : Effect) → Surroundings.Reply e → Prop} {resolver : Resolver}
    {session : ℕ} {queued : Queued} :
    (LiveJob.program prim mediator (.push resolver session queued)).Ensures rely
      (fun e : Effect => e = .liveMediation session ∨ e = .uuid ∨ e = .now ∨ e = .supply)
      fun _ => True := by
  change (void (liveDelivery prim mediator resolver session queued)).Ensures _ _ _
  rw [ensures_void]
  refine Program.ensures_bind.mpr (ensures_call.mpr ⟨Or.inl rfl, fun live _ => ?_⟩)
  cases live with
  | none => trivial
  | some mediation =>
    refine Program.ensures_bind.mpr (ensures_newMessage.mpr ⟨Or.inr (Or.inl rfl), fun id _ =>
      ⟨Or.inr (Or.inr (Or.inl rfl)), fun now _ => Program.ensures_bind.mpr ?_⟩⟩)
    exact packReply_ensures.mono (fun _ _ h => h) (fun _ h => Or.inr (Or.inr (Or.inr h)))
      fun _ _ => trivial

end Calls

/-! ## Steps -/

/-- What may change the hub. -/
def TouchesHub : Pool.Label Surroundings LiveJob → Prop
  | .start _ .opens | .start _ (.closes _) | .start _ (.dies _) | .start _ (.push _ _ _)
  | .call _ _ _ ⟨.enable _ _, _⟩ | .call _ _ _ ⟨.disable _, _⟩
  | .call _ _ _ ⟨.notify _ _, _⟩ => True
  | _ => False

/-- What a step does to the hub. -/
inductive HubMoves (mediator : Mediator) (hub : LiveHub) :
    Pool.Label Surroundings LiveJob → LiveHub → Prop
  | opens {i : ℕ} : HubMoves mediator hub (.start i .opens) hub.openSession
  | closes {session : ℕ} (h : (hub.session session).isOpen) :
      HubMoves mediator hub (.start (2 * session) (.closes session))
        ((hub.disable session).drop session)
  | dies {i session : ℕ} (h : (hub.session session).isOpen) :
      HubMoves mediator hub (.start i (.dies session)) (hub.drop session)
  | takes {resolver : Resolver} {session : ℕ} {queued : Queued} {hub' : LiveHub}
      (h : hub.recv session = some (queued, hub')) :
      HubMoves mediator hub (.start (2 * session) (.push resolver session queued)) hub'
  | enables {requester : String} {recipient : Option String} {message : Message} {session : ℕ}
      (h : session < hub.nextId) :
      HubMoves mediator hub (.call (2 * session) (.change requester recipient message session) []
        ⟨.enable session requester, ()⟩) (hub.enable session requester)
  | disables {requester : String} {recipient : Option String} {message : Message} {session : ℕ} :
      HubMoves mediator hub (.call (2 * session) (.change requester recipient message session) []
        ⟨.disable session, ()⟩) (hub.disable session)
  | notifies {i received : ℕ} {m r payload id : String} :
      HubMoves mediator hub (.call i (.queue m r payload) [⟨.now, received⟩,
          ⟨.store (.enqueue m r payload received mediator.limits.queue), .ok (some id)⟩]
        ⟨.notify m ⟨id, r, received, payload⟩, ()⟩) (hub.notify m ⟨id, r, received, payload⟩)
  | quiet {label : Pool.Label Surroundings LiveJob} (h : ¬ TouchesHub label) :
      HubMoves mediator hub label hub

section Steps

variable {mediator : Mediator} {hub hub' : LiveHub} {label : Pool.Label Surroundings LiveJob}

/-- A session that is not closed has been opened. -/
theorem lt_nextId (h : hub.Registered) {session : ℕ} (hclosed : hub.session session ≠ .closed) :
    session < hub.nextId := by
  by_contra hle
  exact hclosed (h.fresh session (Nat.not_lt.mp hle))

/-- A session that is open has been opened. -/
theorem lt_nextId_of_isOpen (h : hub.Registered) {session : ℕ}
    (hopen : (hub.session session).isOpen) : session < hub.nextId := by
  refine lt_nextId h fun hclosed => ?_
  rw [hclosed] at hopen
  exact Bool.false_ne_true hopen

/-- What a connection takes is the oldest push of its channel. -/
theorem recv_eq_some {session : ℕ} {queued : Queued} (h : hub.recv session = some (queued, hub')) :
    ∃ rest, (hub.session session).pushes = queued :: rest ∧
      hub' = hub.setSession session { hub.session session with pushes := rest } := by
  unfold LiveHub.recv at h
  split at h
  · exact nomatch h
  · rename_i first rest hpushes
    obtain ⟨rfl, rfl⟩ := Prod.mk.inj (Option.some_inj.mp h)
    exact ⟨rest, hpushes, rfl⟩

/-- A session that something was received from has been opened. -/
theorem lt_nextId_of_recv (hreg : hub.Registered) {session : ℕ} {queued : Queued}
    (h : hub.recv session = some (queued, hub')) : session < hub.nextId := by
  obtain ⟨rest, hpushes, -⟩ := recv_eq_some h
  refine lt_nextId hreg fun hclosed => ?_
  rw [hclosed] at hpushes
  exact nomatch hpushes

/-- Every step keeps the registry in order, and session numbers are not used again. -/
theorem HubMoves.registered (h : HubMoves mediator hub label hub') (hreg : hub.Registered) :
    hub'.Registered ∧ hub.nextId ≤ hub'.nextId := by
  cases h with
  | opens => exact ⟨hreg.openSession, Nat.le_succ _⟩
  -- a session that closes is taken out of the register first
  | @closes session hopen =>
    have hnext := LiveHub.disable_nextId hub session
    have hlt := lt_nextId_of_isOpen hreg hopen
    rw [← hnext] at hlt
    refine ⟨(hreg.disable session).setSession hlt rfl Bool.false_ne_true.elim, ?_⟩
    exact hnext.ge
  | dies hopen =>
    exact ⟨hreg.setSession (lt_nextId_of_isOpen hreg hopen) rfl Bool.false_ne_true.elim,
      Nat.le_refl _⟩
  | takes htakes =>
    have hlt := lt_nextId_of_recv hreg htakes
    obtain ⟨rest, -, rfl⟩ := recv_eq_some htakes
    exact ⟨hreg.setSession hlt rfl fun hopen => hopen, Nat.le_refl _⟩
  | @enables requester _ _ session hlt =>
    exact ⟨hreg.enable hlt requester, (LiveHub.disable_nextId hub session).ge⟩
  | @disables _ _ _ session => exact ⟨hreg.disable session, (LiveHub.disable_nextId hub session).ge⟩
  | notifies => exact ⟨hreg.notify _ _, Nat.le_refl _⟩
  | quiet => exact ⟨hreg, Nat.le_refl _⟩

/-- A session is live for a mediation when it was before, or is being switched to it. -/
theorem HubMoves.live (h : HubMoves mediator hub label hub') (hreg : hub.Registered) {session : ℕ}
    {m : String} (hlive : (hub'.session session).live = some m) :
    (hub.session session).live = some m ∨ ∃ recipient message,
      label = .call (2 * session) (.change m recipient message session)
      [] ⟨.enable session m, ()⟩ := by
  cases h with
  | opens =>
    by_cases hid : session = hub.nextId
    · subst hid
      simp [LiveHub.openSession] at hlive
    · left
      have hsame : hub.openSession.session session = hub.session session :=
        LiveHub.setSession_of_ne _ hid _
      rwa [hsame] at hlive
  | @closes closed =>
    by_cases hid : session = closed
    · subst hid
      simp [LiveHub.drop, LiveHub.disable_session] at hlive
    · left
      rwa [LiveHub.drop, LiveHub.setSession_of_ne _ hid, LiveHub.disable_session,
        Function.update_of_ne hid] at hlive
  | @dies i closed =>
    left
    by_cases hid : session = closed
    · subst hid
      simpa [LiveHub.drop] using hlive
    · rwa [LiveHub.drop, LiveHub.setSession_of_ne _ hid] at hlive
  | @takes resolver taker queued _ htakes =>
    left
    obtain ⟨rest, -, rfl⟩ := recv_eq_some htakes
    by_cases hid : session = taker
    · subst hid
      simpa using hlive
    · rwa [LiveHub.setSession_of_ne _ hid] at hlive
  | @enables requester recipient message switched =>
    rw [LiveHub.enable_session] at hlive
    by_cases hid : session = switched
    · subst hid
      -- switching on is the one move that makes a session live
      obtain rfl : requester = m := by simpa using hlive
      exact .inr ⟨recipient, message, rfl⟩
    · left
      rwa [Function.update_of_ne hid] at hlive
  | @disables _ _ _ switched =>
    rw [LiveHub.disable_session] at hlive
    by_cases hid : session = switched
    · subst hid
      simp at hlive
    · left
      rwa [Function.update_of_ne hid] at hlive
  | notifies =>
    left
    rwa [(hreg.notify_live _ _ _).1] at hlive
  | quiet => exact .inl hlive

end Steps

/-- Where a job may run. -/
def Placed (hub : LiveHub) (i : ℕ) : LiveJob → Prop
  | .change _ _ _ session | .push _ session _ => i = 2 * session ∧ session < hub.nextId
  | .closes session => i = 2 * session
  | _ => i % 2 = 1

section Machine

variable {prim : Primitives} {mediator : Mediator} {σ : Type}
  {inner : Program.Environment Surroundings σ}
  {c c' : Pool.Config Surroundings LiveJob (Connected σ)} {label : Pool.Label Surroundings LiveJob}

/-- The registry is in order, and connections handle one thing at a time. -/
structure Served (c : Pool.Config Surroundings LiveJob (Connected σ)) : Prop where
  registered : c.shared.hub.Registered
  placed : ∀ i t, c.threads i = some t → Placed c.shared.hub i t.task

/-- What starting a job does to the hub. -/
theorem moves_of_start {i : ℕ} {job : LiveJob} {s : Connected σ}
    (hstart : (connections prim mediator inner).start i job c.shared s) :
    HubMoves mediator c.shared.hub (.start i job) s.hub := by
  obtain ⟨hstarts, -⟩ := hstart
  -- what a job does to the hub when it starts; the others begin quietly
  cases job with
  | opens =>
    rw [hstarts.2]
    exact .opens
  | closes session =>
    obtain ⟨rfl, hopen, hhub⟩ := hstarts
    rw [hhub]
    exact .closes hopen
  | dies session =>
    rw [hstarts.2.2]
    exact .dies hstarts.2.1
  | change requester recipient message session =>
    rw [hstarts.2.2]
    exact .quiet id
  | push resolver session queued =>
    obtain ⟨rfl, htakes⟩ := hstarts
    exact .takes htakes
  | queue | other =>
    rw [hstarts.2]
    exact .quiet id

section Calls

variable {i : ℕ} {calls : List (Call Surroundings)} {op : Effect} {answer : Surroundings.Reply op}
  {rest : Surroundings.Reply op → Task Unit} {s : Connected σ}

/-- What a `live-delivery-change` does to the hub: its first call switches, the others are quiet. -/
theorem moves_of_change {requester : String} {recipient : Option String} {message : Message}
    {session : ℕ} (hlt : session < c.shared.hub.nextId)
    (hleft : ((connections prim mediator inner).program
      (.change requester recipient message session)).Unfolds calls (.call op rest))
    (hanswer : (connections prim mediator inner).env (2 * session) c.shared ⟨op, answer⟩ s) :
    HubMoves mediator c.shared.hub
      (.call (2 * session) (.change requester recipient message session) calls
        ⟨op, answer⟩) s.hub := by
  -- after the switch the job only reads and counts
  have hquiet : op = .now ∨ op = .uuid ∨ (∃ sop, op = .store sop) →
      HubMoves mediator c.shared.hub
        (.call (2 * session) (.change requester recipient message session) calls ⟨op, answer⟩)
        s.hub := by
    intro hop
    rcases hop with rfl | rfl | ⟨sop, rfl⟩ <;> rw [hanswer.1] <;> exact .quiet id
  obtain ⟨wanted, -, hcalls⟩ := change_calls hleft
  rcases hcalls with ⟨rfl, hswitch⟩ | hop | hop | ⟨k, now, -, -, hop⟩
  · cases wanted with
    | true =>
      obtain rfl : op = .enable session requester := hswitch
      obtain rfl : s = _ := hanswer
      exact .enables hlt
    | false =>
      obtain rfl : op = .disable session := hswitch
      obtain rfl : s = _ := hanswer
      exact .disables
  · exact hquiet (.inl hop)
  · exact hquiet (.inr (.inl hop))
  · exact hquiet (.inr (.inr ⟨_, hop⟩))

/-- What delivering a push does to the hub: nothing. -/
theorem moves_of_push {resolver : Resolver} {session : ℕ} {queued : Queued}
    (hleft : ((connections prim mediator inner).program (.push resolver session queued)).Unfolds
      calls (.call op rest))
    (hanswer : (connections prim mediator inner).env i c.shared ⟨op, answer⟩ s) :
    HubMoves mediator c.shared.hub (.call i (.push resolver session queued) calls ⟨op, answer⟩)
      s.hub := by
  have hensures : ((connections prim mediator inner).program
    (.push resolver session queued)).Ensures
      (Pool.Answered calls) _ _ := push_ensures
  have hop := (hleft.ensures hensures fun _ hk => hk).1
  rcases hop with rfl | rfl | rfl | rfl
  · obtain rfl : s = c.shared := hanswer.2
    exact .quiet id
  · rw [hanswer.1]
    exact .quiet id
  · rw [hanswer.1]
    exact .quiet id
  · rw [hanswer.1]
    exact .quiet id

/-- What queueing a message does to the hub: its last call notifies. -/
theorem moves_of_queue {m r payload : String}
    (hleft : ((connections prim mediator inner).program (.queue m r payload)).Unfolds calls
      (.call op rest))
    (hanswer : (connections prim mediator inner).env i c.shared ⟨op, answer⟩ s) :
    HubMoves mediator c.shared.hub (.call i (.queue m r payload) calls ⟨op, answer⟩) s.hub := by
  rcases queue_calls hleft with ⟨rfl, rfl⟩ | ⟨received, rfl, rfl⟩ | ⟨received, id', rfl, rfl⟩
  · rw [hanswer.1]
    exact .quiet id
  · rw [hanswer.1]
    exact .quiet id
  · obtain rfl : s = _ := hanswer
    exact .notifies

end Calls

/-- What a step of the pool does to the hub. -/
theorem Served.moves (h : Served c) (hunfolded : Pool.Unfolded (connections prim mediator inner) c)
    (hstep : Pool.Step (connections prim mediator inner) c label c') :
    HubMoves mediator c.shared.hub label c'.shared.hub := by
  cases hstep with
  | start _ hstart => exact moves_of_start hstart
  | @call i job calls op rest answer s hthread hanswer =>
    have hleft := hunfolded i _ hthread
    have hplaced := h.placed i _ hthread
    cases job with
    | opens | closes | dies => exact nomatch hleft.of_done.2
    | change requester recipient message session =>
      obtain ⟨rfl, hlt⟩ := hplaced
      exact moves_of_change hlt hleft hanswer
    | push resolver session queued => exact moves_of_push hleft hanswer
    | queue m r payload => exact moves_of_queue hleft hanswer
    | other sop =>
      -- a single call on the store
      rcases hleft.of_call with ⟨-, hcall⟩ | ⟨_, _, _, h₁⟩
      · cases hcall
        rw [Pool.Config.set_shared, hanswer.1]
        exact .quiet id
      · exact nomatch h₁.of_done.2
  | stop => exact .quiet id
  | idle hidle => exact hidle.elim

/-- At the start there is no session to serve. -/
theorem served_empty (s : σ) :
    Served (.empty ⟨.empty, s⟩ : Pool.Config Surroundings LiveJob _) where
  registered := LiveHub.registered_empty
  placed i t ht := by simp [Pool.Config.empty] at ht

/-- A job keeps its place as more sessions are opened. -/
theorem Placed.mono {hub hub' : LiveHub} {i : ℕ} {job : LiveJob} (h : Placed hub i job)
    (hle : hub.nextId ≤ hub'.nextId) : Placed hub' i job := by
  cases job with
  | change | push => exact ⟨h.1, h.2.trans_le hle⟩
  | _ => exact h

/-- One step keeps the sessions served, whatever call it is. -/
theorem Served.step (h : Served c) (hunfolded : Pool.Unfolded (connections prim mediator inner) c)
    (hstep : Pool.Step (connections prim mediator inner) c label c') : Served c' := by
  obtain ⟨hreg, hle⟩ := (h.moves hunfolded hstep).registered h.registered
  refine ⟨hreg, fun j t ht => ?_⟩
  cases hstep with
  | @start i job s _ hstart =>
    by_cases hj : j = i
    · subst hj
      obtain rfl : _ = t := by simpa using ht
      obtain ⟨hstarts, -⟩ := hstart
      -- a job that starts is placed by what its start requires
      cases job with
      | opens | dies | queue | other => exact hstarts.1
      | closes => exact hstarts.1
      | change =>
        exact ⟨hstarts.1, (lt_nextId_of_isOpen h.registered hstarts.2.1).trans_le hle⟩
      | push => exact ⟨hstarts.1, (lt_nextId_of_recv h.registered hstarts.2).trans_le hle⟩
    · rw [Pool.Config.set_threads_of_ne c hj] at ht
      exact (h.placed j t ht).mono hle
  | @call i job calls op rest answer s hthread _ =>
    by_cases hj : j = i
    · subst hj
      obtain rfl : _ = t := by simpa using ht
      exact (h.placed j _ hthread).mono hle
    · rw [Pool.Config.set_threads_of_ne c hj] at ht
      exact (h.placed j t ht).mono hle
  | @stop i job calls hthread =>
    by_cases hj : j = i
    · subst hj
      simp at ht
    · rw [Pool.Config.set_threads_of_ne c hj] at ht
      exact h.placed j t ht
  | idle hidle => exact hidle.elim

end Machine

end Dispatch
