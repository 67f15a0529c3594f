import AlmenaMediator.Didcomm.UnpackSoundness
import AlmenaMediator.Dispatch.Authority
import AlmenaMediator.Dispatch.Loopback
import AlmenaMediator.Store.Keyed

/-!
# Isolation between mediations

A message that is not a `forward` leaves the mediations of others alone: what its handler does names
the authenticated sender only. What reaches another mediation is the reply, when the sender is one
of its recipients and the reply cannot go back on the connection, and the wake-up that goes with it.
-/

namespace Dispatch

open Didcomm

/-- Whether an effect may write a part of what `m` has. -/
def Effect.Writes (part : Store.Part) (m : String) : Effect → Prop
  | .store op => op.Writes part m
  | _ => False

section Keyed

variable {σ : Type} (keyed : Store.Keyed σ) {prim : Primitives} {mediator : Mediator}
  {resolver : Resolver} {s t : σ} {calls : List (Call Surroundings)}

/-- Nothing of what a mediation has changed. -/
def Untouched (m : String) (s t : σ) : Prop := ∀ part, keyed.Same part m s t

variable {keyed}

/-- A state leaves a mediation untouched. -/
theorem Untouched.refl (m : String) (s : σ) : Untouched keyed m s s :=
  fun part => keyed.refl part m s

/-- A mediation is untouched by two steps that leave it untouched. -/
theorem Untouched.trans {m : String} {u : σ} (h : Untouched keyed m s t)
    (h' : Untouched keyed m t u) : Untouched keyed m s u :=
  fun part => keyed.trans (h part) (h' part)

/-- An effect changes only what it may write. -/
theorem same_around {part : Store.Part} {m : String} {c : Call Surroundings}
    (h : around keyed.env s c t) (hwrites : ¬ c.op.Writes part m) : keyed.Same part m s t := by
  have hstore := around_onStore h
  obtain ⟨op, reply⟩ := c
  cases op with
  | store op => exact keyed.same hstore hwrites
  | _ =>
    obtain rfl : t = s := hstore
    exact keyed.refl part m t

/-- The replies a program that made these calls could rely on. -/
def Got (calls : List (Call Surroundings)) (e : Effect) (r : Surroundings.Reply e) : Prop :=
  readsClock ⟨e, r⟩ ∧ ⟨e, r⟩ ∈ calls

/-- A program changes only what its calls may write. -/
theorem executes_same {α : Type} {p : Task α} {guar : Effect → Prop} {post : α → Prop} {a : α}
    (hp : p.Ensures (Got calls) guar post)
    (hexec : Program.Executes (around keyed.env) p s calls a t) :
    post a ∧ (∀ c ∈ calls, guar c.op) ∧
      ∀ part m, (∀ e, guar e → ¬ e.Writes part m) → keyed.Same part m s t := by
  obtain ⟨hpost, -, hcalls⟩ := hp.sound (fun _ => True)
    (fun _ _ _ _ _ h => ⟨⟨around_clock h.1, h.2⟩, trivial⟩) trivial hexec.among
  refine ⟨hpost, fun c hc => (hcalls c hc).1, fun part m hwrites => ?_⟩
  exact (hp.sound (fun u => keyed.Same part m s u)
    (fun _ c _ hsame hguar h => ⟨⟨around_clock h.1, h.2⟩,
      keyed.trans hsame (same_around h.1 (hwrites c.op hguar))⟩)
    (keyed.refl part m s) hexec.among).2.1

/-! ## Handling -/

/-- What a handler may do for a requester, or for nobody. -/
def Serves (mediator : Mediator) (requester : Option String) (session : Option ℕ) (e : Effect) :
    Prop :=
  e = .now ∨ e = .uuid ∨
    ∃ r, requester = some r ∧ OnBehalfOf mediator (fun _ _ => True) r session (fun _ => True) e

/-- An effect that serves a requester writes no part of another mediation. -/
theorem Serves.not_writes {requester : Option String} {session : Option ℕ} {e : Effect}
    (h : Serves mediator requester session e) {part : Store.Part} {m : String}
    (hm : requester ≠ some m) : ¬ e.Writes part m := by
  rcases h with rfl | rfl | ⟨r, rfl, h⟩
  · exact id
  · exact id
  · have hne : r ≠ m := fun hr => hm (congrArg some hr)
    cases e with
    | store op => cases op <;> simp_all [OnBehalfOf, OpOnBehalfOf, Effect.Writes, Store.Op.Writes]
    | _ => exact id

/-- Handling a message that is not a `forward` serves its requester. -/
theorem handleAt_serves {now : ℕ} {requester : Option String} {message : Message}
    {session : Option ℕ} (hforward : message.type_ ≠ forwardType) :
    (handleAt prim mediator resolver now requester message session).run.Ensures (Got calls)
      (Serves mediator requester session) fun _ => True := by
  unfold handleAt
  split
  · trivial
  · exact handleMessage_ensures (fun _ h => h.1) (fun h => absurd h hforward) (.inl rfl)
      (.inr (.inl rfl)) fun r hr e he => .inr (.inr ⟨r, hr, he.imp (fun _ _ _ => trivial)
        fun _ _ => trivial⟩)

/-! ## Replies -/

/-- `packed` is the reply encrypted from the mediator to `recipient`. -/
def Packs (prim : Primitives) (mediator : Mediator) (resolver : Resolver) (reply : Message)
    (recipient : String) (forward : Bool) (packed : PackedMessage) : Prop :=
  ∃ supply, ((reply.withFrom mediator.identity.did).withTo [recipient]).packEncrypted prim resolver
    mediator.identity.secrets supply recipient (some mediator.identity.did) none
    { PackOptions.default with forward := forward } = .ok packed

/-- Packing a reply asks for randomness only, and what it returns is a packing of the reply. -/
theorem packReply_ensures {rely : (e : Effect) → Surroundings.Reply e → Prop} {reply : Message}
    {recipient : String} {forward : Bool} :
    (packReply prim mediator resolver reply recipient forward).Ensures rely
      (fun e : Effect => e = .supply) fun packed =>
        ∀ p, packed = some p → Packs prim mediator resolver reply recipient forward p := by
  refine Program.ensures_bind.mpr (ensures_call.mpr ⟨rfl, fun supply _ => ?_⟩)
  split
  · rename_i packed hpacked
    rintro p ⟨⟩
    exact ⟨supply, hpacked⟩
  · exact nofun

/-- Queueing is one `enqueue`. -/
theorem queue_executes {m r payload : String} {result : Except ReceiveError Unit}
    (h : Program.Executes (around keyed.env) (queue mediator m r payload).run s calls result t) :
    (∃ now answer, keyed.env s ⟨.enqueue m r payload now mediator.limits.queue, answer⟩ t) ∧
      ∀ m', ⟨.spawnWake m', ()⟩ ∉ calls := by
  cases h with
  | call hnow h =>
    obtain rfl := hnow.2
    -- the store may fail, refuse or queue; only then the sessions are notified
    cases h with
    | @call _ _ answer _ u _ calls _ henqueue h =>
      rcases answer with e | _ | id
      · cases h
        exact ⟨⟨_, _, henqueue⟩, by simp⟩
      · cases h
        exact ⟨⟨_, _, henqueue⟩, by simp⟩
      · cases h with
        | call hnotify h =>
          obtain rfl : _ = u := hnotify
          cases h
          exact ⟨⟨_, _, henqueue⟩, by simp⟩

/-- Waking a mediation starts a task for that mediation, or none. -/
theorem wake_executes {m : String}
    (h : Program.Executes (around keyed.env) (wake mediator m) s calls () t) :
    t = s ∧ ∀ m', ⟨.spawnWake m', ()⟩ ∈ calls → m' = m := by
  unfold wake at h
  split at h
  · cases h with
    | @call _ _ live _ u _ _ _ hlive h =>
      obtain rfl : u = s := hlive
      cases live with
      | true =>
        cases h
        exact ⟨rfl, by simp⟩
      | false =>
        cases h with
        | call hspawn h =>
          obtain rfl := hspawn
          cases h
          exact ⟨rfl, by simp⟩
  · cases h
    exact ⟨rfl, by simp⟩

/-- The reply to `r` is queued for `m`, of which `r` is a recipient: one `enqueue` of the reply
packed for `r`, and nothing else of what `m` has changes. -/
structure QueuesReply (keyed : Store.Keyed σ) (prim : Primitives) (mediator : Mediator)
    (resolver : Resolver) (reply : Message) (r m : String) (s t : σ) : Prop where
  owner : keyed.owner s r = some m
  rest : ∀ part, part ≠ .queue → keyed.Same part m s t
  queue : ∃ packed now answer u v, Packs prim mediator resolver reply r false packed ∧
    keyed.Same .queue m s u ∧
    keyed.env u ⟨.enqueue m r packed.message now mediator.limits.queue, answer⟩ v ∧
    keyed.Same .queue m v t

/-- What leaves a mediation untouched can go before the queueing of a reply. -/
theorem QueuesReply.after {reply : Message} {r m : String} {u : σ}
    (h : QueuesReply keyed prim mediator resolver reply r m u t) (hsame : Untouched keyed m s u) :
    QueuesReply keyed prim mediator resolver reply r m s t := by
  obtain ⟨packed, now, answer, v, w, hpacked, hbefore, henqueue, hafter⟩ := h.queue
  exact ⟨(keyed.owner_of_same (hsame .recipients) r).mp h.owner,
    fun part hpart => keyed.trans (hsame part) (h.rest part hpart),
    packed, now, answer, v, w, hpacked, keyed.trans (hsame .queue) hbefore, henqueue, hafter⟩

/-- Nothing of what `m` has changes, and no task that wakes its devices is started. -/
def LeavesAlone (keyed : Store.Keyed σ) (m : String) (calls : List (Call Surroundings)) (s t : σ) :
    Prop :=
  Untouched keyed m s t ∧ ⟨.spawnWake m, ()⟩ ∉ calls

/-- Two rows of calls that leave a mediation alone leave it alone together. -/
theorem LeavesAlone.append {m : String} {u : σ} {calls' : List (Call Surroundings)}
    (h : LeavesAlone keyed m calls s u) (h' : LeavesAlone keyed m calls' u t) :
    LeavesAlone keyed m (calls ++ calls') s t :=
  ⟨h.1.trans h'.1, by simpa using ⟨h.2, h'.2⟩⟩

/-- A call that is no wake-up leaves a mediation alone when it may not write what the mediation
has. -/
theorem LeavesAlone.call {m : String} {c : Call Surroundings} (h : around keyed.env s c t)
    (hwrites : ∀ part, ¬ c.op.Writes part m) (hwake : c ≠ ⟨.spawnWake m, ()⟩) :
    LeavesAlone keyed m [c] s t :=
  ⟨fun part => same_around h (hwrites part), by simpa using hwake.symm⟩

/-- Queueing a reply for a recipient leaves every mediation alone but the recipient's, where it
queues the reply. -/
theorem queueReply_executes {reply : Message} {r m : String}
    (h : Program.Executes (around keyed.env) (queueReply prim mediator
      resolver reply r m) s calls () t) (howner : keyed.owner s r = some m) (m' : String) :
    LeavesAlone keyed m' calls s t ∨
      m' = m ∧ QueuesReply keyed prim mediator resolver reply r m s t := by
  obtain ⟨calls₁, calls₂, packed, u, rfl, hpack, h⟩ := h.bind_inv
  obtain ⟨hpacked, hcalls, hsame⟩ := executes_same packReply_ensures hpack
  -- packing writes nothing
  have halone : ∀ m', LeavesAlone keyed m' calls₁ s u := fun m' =>
    ⟨fun part => hsame part m' (by simp [Effect.Writes]), fun hm => by simpa using hcalls _ hm⟩
  cases packed with
  | none =>
    cases h
    exact .inl (by simpa using halone m')
  | some packed =>
    obtain ⟨calls₃, calls₄, queued, v, rfl, hqueue, h⟩ := h.bind_inv
    obtain ⟨⟨now, answer, henqueue⟩, hquiet⟩ := queue_executes hqueue
    -- the wake that may follow is a spawn, which writes nothing either
    have hend : t = v ∧ ∀ m', ⟨.spawnWake m', ()⟩ ∈ calls₄ → m' = m := by
      cases queued with
      | ok _ => exact wake_executes h
      | error _ =>
        cases h
        exact ⟨rfl, by simp⟩
    obtain ⟨rfl, hwakes⟩ := hend
    have hrest : ∀ part m', ¬ (m = m' ∧ part = .queue) → keyed.Same part m' u t := fun _ _ hpart =>
      keyed.same henqueue hpart
    by_cases hm : m' = m
    · subst hm
      refine .inr ⟨rfl, QueuesReply.after ⟨?_, fun part hpart => hrest part m' fun h => hpart h.2,
        packed, now, answer, u, t, hpacked packed rfl, keyed.refl _ _ _, henqueue,
        keyed.refl _ _ _⟩ (halone m').1⟩
      exact (keyed.owner_of_same ((halone m').1 .recipients) r).mpr howner
    · refine .inl ((halone m').append ⟨fun part => hrest part m' fun h => hm h.1.symm, ?_⟩)
      rw [List.mem_append]
      exact fun hmem => hmem.elim (hquiet m') fun hmem => hm (hwakes m' hmem)

/-- A reply to another mediator's wallet changes nothing here. -/
theorem relayReply_ensures {rely : (e : Effect) → Surroundings.Reply e → Prop} {reply : Message}
    {sender : String} :
    (relayReply prim mediator resolver reply sender).Ensures rely
      (fun e : Effect => e = .supply ∨ ∃ uri message, e = .spawnDeliver uri message)
      fun _ => True := by
  unfold relayReply
  split
  · refine Program.ensures_bind.mpr
      (packReply_ensures.mono (fun _ _ h => h) (fun _ h => .inl h) fun packed _ => ?_)
    split
    · trivial
    · split
      · trivial
      · exact ⟨.inr ⟨_, _, rfl⟩, fun _ _ => trivial⟩
  · trivial

/-- A reply is queued for the mediation that registered the sender, or changes nothing here. -/
theorem sendReply_executes {reply : Message} {sender : String}
    (h : Program.Executes (around keyed.env) (sendReply prim mediator resolver reply sender) s calls
      () t) (m : String) :
    LeavesAlone keyed m calls s t ∨
      QueuesReply keyed prim mediator resolver reply (didOf sender) m s t := by
  cases h with
  | @call _ _ owner _ u _ calls _ howner h =>
    have halone : LeavesAlone keyed m [⟨.store (.mediationOf (didOf sender)), owner⟩] s u :=
      .call howner (fun _ => id) nofun
    rcases owner with e | _ | mediation
    · cases h
      exact .inl halone
    -- the sender is not mediated here: the reply is posted, and nothing is written
    · obtain ⟨-, hcalls, hsame⟩ := executes_same relayReply_ensures h
      refine .inl (halone.append ⟨fun part => hsame part m ?_, fun hm => by
        simpa using hcalls _ hm⟩)
      rintro e (rfl | ⟨uri, message, rfl⟩) <;> exact id
    -- the sender is mediated here, and looking that up changed nothing
    · have hown : keyed.owner s (didOf sender) = some mediation := (keyed.mediationOf howner).symm
      have hsame : keyed.Same .recipients mediation s u := keyed.same howner id
      have hown' := (keyed.owner_of_same hsame (didOf sender)).mpr hown
      rcases queueReply_executes h hown' m with hnothing | ⟨rfl, hqueues⟩
      · exact .inl (halone.append hnothing)
      · exact .inr (hqueues.after halone.1)

/-- The message a handler answers with. -/
def Answers (message : Message) (reply : Message) : Handled → Prop
  | .reply r => r = reply
  | .problem problem => ∃ id now, reply =
    { (Message.new id now problemReportType (.object
        ([("code", .string problem.code), ("comment", .string problem.comment)] ++
          problem.args message))).header "ack" (.array [.string message.id]) with
      pthid := some message.threadId }
  | .nothing => False

/-- A reply goes back on the connection, or is sent to an authenticated sender. -/
theorem routeBack_executes {request reply : Message} {websocket authenticated : Bool}
    {outcome : Outcome}
    (h : Program.Executes (around keyed.env)
      (routeBack prim mediator resolver request reply websocket authenticated) s calls outcome t)
    (m : String) :
    LeavesAlone keyed m calls s t ∨
      ∃ sender, request.from_ = some sender ∧ authenticated ∧ routesBack request websocket = false ∧
        QueuesReply keyed prim mediator resolver reply (didOf sender) m s t := by
  unfold routeBack at h
  split at h
  · cases h
    exact .inl ⟨.refl m s, by simp⟩
  · rename_i sender hsender
    split at h
    -- the reply goes back on the connection
    · obtain ⟨calls₁, calls₂, packed, u, rfl, hpack, h⟩ := h.bind_inv
      obtain ⟨-, hcalls, hsame⟩ := executes_same packReply_ensures hpack
      have halone : LeavesAlone keyed m calls₁ s u :=
        ⟨fun part => hsame part m (by simp [Effect.Writes]), fun hm => by simpa using hcalls _ hm⟩
      cases packed <;>
        · cases h
          exact .inl (by simpa using halone)
    · rename_i hroute
      split at h
      · rename_i hauth
        obtain ⟨calls₁, calls₂, _, u, rfl, hsend, h⟩ := h.bind_inv
        cases h
        rcases sendReply_executes hsend m with hnothing | hqueues
        · exact .inl (by simpa using hnothing)
        · exact .inr ⟨sender, hsender, hauth, by simpa using hroute, hqueues⟩
      · cases h
        exact .inl ⟨.refl m s, by simp⟩

/-- So does what a handler answers with. -/
theorem answer_executes {message : Message} {handled : Handled} {websocket authenticated : Bool}
    {outcome : Outcome}
    (h : Program.Executes (around keyed.env)
      (answer prim mediator resolver message handled websocket authenticated) s calls outcome t)
    (m : String) :
    LeavesAlone keyed m calls s t ∨
      ∃ sender reply, message.from_ = some sender ∧ authenticated ∧
        routesBack message websocket = false ∧ Answers message reply handled ∧
        QueuesReply keyed prim mediator resolver reply (didOf sender) m s t := by
  cases handled with
  | nothing =>
    cases h
    exact .inl ⟨.refl m s, by simp⟩
  | reply reply =>
    rcases routeBack_executes h m with hnothing | ⟨sender, hfrom, hauth, hroute, hqueues⟩
    · exact .inl hnothing
    · exact .inr ⟨sender, reply, hfrom, hauth, hroute, rfl, hqueues⟩
  -- a problem report takes an id and a reading of the clock first
  | problem problem =>
    cases h with
    | @call _ _ id _ u _ _ _ huuid h =>
      obtain rfl : u = s := huuid
      cases h with
      | @call _ _ now _ v _ _ _ hnow h =>
        obtain rfl := hnow.2
        rcases routeBack_executes h m with ⟨hsame, hquiet⟩ | ⟨sender, hfrom, hauth, hroute, hqueues⟩
        · exact .inl ⟨hsame, by simpa using hquiet⟩
        · exact .inr ⟨sender, _, hfrom, hauth, hroute, ⟨id, now, rfl⟩, hqueues⟩

/-! ## Messages -/

/-- What the handler may decide about the message in a state. -/
def Decides (keyed : Store.Keyed σ) (prim : Primitives) (mediator : Mediator) (resolver : Resolver)
    (requester : Option String) (message : Message) (session : Option ℕ) (s : σ)
    (handled : Handled) : Prop :=
  ∃ now calls t, Program.Executes (around keyed.env)
    (handleAt prim mediator resolver now requester message session).run s calls (.ok handled) t

/-- A message that is no `forward` leaves a mediation other than its sender's alone, or its reply is
queued for that mediation. -/
theorem handleUnpacked_executes {message : Message} {metadata : UnpackMetadata} {session : Option ℕ}
    {result : Except ReceiveError Outcome} (hforward : message.type_ ≠ forwardType)
    (h : Program.Executes (around keyed.env)
      (handleUnpacked prim mediator resolver message metadata session).run s calls result t)
    {m : String} (hm : metadata.authenticated → message.from_ ≠ some m) :
    LeavesAlone keyed m calls s t ∨
      ∃ sender reply handled, message.from_ = some sender ∧ metadata.authenticated ∧
        routesBack message session.isSome = false ∧
        Decides keyed prim mediator resolver (some sender) message session s handled ∧
        Answers message reply handled ∧
        QueuesReply keyed prim mediator resolver reply (didOf sender) m s t := by
  have hrequester : (message.from_.filter fun _ => metadata.authenticated) ≠ some m := by
    simp only [ne_eq, Option.filter_eq_some_iff, not_and, Bool.not_eq_true]
    exact fun hfrom => by_contra fun hauth => hm (by simpa using hauth) hfrom
  cases h with
  | @call _ _ now _ u _ calls _ hnow h =>
    obtain rfl : u = s := hnow.2
    obtain ⟨calls₁, calls₂, handled, v, rfl, hhandle, h⟩ := Program.Executes.bind_inv
      (p := (handleAt prim mediator resolver now _ message session).run) h
    obtain ⟨-, hcalls, hsame⟩ := executes_same (handleAt_serves hforward) hhandle
    -- up to the decision only the requester's mediation is written
    have halone : LeavesAlone keyed m (⟨.now, now⟩ :: calls₁) u v := by
      refine ⟨fun part => hsame part m fun e he => he.not_writes hrequester, fun hmem => ?_⟩
      rw [List.mem_cons] at hmem
      rcases hmem with hmem | hmem
      · cases hmem
      · rcases hcalls _ hmem with h | h | ⟨r, -, h⟩
        · cases h
        · cases h
        · exact h.elim
    cases handled with
    | error e =>
      cases h
      exact .inl (by simpa using halone)
    | ok handled =>
      obtain ⟨calls₃, calls₄, outcome, w, rfl, hanswer, h⟩ := Program.Executes.bind_inv
        (p := answer prim mediator resolver message handled session.isSome metadata.authenticated) h
      cases h
      rcases answer_executes hanswer m with hnothing | ⟨sender, reply, hfrom, hauth, hroute, hreply,
        hqueues⟩
      · exact .inl (by simpa using halone.append hnothing)
      · have hsender : (message.from_.filter fun _ => metadata.authenticated) = some sender := by
          simp [hfrom, hauth]
        exact .inr ⟨sender, reply, handled, hfrom, hauth, hroute,
          hsender ▸ ⟨now, calls₁, v, hhandle⟩, hreply, hqueues.after halone.1⟩

/-- What the wake-up of `m` may change: it claims the push marker and removes devices whose tokens a
push service rejected. -/
structure WakesOnly (keyed : Store.Keyed σ) (m : String) (calls : List (Call Surroundings))
    (s t : σ) : Prop where
  others : ∀ part m', (m' = m → part ≠ .devices ∧ part ≠ .pushMarker) → keyed.Same part m' s t
  rejected : ∀ m' service token answer, ⟨.store (.removeDevice m' service token), answer⟩ ∈ calls →
    ⟨.push service token, .ok .invalidToken⟩ ∈ calls

/-- Waking a mediation touches its devices and its push marker and nothing of another mediation. -/
theorem wakeTask_executes {m : String}
    (h : Program.Executes (around keyed.env) (Push.wakeTask mediator m) s calls () t) :
    WakesOnly keyed m calls s t := by
  have hwakes : (Push.wakeTask mediator m).Ensures (Got calls)
    (Wakes mediator (Got calls) m) fun _ => True :=
    ensures_void.mpr wake_wakes
  obtain ⟨-, hcalls, hsame⟩ := executes_same hwakes h
  refine ⟨fun part m' hpart => hsame part m' fun e he => ?_, fun m' service token answer hmem => ?_⟩
  · cases e with
    | store op =>
      cases op with
      | claimPush m'' now hold =>
        -- a claim writes the push marker of the woken mediation, and a dead device is its own
        obtain rfl : m'' = m := he.1
        exact fun hw => (hpart hw.1.symm).2 hw.2
      | removeDevice m'' service token =>
        obtain rfl : m'' = m := he.1
        exact fun hw => (hpart hw.1.symm).1 hw.2
      | devices => exact id
      | _ => exact he.elim
    | now | push => exact id
    | _ => exact he.elim
  · exact (hcalls _ hmem).2.2

/-- Delivering to another mediator changes nothing a mediation has. -/
theorem deliver_executes {uri text : String}
    (h : Program.Executes (around keyed.env) (deliver prim uri text) s calls () t) (m : String) :
    Untouched keyed m s t := by
  have hdeliver : (deliver prim uri text).Ensures (Got calls)
      (fun e : Effect => ∀ part, ¬ e.Writes part m) fun _ => True := by
    refine ⟨fun _ => id, fun posted _ => ?_⟩
    cases posted with
    | ok _ => trivial
    | error _ => exact ⟨fun _ => id, fun _ _ => ⟨fun _ => id, fun _ _ => trivial⟩⟩
  exact fun part => (executes_same hdeliver h).2.2 part m fun e he => he part

/-- Handling an envelope with this message in it is handling the message, or nothing. -/
theorem handle_executes {session : Option ℕ} {packed : String} {message : Message}
    {metadata : UnpackMetadata} {result : Except ReceiveError Outcome}
    (hunpack : unpack prim resolver mediator.identity.secrets packed = .ok (message, metadata))
    (hforward : message.type_ ≠ forwardType)
    (h : Program.Executes (around keyed.env) (handle prim mediator resolver
      packed session).run s calls result t) {m : String}
      (hm : metadata.authenticated → message.from_ ≠ some m) : LeavesAlone keyed m calls s t ∨
      ∃ sender reply handled, message.from_ = some sender ∧ metadata.authenticated ∧
        routesBack message session.isSome = false ∧
        Decides keyed prim mediator resolver (some sender) message session s handled ∧
        Answers message reply handled ∧
        QueuesReply keyed prim mediator resolver reply (didOf sender) m s t := by
  simp only [handle, hunpack] at h
  -- what is not encrypted is refused
  split at h
  · cases h
    exact .inl ⟨.refl m s, by simp⟩
  · exact handleUnpacked_executes hforward h hm

/-- Isolation: a message that is not a `forward` leaves every mediation other than its authenticated
sender's alone, unless its reply cannot go back on the connection and the sender is a recipient of
the mediation: then its queue gains that reply, and a wake-up of its devices may be started. The
tasks that are started change nothing else. -/
theorem isolated (keyed : Store.Keyed σ) {session : Option ℕ} {packed : String} {message : Message}
    {metadata : UnpackMetadata} {result : Except ReceiveError Outcome}
    (hunpack : unpack prim resolver mediator.identity.secrets packed = .ok (message, metadata))
    (hforward : message.type_ ≠ forwardType)
    (h : Program.Executes (around keyed.env) (handle prim mediator resolver
      packed session).run s calls result t) :
    (¬ metadata.authenticated → ∀ m, LeavesAlone keyed m calls s t) ∧
    (metadata.authenticated → ∃ skid r, metadata.encryptedFromKid = some skid ∧ r = didOf skid ∧
      message.from_ = some r ∧ ∀ m, m ≠ r → LeavesAlone keyed m calls s t ∨
        routesBack message session.isSome = false ∧ ∃ handled reply,
          Decides keyed prim mediator resolver (some r) message session s handled ∧
          Answers message reply handled ∧
          QueuesReply keyed prim mediator resolver reply r m s t) ∧
    (∀ m calls' u v, Program.Executes (around keyed.env) (Push.wakeTask mediator m) u calls' () v →
      WakesOnly keyed m calls' u v) ∧
    ∀ uri text calls' u v, Program.Executes (around keyed.env)
    (deliver prim uri text) u calls' () v → ∀ m, Untouched keyed m u v := by
  refine ⟨fun hauth m => ?_, fun hauth => ?_, fun m calls' u v => wakeTask_executes,
    fun uri text calls' u v h m => deliver_executes h m⟩
  -- a reply is queued for an authenticated sender only
  · rcases handle_executes hunpack hforward h fun h => absurd h hauth with hnothing | hqueues
    · exact hnothing
    · obtain ⟨-, -, -, -, h, -⟩ := hqueues
      exact absurd h hauth
  · obtain ⟨skid, hskid, hfrom⟩ := unpack_sender hunpack hauth
    refine ⟨skid, didOf skid, hskid, rfl, hfrom, fun m hm => ?_⟩
    rcases handle_executes hunpack hforward h fun _ hm' => hm (by simpa [hfrom] using hm'.symm) with
      hnothing | ⟨sender, reply, handled, hsender, -, hroute, hdecides, hreply, hqueues⟩
    · exact .inl hnothing
    -- the reply goes to the sender itself
    · obtain rfl : didOf skid = sender := by simpa [hfrom] using hsender
      rw [didOf_didOf] at hqueues
      exact .inr ⟨hroute, handled, reply, hdecides, hreply, hqueues⟩

end Keyed

/-! ### A reply that wakes another mediation -/

namespace ReplyExample

open Didcomm.Loopback Loopback

/-- Push is on. -/
def withPush : Mediator := mediator
  { maxMessageBytes := 1000, queue := ⟨60, 10, 1000⟩, maxRecipientDids := 2,
    pushMinIntervalSecs := 0,
    recipientProof := false, mediationTtlSecs := 0 } false (some [.apns])

/-- `did:ex:b` pings the mediator, over HTTP and without `return_route`. -/
def ping : Message := (Message.new "1" 1000 pingType (.object [])).withFrom "did:ex:b"

def prim : Primitives := packages (fun _ => ⟨"did:ex:b", ping⟩) self ⟨"", "", "", 0⟩

/-- `did:ex:b` is a recipient of `did:ex:a`, which has a device. -/
def start : Store.Inner :=
  ((Store.Inner.empty.grantMediation "did:ex:a" 0).addRecipient "did:ex:a" "did:ex:b" 2).2.setDevice
    "did:ex:a" .apns (some ⟨"f0", none⟩)

/-- Handling the ping. -/
def handling : Task (Except ReceiveError Outcome) :=
  (handle prim withPush (resolver fun _ => []) (envelope 0) none).run

/-- Handling it once it is unpacked. -/
def handlingUnpacked : Task (Except ReceiveError Outcome) :=
  (handleUnpacked prim withPush (resolver fun _ => []) ping (metadata "did:ex:b" self) none).run

/-- The store when the ping is handled. -/
def handled : Store.Inner := (handlingUnpacked.run (calm 1000) start).2

/-- The store when the wake-up is over as well. -/
def woken : Store.Inner := ((Push.wakeTask withPush "did:ex:a").run (calm 1000) handled).2

/-- The envelope of the example is unpacked to the ping of `did:ex:b`. -/
theorem unpacked : unpack prim (resolver fun _ => []) withPush.identity.secrets (envelope 0) =
    .ok (ping, metadata "did:ex:b" self) :=
  unpack_eq rfl (by decide) rfl rfl rfl (by decide)

/-- Handling the ping of the example is an execution around the in-process store. -/
theorem handling_executes : Program.Executes (around Store.MemoryStep) handling start
    (handlingUnpacked.trace (calm 1000) start)
    (handlingUnpacked.run (calm 1000) start).1 handled := by
  have hhandle : handle prim withPush (resolver fun _ => []) (envelope 0) none =
      handleUnpacked prim withPush (resolver fun _ => []) ping (metadata "did:ex:b" self) none :=
    handle_eq rfl rfl (by decide) rfl rfl rfl (by decide)
  rw [handling, hhandle]
  exact (Program.run_executes _ _ _).mono fun _ _ _ => calm_around (by decide)

/-- The wake-up it starts. -/
def startsWake : Call Surroundings → Bool
  | ⟨.spawnWake m, _⟩ => m == "did:ex:a"
  | _ => false

/-- Handling the ping of the example spawns a wake of `did:ex:a`. -/
theorem spawned : ⟨.spawnWake "did:ex:a", ()⟩ ∈ handlingUnpacked.trace (calm 1000) start := by
  have h : (handlingUnpacked.trace (calm 1000) start).any startsWake := by decide +kernel
  obtain ⟨⟨op, reply⟩, hmem, hstarts⟩ := List.any_eq_true.mp h
  cases op with
  | spawnWake m =>
    obtain rfl : m = "did:ex:a" := by simpa [startsWake] using hstarts
    exact hmem
  | _ => simp [startsWake] at hstarts

/-- The spawned wake of the example is an execution around the in-process store. -/
theorem waking_executes : Program.Executes (around Store.MemoryStep)
    (Push.wakeTask withPush "did:ex:a") handled
    ((Push.wakeTask withPush "did:ex:a").trace (calm 1000) handled) () woken :=
  (Program.run_executes _ _ _).mono fun _ _ _ => calm_around (by decide)

/-- After the wake `did:ex:a` has a push marker, although it was `did:ex:b` that sent the ping. -/
theorem woken_marker : woken.pushSent "did:ex:a" = some (1000, 1060) := by decide +kernel

end ReplyExample

/-- The reply to one wallet sets the push marker of another mediation. -/
theorem reply_wakes_another :
    ∃ calls result t calls' u,
      unpack ReplyExample.prim (Loopback.resolver fun _ => [])
        ReplyExample.withPush.identity.secrets (Loopback.envelope 0) =
          .ok (ReplyExample.ping, Loopback.metadata "did:ex:b" Loopback.self) ∧
      Program.Executes (around Store.memoryKeyed.env)
        (handle ReplyExample.prim ReplyExample.withPush (Loopback.resolver fun _ => [])
          (Loopback.envelope 0) none).run ReplyExample.start calls result t ∧
      ⟨.spawnWake "did:ex:a", ()⟩ ∈ calls ∧
      Program.Executes (around Store.memoryKeyed.env)
        (Push.wakeTask ReplyExample.withPush "did:ex:a") t calls' () u ∧
      ¬ Store.memoryKeyed.Same .pushMarker "did:ex:a" ReplyExample.start u := by
  refine ⟨_, _, _, _, _, ReplyExample.unpacked, ReplyExample.handling_executes,
    ReplyExample.spawned, ReplyExample.waking_executes, fun h => ?_⟩
  have hmarker : some (1000, 1060) = ReplyExample.start.pushSent "did:ex:a" :=
    ReplyExample.woken_marker ▸ h
  exact absurd hmarker (by decide)

/-- Nothing of it reaches a third mediation. -/
theorem isolated_third :
    ∃ calls result t, Program.Executes (around Store.memoryKeyed.env)
        (handle ReplyExample.prim ReplyExample.withPush (Loopback.resolver fun _ => [])
          (Loopback.envelope 0) none).run ReplyExample.start calls result t ∧
      LeavesAlone Store.memoryKeyed "did:ex:c" calls ReplyExample.start t := by
  refine ⟨_, _, _, ReplyExample.handling_executes, ?_⟩
  obtain ⟨-, hauthenticated, -⟩ := isolated Store.memoryKeyed ReplyExample.unpacked (by decide)
    ReplyExample.handling_executes
  obtain ⟨skid, r, hskid, rfl, -, hothers⟩ := hauthenticated rfl
  obtain rfl : "did:ex:b#k" = skid := Option.some.inj hskid
  rcases hothers "did:ex:c" (by decide) with hnothing | ⟨-, _, _, -, -, hqueues⟩
  · exact hnothing
  · exact absurd hqueues.owner (by decide)

end Dispatch
