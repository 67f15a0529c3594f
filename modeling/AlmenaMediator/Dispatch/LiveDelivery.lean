import AlmenaMediator.Dispatch.LiveSessions
import Mathlib.Data.Finset.Card

/-!
# Live deliveries and their mediation

A push waits in its session's channel without the mediation it was queued for, and `live_delivery`
packs it for the mediation the session has when it is taken out. As long as no session is switched
to a mediation while a push for another one waits, every delivery carries a message that was queued
for its mediation, and none is delivered twice on a session (`live_within`); a session switched too
early gets another mediation's message (`live_astray`).
-/

namespace Dispatch

open Didcomm (Primitives Message Resolver Value)
open Store (Queued)
open Transition (Event)

/-! ## Histories -/

section Histories

variable (q : Queued)

/-- A message is queued. -/
def isEnqueue : Pool.Label Surroundings LiveJob → Bool
  | .call _ _ _ ⟨.store (.enqueue _ recipient message received _), .ok (some id)⟩ =>
    decide (q = ⟨id, recipient, received, message⟩)
  | _ => false

/-- A message is pushed to the live sessions. -/
def isNotify : Pool.Label Surroundings LiveJob → Bool
  | .call _ _ _ ⟨.notify _ queued, _⟩ => decide (q = queued)
  | _ => false

/-- A connection takes a message out of its channel and delivers it. -/
def isTake (session : ℕ) : Pool.Label Surroundings LiveJob → Bool
  | .start _ (.push _ session' queued) => decide (session = session' ∧ q = queued)
  | _ => false

/-- A message was queued for a mediation. -/
def WasQueued (labels : List (Pool.Label Surroundings LiveJob)) (m : String) : Prop :=
  ∃ i job before limits, .call i job before
    ⟨.store (.enqueue m q.recipient q.message q.received limits), .ok (some q.id)⟩ ∈ labels

variable {q} {labels : List (Pool.Label Surroundings LiveJob)}
  {label : Pool.Label Surroundings LiveJob} {m : String}

/-- What was queued stays queued as the history goes on. -/
theorem WasQueued.mono (h : WasQueued q labels m) (label : Pool.Label Surroundings LiveJob) :
    WasQueued q (labels ++ [label]) m := by
  obtain ⟨i, job, before, limits, hmem⟩ := h
  exact ⟨i, job, before, limits, List.mem_append_left _ hmem⟩

/-- One more label counts by itself. -/
theorem countP_snoc (p : Pool.Label Surroundings LiveJob → Bool) :
    (labels ++ [label]).countP p = labels.countP p + (p label).toNat := by
  rw [List.countP_append, List.countP_singleton]
  cases p label <;> rfl

/-- A step that does not touch the hub takes nothing from a session. -/
theorem quiet_isTake (h : ¬ TouchesHub label) (session : ℕ) : isTake q session label = false := by
  cases label with
  | start i job =>
    cases job with
    | push => exact absurd trivial h
    | _ => rfl
  | _ => rfl

end Histories

/-! ## How often a message is delivered -/

section Counts

variable {mediator : Mediator} {hub hub' : LiveHub} {label : Pool.Label Surroundings LiveJob}

/-- Sending to a session adds at most the one message that is sent. -/
theorem count_trySend (session : Session) (queued q : Queued) :
    (session.trySend queued).pushes.count q ≤
      session.pushes.count q + (decide (q = queued)).toNat := by
  unfold Session.trySend
  split
  · rw [List.count_append, List.count_singleton]
    by_cases hq : q = queued
    · simp [hq]
    · simp [hq, Ne.symm hq]
  · exact Nat.le_add_right _ _

/-- A step puts a message into a channel when it is pushed only, once, and what is taken out is
gone. -/
theorem HubMoves.count (h : HubMoves mediator hub label hub') (hreg : hub.Registered) (session : ℕ)
    (q : Queued) :
    (isTake q session label).toNat + (hub'.session session).pushes.count q ≤
      (hub.session session).pushes.count q + (isNotify q label).toNat := by
  cases h with
  | opens =>
    by_cases hid : session = hub.nextId
    · subst hid
      simp [LiveHub.openSession, isTake]
    · have hsame : hub.openSession.session session = hub.session session :=
        LiveHub.setSession_of_ne hub hid _
      simp [hsame, isTake]
  | @closes closed =>
    by_cases hid : session = closed
    · subst hid
      simp [LiveHub.drop, isTake]
    · simp [LiveHub.drop, LiveHub.setSession_of_ne _ hid, LiveHub.disable_session,
        Function.update_of_ne hid, isTake]
  | @dies i closed =>
    by_cases hid : session = closed
    · subst hid
      simp [LiveHub.drop, isTake]
    · simp [LiveHub.drop, LiveHub.setSession_of_ne _ hid, isTake]
  | @takes resolver taker queued _ htakes =>
    obtain ⟨rest, hpushes, rfl⟩ := recv_eq_some htakes
    by_cases hid : session = taker
    · subst hid
      rw [LiveHub.setSession_self, hpushes, List.count_cons]
      -- taking a message counts it once, and takes it from those that wait
      by_cases hq : q = queued
      · simp [isTake, hq, Nat.add_comm]
      · simp [isTake, hq, Ne.symm hq, isNotify]
    · simp [LiveHub.setSession_of_ne _ hid, isTake, hid]
  | @enables requester _ _ switched =>
    rw [LiveHub.enable_session]
    by_cases hid : session = switched
    · subst hid
      simp [isTake]
    · simp [Function.update_of_ne hid, isTake]
  | @disables _ _ _ switched =>
    rw [LiveHub.disable_session]
    by_cases hid : session = switched
    · subst hid
      simp [isTake]
    · simp [Function.update_of_ne hid, isTake]
  | @notifies i received m r payload id =>
    -- notifying is no taking, and adds the message to one session at most once
    have hnone : isTake q session (.call i (.queue m r payload) [⟨.now, received⟩,
          ⟨.store (.enqueue m r payload received mediator.limits.queue), .ok (some id)⟩]
        ⟨.notify m ⟨id, r, received, payload⟩, ()⟩) = false := rfl
    rw [hreg.notify_session, hnone, Bool.toNat_false, Nat.zero_add]
    split
    · exact count_trySend _ _ _
    · exact Nat.le_add_right _ _
  | quiet hquiet =>
    rw [quiet_isTake hquiet]
    simp

end Counts

section Machine

variable {prim : Primitives} {mediator : Mediator} {σ : Type}
  {inner : Program.Environment Surroundings σ}
  {c c' : Pool.Config Surroundings LiveJob (Connected σ)} {label : Pool.Label Surroundings LiveJob}
  {labels : List (Pool.Label Surroundings LiveJob)}

/-- A sender has queued the message, and is about to push it. -/
def Owes (mediator : Mediator) (q : Queued) (t : Pool.Thread Surroundings LiveJob) : Prop :=
  ∃ m, t.calls = [⟨.now, q.received⟩, ⟨.store (.enqueue m q.recipient q.message q.received
    mediator.limits.queue), .ok (some q.id)⟩]

/-- The senders that are about to push a message account for those queued and not pushed. -/
def Accounted (mediator : Mediator) (q : Queued) (labels : List (Pool.Label Surroundings LiveJob))
    (c : Pool.Config Surroundings LiveJob (Connected σ)) : Prop :=
  ∃ owing : Finset ℕ, (∀ i t, c.threads i = some t → Owes mediator q t → i ∈ owing) ∧
    labels.countP (isNotify q) + owing.card ≤ labels.countP (isEnqueue q)

/-- A thread that owes a push queued the message with its last call. -/
theorem isEnqueue_of_owes {q : Queued} {i : ℕ} {job task : LiveJob}
    {calls : List (Call Surroundings)} {k : Call Surroundings} {rest : Task Unit}
    (h : Owes mediator q ⟨task, calls ++ [k], rest⟩) :
    isEnqueue q (.call i job calls k) = true := by
  obtain ⟨m, hcalls⟩ := h
  have hpair : calls ++ [k] = [⟨.now, q.received⟩] ++ [⟨.store (.enqueue m q.recipient q.message
      q.received mediator.limits.queue), .ok (some q.id)⟩] := hcalls
  obtain ⟨-, hk⟩ := List.append_inj' hpair rfl
  obtain rfl := List.singleton_inj.mp hk
  simp [isEnqueue]

/-- A step that does not push the message. -/
theorem Accounted.quiet {q : Queued} (h : Accounted mediator q labels c)
    (hquiet : isNotify q label = false) {i : ℕ}
    (hothers : ∀ j, j ≠ i → c'.threads j = c.threads j)
    (hlabel : ∀ t, c'.threads i = some t → Owes mediator q t →
      isEnqueue q label = true ∨ ∃ t, c.threads i = some t ∧ Owes mediator q t) :
    Accounted mediator q (labels ++ [label]) c' := by
  obtain ⟨owing, howing, hcount⟩ := h
  -- a thread that has just queued the message owes its notification
  refine ⟨if isEnqueue q label then insert i owing else owing, fun j t ht howes => ?_, ?_⟩
  · by_cases hj : j = i
    · subst hj
      rcases hlabel t ht howes with henqueue | ⟨t', ht', howes'⟩
      · rw [if_pos henqueue]
        exact Finset.mem_insert_self j owing
      · have hmem := howing j t' ht' howes'
        split
        · exact Finset.mem_insert_of_mem hmem
        · exact hmem
    · rw [hothers j hj] at ht
      have hmem := howing j t ht howes
      split
      · exact Finset.mem_insert_of_mem hmem
      · exact hmem
  · rw [countP_snoc, countP_snoc, hquiet]
    split
    · rename_i henqueue
      rw [henqueue]
      have := Finset.card_insert_le i owing
      simp only [Bool.toNat_false, Bool.toNat_true]
      omega
    · exact (Nat.add_le_add_right (Nat.le_refl _) _).trans (hcount.trans (Nat.le_add_right _ _))

/-- Every step keeps the account. -/
theorem Accounted.step {q : Queued} (h : Accounted mediator q labels c) (hserved : Served c)
    (hunfolded : Pool.Unfolded (connections prim mediator inner) c)
    (hstep : Pool.Step (connections prim mediator inner) c label c') :
    Accounted mediator q (labels ++ [label]) c' := by
  have hmoves := hserved.moves hunfolded hstep
  cases hstep with
  | @start i job s _ _ =>
    refine h.quiet rfl (i := i) (fun j hj => Pool.Config.set_threads_of_ne c hj _ _)
      fun t ht howes => ?_
    obtain rfl : _ = t := by simpa using ht
    obtain ⟨m, hcalls⟩ := howes
    exact nomatch hcalls
  | @call i job calls op rest answer s hthread hanswer =>
    rw [Pool.Config.set_shared] at hmoves
    by_cases hnotify : isNotify q (.call i job calls ⟨op, answer⟩) = true
    · generalize s.hub = hub' at hmoves
      generalize (⟨op, answer⟩ : Call Surroundings) = k at hmoves hnotify
      cases hmoves with
      | @notifies _ received m r payload id =>
        -- its sender owed the push, and now does not
        obtain rfl : q = ⟨id, r, received, payload⟩ := of_decide_eq_true hnotify
        obtain ⟨owing, howing, hcount⟩ := h
        have hmem : i ∈ owing := howing i _ hthread ⟨m, rfl⟩
        refine ⟨owing.erase i, fun j t ht howes => ?_, ?_⟩
        · by_cases hj : j = i
          · subst hj
            obtain rfl : _ = t := by simpa using ht
            obtain ⟨m', hcalls⟩ := howes
            exact nomatch hcalls
          · rw [Pool.Config.set_threads_of_ne c hj] at ht
            exact Finset.mem_erase.mpr ⟨hj, howing j t ht howes⟩
        · have hcard := Finset.card_erase_add_one hmem
          rw [countP_snoc, countP_snoc, hnotify, Bool.toNat_true]
          omega
      | enables | disables => exact nomatch hnotify
      | quiet hquiet =>
        obtain ⟨op', answer'⟩ := k
        cases op' with
        | notify => exact absurd trivial hquiet
        | _ => exact nomatch hnotify
    · refine h.quiet (Bool.eq_false_iff.mpr hnotify) (i := i)
        (fun j hj => Pool.Config.set_threads_of_ne c hj _ _) fun t ht howes => .inl ?_
      obtain rfl : _ = t := by simpa using ht
      exact isEnqueue_of_owes howes
  | @stop i job calls hthread =>
    refine h.quiet rfl (i := i) (fun j hj => Pool.Config.set_threads_of_ne c hj _ _)
      fun t ht howes => ?_
    simp at ht
  | idle hidle => exact hidle.elim

/-! ## What is delivered -/

/-- Live mode is switched on for a mediation only while every push that waits on the session was
queued for it. -/
def InTurn (before : List (Event (Pool.Config Surroundings LiveJob (Connected σ))
    (Pool.Label Surroundings LiveJob)))
    (e : Event (Pool.Config Surroundings LiveJob (Connected σ))
      (Pool.Label Surroundings LiveJob)) : Prop :=
  ∀ i job calls session m, e.label = .call i job calls ⟨.enable session m, ()⟩ →
    ∀ q ∈ (e.before.shared.hub.session session).pushes, WasQueued q (before.map Event.label) m

/-- What waits on a session, or was taken from it, was queued for its mediation. -/
structure InMediation (labels : List (Pool.Label Surroundings LiveJob))
    (c : Pool.Config Surroundings LiveJob (Connected σ)) : Prop where
  waiting : ∀ session m, (c.shared.hub.session session).live = some m →
    ∀ q ∈ (c.shared.hub.session session).pushes, WasQueued q labels m
  taken : ∀ i t resolver session q, c.threads i = some t → t.task = .push resolver session q →
    ∀ m, (c.shared.hub.session session).live = some m → WasQueued q labels m

/-- At the start every session is in its mediation, since none is live. -/
theorem inMediation_empty (s : σ) : InMediation []
    (.empty ⟨.empty, s⟩ : Pool.Config Surroundings LiveJob _) where
  waiting _ _ hlive := nomatch hlive
  taken i t _ _ _ ht := by simp [Pool.Config.empty] at ht

/-- What waits on a session after a step. -/
theorem InMediation.waiting_step (h : InMediation labels c) {hub' : LiveHub}
    (hmoves : HubMoves mediator c.shared.hub label hub') (hserved : Served c)
    (hturn : ∀ i job calls session m, label = .call i job calls ⟨.enable session m, ()⟩ →
      ∀ q ∈ (c.shared.hub.session session).pushes, WasQueued q labels m)
    (hsent : ∀ q m, (∃ i job calls, label = .call i job calls ⟨.notify m q,
      ()⟩) → WasQueued q labels m) {session : ℕ} {m : String}
      (hlive : (hub'.session session).live = some m) {q : Queued}
      (hq : q ∈ (hub'.session session).pushes) : WasQueued q labels m := by
  cases hmoves with
  | opens =>
    by_cases hid : session = c.shared.hub.nextId
    · subst hid
      simp [LiveHub.openSession] at hlive
    · have hsame : c.shared.hub.openSession.session session = c.shared.hub.session session :=
        LiveHub.setSession_of_ne _ hid _
      rw [hsame] at hlive hq
      exact h.waiting session m hlive q hq
  | @closes closed =>
    by_cases hid : session = closed
    · subst hid
      simp [LiveHub.drop] at hq
    · rw [LiveHub.drop, LiveHub.setSession_of_ne _ hid, LiveHub.disable_session,
        Function.update_of_ne hid] at hlive hq
      exact h.waiting session m hlive q hq
  | @dies i closed =>
    by_cases hid : session = closed
    · subst hid
      simp [LiveHub.drop] at hq
    · rw [LiveHub.drop, LiveHub.setSession_of_ne _ hid] at hlive hq
      exact h.waiting session m hlive q hq
  | @takes resolver taker queued _ htakes =>
    obtain ⟨rest, hpushes, rfl⟩ := recv_eq_some htakes
    by_cases hid : session = taker
    · subst hid
      rw [LiveHub.setSession_self] at hlive hq
      exact h.waiting session m hlive q (by rw [hpushes]; exact List.mem_cons_of_mem _ hq)
    · rw [LiveHub.setSession_of_ne _ hid] at hlive hq
      exact h.waiting session m hlive q hq
  | @enables requester _ _ switched =>
    rw [LiveHub.enable_session] at hlive hq
    by_cases hid : session = switched
    · subst hid
      rw [Function.update_self] at hlive hq
      obtain rfl : requester = m := Option.some_inj.mp hlive
      exact hturn _ _ _ session requester rfl q hq
    · rw [Function.update_of_ne hid] at hlive hq
      exact h.waiting session m hlive q hq
  | @disables _ _ _ switched =>
    rw [LiveHub.disable_session] at hlive hq
    by_cases hid : session = switched
    · subst hid
      simp at hlive
    · rw [Function.update_of_ne hid] at hlive hq
      exact h.waiting session m hlive q hq
  | @notifies i received pushed r payload id =>
    -- a session in the list of a mediation is live for it
    rw [(hserved.registered.notify_live _ _ _).1] at hlive
    rw [hserved.registered.notify_session] at hq
    split at hq
    · rename_i hlisted
      rw [hserved.registered.live pushed session hlisted] at hlive
      obtain rfl := Option.some_inj.mp hlive
      unfold Session.trySend at hq
      split at hq
      · rcases List.mem_append.mp hq with hq | hq
        · exact h.waiting session pushed (hserved.registered.live pushed session hlisted) q hq
        · rw [List.mem_singleton.mp hq]
          exact hsent _ _ ⟨i, _, _, rfl⟩
      · exact h.waiting session pushed (hserved.registered.live pushed session hlisted) q hq
    · exact h.waiting session m hlive q hq
  | quiet => exact h.waiting session m hlive q hq

/-- A connection that delivers a push does not switch its session meanwhile. -/
theorem InMediation.taken_step (h : InMediation labels c)
    (hstep : Pool.Step (connections prim mediator inner) c label c')
    (hmoves : HubMoves mediator c.shared.hub label c'.shared.hub) (hserved : Served c)
    (hserved' : Served c') {i : ℕ} {t : Pool.Thread Surroundings LiveJob} {resolver : Resolver}
    {session : ℕ} {q : Queued} (ht : c'.threads i = some t)
    (htask : t.task = .push resolver session q) {m : String}
    (hlive : (c'.shared.hub.session session).live = some m) : WasQueued q labels m := by
  have hplaced : i = 2 * session := by
    have := hserved'.placed i t ht
    rw [htask] at this
    exact this.1
  have hbefore : (c.shared.hub.session session).live = some m := by
    rcases hmoves.live hserved.registered hlive with hbefore | ⟨recipient, message, hlabel⟩
    · exact hbefore
    · -- the connection would be at its switch
      exfalso
      subst hlabel
      cases hstep with
      | call hthread _ =>
        rw [← hplaced, Pool.Config.set_threads_self] at ht
        obtain rfl := Option.some_inj.mp ht
        exact nomatch htask
  cases hstep with
  | @start j job s _ hstart =>
    by_cases hj : i = j
    · subst hj
      rw [Pool.Config.set_threads_self] at ht
      obtain rfl := Option.some_inj.mp ht
      obtain rfl : job = .push resolver session q := htask
      -- the push starts with a message that waited in the session
      obtain ⟨rest, hpushes, -⟩ := recv_eq_some hstart.1.2
      exact h.waiting session m hbefore q (by rw [hpushes]; exact List.mem_cons_self)
    · rw [Pool.Config.set_threads_of_ne c hj] at ht
      exact h.taken i t resolver session q ht htask m hbefore
  | @call j job calls op rest answer s hthread _ =>
    by_cases hj : i = j
    · subst hj
      rw [Pool.Config.set_threads_self] at ht
      obtain rfl := Option.some_inj.mp ht
      exact h.taken i _ resolver session q hthread htask m hbefore
    · rw [Pool.Config.set_threads_of_ne c hj] at ht
      exact h.taken i t resolver session q ht htask m hbefore
  | @stop j job calls hthread =>
    by_cases hj : i = j
    · subst hj
      rw [Pool.Config.set_threads_self] at ht
      exact nomatch ht
    · rw [Pool.Config.set_threads_of_ne c hj] at ht
      exact h.taken i t resolver session q ht htask m hbefore
  | idle hidle => exact hidle.elim

/-- A push that is sent to the live sessions of a mediation was queued for it. -/
theorem wasQueued_of_notify {start : Connected σ}
    (hrun : Transition.Run (Pool.Step (connections prim mediator inner)) (.empty start) labels c)
    (hserved : Served c) {i : ℕ} {job : LiveJob} {calls : List (Call Surroundings)} {m : String}
    {q : Queued} (hstep : Pool.Step (connections prim mediator inner) c
      (.call i job calls ⟨.notify m q, ()⟩) c') : WasQueued q labels m := by
  have hmoves := hserved.moves (Pool.unfolded_of_run hrun) hstep
  generalize c'.shared.hub = hub' at hmoves
  cases hstep with
  | call hthread _ =>
    cases hmoves with
    | notifies =>
      obtain ⟨before, hcalled⟩ := Pool.called_of_run hrun hthread
        (List.mem_cons_of_mem _ (List.mem_singleton_self _))
      exact ⟨i, _, before, _, hcalled⟩
    | quiet hquiet => exact absurd trivial hquiet

/-- Every state of a run serves its sessions. -/
theorem served_of_run {s : σ}
    (hrun : Transition.Run (Pool.Step (connections prim mediator inner))
      (.empty ⟨.empty, s⟩) labels c) : Served c := by
  induction hrun with
  | nil => exact served_empty s
  | snoc hrun hstep ih => exact ih.step (Pool.unfolded_of_run hrun) hstep

/-- In a run in turn, what waits on a session was queued for its mediation. -/
theorem inMediation_of_run {s : σ} {evs : List (Event (Pool.Config Surroundings LiveJob
      (Connected σ)) (Pool.Label Surroundings LiveJob))}
    (hrun : Transition.Run (Transition.Observed (Pool.Step (connections prim mediator inner)))
      (.empty ⟨.empty, s⟩) evs c)
    (hturn : ∀ before e after, evs = before ++ e :: after → InTurn before e) :
    InMediation (evs.map Event.label) c := by
  induction hrun with
  | nil => exact inMediation_empty s
  | @snoc evs c c' e hrun hstep ih =>
    have hwithin := ih fun before e' after hcut => hturn before e' (after ++ [e]) (by simp [hcut])
    -- the step is in turn after the events before it
    have hinturn := hturn evs e [] rfl
    obtain ⟨rfl, rfl, hstep⟩ := hstep
    have hserved := served_of_run hrun.labels
    have hmoves := hserved.moves (Pool.unfolded_of_run hrun.labels) hstep
    rw [List.map_append, List.map_singleton]
    refine ⟨fun session m hlive q hq => ?_, fun i t resolver session q ht htask m hlive => ?_⟩
    · refine (hwithin.waiting_step hmoves hserved hinturn ?_ hlive hq).mono _
      rintro q m ⟨i, job, calls, hlabel⟩
      rw [hlabel] at hstep
      exact wasQueued_of_notify hrun.labels hserved hstep
    · exact (hwithin.taken_step hstep hmoves hserved
        (hserved.step (Pool.unfolded_of_run hrun.labels) hstep) ht htask hlive).mono _

/-- In every run, what was taken from a session and what waits on it was pushed. -/
theorem count_of_run {s : σ}
    (hrun : Transition.Run (Pool.Step (connections prim mediator inner))
      (.empty ⟨.empty, s⟩) labels c) (session : ℕ) (q : Queued) :
    labels.countP (isTake q session) + (c.shared.hub.session session).pushes.count q ≤
      labels.countP (isNotify q) := by
  induction hrun with
  | nil => exact Nat.le_refl 0
  | snoc hrun hstep ih =>
    have hserved := served_of_run hrun
    have hcount := (hserved.moves (Pool.unfolded_of_run hrun) hstep).count
      hserved.registered session q
    rw [countP_snoc, countP_snoc]
    omega

/-- In every run every message is accounted for. -/
theorem accounted_of_run {s : σ}
    (hrun : Transition.Run (Pool.Step (connections prim mediator inner))
      (.empty ⟨.empty, s⟩) labels c) (q : Queued) : Accounted mediator q labels c := by
  induction hrun with
  | nil => exact ⟨∅, fun i t ht => by simp [Pool.Config.empty] at ht, Nat.le_refl 0⟩
  | snoc hrun hstep ih => exact ih.step (served_of_run hrun) (Pool.unfolded_of_run hrun) hstep

/-- In every run in which sessions are switched in turn, a push that is packed for a mediation was
queued for it, and no message is taken from a session more often than it was queued. -/
theorem live_within {s : σ} {evs : List (Event (Pool.Config Surroundings LiveJob
      (Connected σ)) (Pool.Label Surroundings LiveJob))}
    (hrun : Transition.Run (Transition.Observed (Pool.Step (connections prim mediator inner)))
      (.empty ⟨.empty, s⟩) evs c)
    (hturn : ∀ before e after, evs = before ++ e :: after → InTurn before e) :
    (∀ before e after i resolver session q calls m, evs = before ++ e :: after →
      e.label = .call i (.push resolver session q) calls ⟨.liveMediation session, some m⟩ →
        WasQueued q (before.map Event.label) m) ∧
    ∀ session q, (evs.map Event.label).countP (isTake q session) ≤
      (evs.map Event.label).countP (isEnqueue q) := by
  refine ⟨fun before e after i resolver session q calls m hcut hlabel => ?_, fun session q => ?_⟩
  · subst hcut
    obtain ⟨t, t', hbefore, ⟨rfl, -, hstep⟩, -⟩ := hrun.middle_inv
    -- what is being pushed was queued for the session's mediation
    have hwithin := inMediation_of_run hbefore fun before' e' after' hcut =>
      hturn before' e' (after' ++ e :: after) (by simp [hcut])
    rw [hlabel] at hstep
    cases hstep with
    | call hthread hanswer =>
      exact hwithin.taken i _ resolver session q hthread rfl m hanswer.1.symm
  · obtain ⟨owing, -, hcount⟩ := accounted_of_run hrun.labels q
    have htaken := count_of_run hrun.labels session q
    omega

/-- Sessions are switched in turn when none is after the first push. -/
theorem inTurn_of_quiet {s : σ} {evs₁ evs₂ : List (Event (Pool.Config Surroundings LiveJob
      (Connected σ)) (Pool.Label Surroundings LiveJob))}
    (hrun : Transition.Run (Transition.Observed (Pool.Step (connections prim mediator inner)))
      (.empty ⟨.empty, s⟩) (evs₁ ++ evs₂) c)
    (hfirst : ∀ e ∈ evs₁, ∀ q, isNotify q e.label = false)
    (hsecond : ∀ e ∈ evs₂, ∀ i job calls session m,
      e.label ≠ .call i job calls ⟨.enable session m, ()⟩)
      (before : List (Event (Pool.Config Surroundings LiveJob (Connected σ))
      (Pool.Label Surroundings LiveJob)))
    (e : Event (Pool.Config Surroundings LiveJob (Connected σ)) (Pool.Label Surroundings LiveJob))
    (after : List (Event (Pool.Config Surroundings LiveJob (Connected σ))
      (Pool.Label Surroundings LiveJob))) (hcut : evs₁ ++ evs₂ = before ++ e :: after) :
    InTurn before e := by
  intro i job calls session m hlabel q hq
  exfalso
  have hbefore : ∀ e' ∈ before, e' ∈ evs₁ := by
    rcases List.append_eq_append_iff.mp hcut with ⟨rest, rfl, hrest⟩ | ⟨rest, rfl, hrest⟩
    · -- the switch would be after the first push
      exact absurd hlabel (hsecond e (by rw [hrest]; simp) i job calls session m)
    · exact fun e' he' => List.mem_append_left _ he'
  rw [hcut] at hrun
  obtain ⟨t, t', hrun, ⟨rfl, -, -⟩, -⟩ := hrun.middle_inv
  have hcount := count_of_run hrun.labels session q
  -- before the first notification nothing can wait in a session
  have hnone : (before.map Event.label).countP (isNotify q) = 0 := by
    rw [List.countP_eq_zero]
    intro l hl
    obtain ⟨e', he', rfl⟩ := List.mem_map.mp hl
    rw [hfirst e' (hbefore e' he') q]
    exact Bool.false_ne_true
  have hpos := List.count_pos_iff.mpr hq
  omega

end Machine

/-! ### A session that is switched too early -/

namespace LiveExample

def prim : Primitives := Didcomm.Loopback.packages
  (fun _ => ⟨"", Message.new "" 0 "" .null⟩) Loopback.self ⟨"", "", "", 0⟩

def mediator : Mediator := Loopback.mediator
  { maxMessageBytes := 1000, queue := ⟨60, 10, 1000⟩, maxRecipientDids := 2,
    pushMinIntervalSecs := 0,
    recipientProof := false, mediationTtlSecs := 0 } false none

/-- A hub in calm surroundings. -/
def answers : Handler Surroundings (Connected Store.Inner) := fun e s =>
  match e with
  | .liveMediation session => ((s.hub.session session).live, s)
  | .isLive m => (s.hub.isLive m, s)
  | .enable session m => ((), { s with hub := s.hub.enable session m })
  | .disable session => ((), { s with hub := s.hub.disable session })
  | .notify m queued => ((), { s with hub := s.hub.notify m queued })
  | e => let (reply, inner) := Loopback.calm 0 e s.inner
    (reply, { s with inner := inner })

/-- Such surroundings are possible. -/
theorem answers_hubbed {s t : Connected Store.Inner} {k : Call Surroundings}
    (h : Program.Handled answers s k t) : hubbed (around Store.MemoryStep) s k t := by
  obtain ⟨op, reply⟩ := k
  obtain ⟨rfl, rfl⟩ := h.eq
  cases op with
  | liveMediation | isLive => exact ⟨rfl, rfl⟩
  | enable | disable | notify => rfl
  | _ => exact ⟨rfl, Loopback.calm_around (show 0 < maxClock by decide) (Program.handled _ _ _)⟩

/-- A message that switches live mode on. -/
def switchOn : Message :=
  Message.new "1" 0 liveDeliveryChange (.object [("live_delivery", .bool true)])

/-- The state after a job that starts in `s`. -/
def after (job : LiveJob) (s : Connected Store.Inner) : Connected Store.Inner :=
  ((job.program prim mediator).run answers s).2

/-- A connection opens. -/
def opened : Connected Store.Inner := ⟨LiveHub.empty.openSession, Store.Inner.empty⟩

/-- It is live for `did:ex:a`. -/
def live : Connected Store.Inner := after (.change "did:ex:a" none switchOn 0) opened

/-- A message is queued for `did:ex:a`. -/
def queuedFor : Connected Store.Inner := after (.queue "did:ex:a" "did:ex:r" "p") live

/-- The connection is live for `did:ex:b`. -/
def switched : Connected Store.Inner := after (.change "did:ex:b" none switchOn 0) queuedFor

def queued : Queued := ⟨"0-1", "did:ex:r", 0, "p"⟩

/-- Connections and senders on the in-process store. -/
abbrev system : Pool.System Surroundings LiveJob (Connected Store.Inner) :=
  connections prim mediator (around Store.MemoryStep)

/-- Every task of the example executes around the in-process store as it runs. -/
theorem executes (p : Task Unit) (s : Connected Store.Inner) :
    Program.Executes (hubbed (around Store.MemoryStep)) p s (p.trace answers s) ()
      (p.run answers s).2 :=
  (Program.run_executes answers p s).mono fun _ _ _ => answers_hubbed

/-- A connection opens. -/
theorem opened_run : Transition.Run (Pool.Step system) (.empty ⟨.empty, Store.Inner.empty⟩)
    [.start 1 .opens, .stop 1 .opens] (.empty opened) :=
  Pool.run_of_executes (S := system) 1 .opens (s := ⟨.empty, Store.Inner.empty⟩) (t := opened)
    ⟨⟨rfl, rfl⟩, rfl⟩ .done

/-- A job that leaves the hub as it is when it starts. -/
theorem job_run (i : ℕ) (job : LiveJob) {s : Connected Store.Inner}
    (hstart : job.starts i s.hub s.hub) : Transition.Run (Pool.Step system) (.empty s)
      (.start i job :: Pool.finishing i job [] ((job.program prim mediator).trace answers s))
      (.empty (after job s)) :=
  Pool.run_of_executes i job ⟨hstart, rfl⟩ (executes _ s)

/-- Whether a call queues a message for `did:ex:b`. -/
def queuesForB : Call Surroundings → Bool
  | ⟨.store (.enqueue m _ _ _ _), _⟩ => m == "did:ex:b"
  | _ => false

/-- Whether a call pushes a message. -/
def notifies : Call Surroundings → Bool
  | ⟨.notify _ _, _⟩ => true
  | _ => false

/-- Whether a call switches live mode on. -/
def switches : Call Surroundings → Bool
  | ⟨.enable _ _, _⟩ => true
  | _ => false

/-- The calls of a job that runs alone. -/
theorem mem_calls {i : ℕ} {job : LiveJob} {calls : List (Call Surroundings)}
    {p : Call Surroundings → Bool} (hcalls : calls.any p = false)
    {l : Pool.Label Surroundings LiveJob} {k : Call Surroundings}
    (hl : l ∈ Pool.Label.start i job :: Pool.finishing i job [] calls)
    (hk : ∃ j task before, l = .call j task before k) : p k = false := by
  obtain ⟨j, task, before, rfl⟩ := hk
  have hmem : k ∈ calls := by
    rcases List.mem_cons.mp hl with hstart | hl
    · exact nomatch hstart
    · exact Pool.mem_finishing hl
  exact Bool.eq_false_iff.mpr (List.any_eq_false.mp hcalls k hmem)

/-- The connection is switched to `did:ex:b` while a message for `did:ex:a` waits. -/
theorem switched_run : ∃ labels, Transition.Run (Pool.Step system)
    (.empty ⟨.empty, Store.Inner.empty⟩) labels (.empty switched) ∧
      ¬ WasQueued queued labels "did:ex:b" := by
  have hlive := job_run 0 (.change "did:ex:a" none switchOn 0) (s := opened)
    ⟨rfl, rfl, rfl⟩
  have hqueue := job_run 1 (.queue "did:ex:a" "did:ex:r" "p") (s := live) ⟨rfl, rfl⟩
  have hswitch := job_run 0 (.change "did:ex:b" none switchOn 0) (s := queuedFor)
    ⟨rfl, by decide, rfl⟩
  refine ⟨_, ((opened_run.append hlive).append hqueue).append hswitch, ?_⟩
  -- none of the four jobs queues for the other mediation
  rintro ⟨i, job, before, limits, hmem⟩
  have hcall : ∃ j task before', Pool.Label.call i job before
      ⟨.store (.enqueue "did:ex:b" queued.recipient queued.message queued.received limits),
        .ok (some queued.id)⟩ = .call j task before' _ := ⟨i, job, before, rfl⟩
  rcases List.mem_append.mp hmem with hmem | hmem
  · rcases List.mem_append.mp hmem with hmem | hmem
    · rcases List.mem_append.mp hmem with hmem | hmem
      · simp at hmem
      · exact nomatch mem_calls (p := queuesForB) (by decide) hmem hcall
    · exact nomatch mem_calls (p := queuesForB) (by decide) hmem hcall
  · exact nomatch mem_calls (p := queuesForB) (by decide) hmem hcall

/-- What the connection runs when it takes the message. -/
def push : LiveJob := .push (Didcomm.Loopback.resolver fun _ => []) 0 queued

/-- The connection takes the message and delivers it to the mediation it is live for. -/
theorem push_run {s : Connected Store.Inner} {m : String}
    (hpushes : (s.hub.session 0).pushes = [queued]) (hlive : (s.hub.session 0).live = some m) :
    ∃ c c', Pool.Step system (.empty s)
    (.start 0 push) c ∧ Pool.Step system c (.call 0 push [] ⟨.liveMediation 0, some m⟩) c' := by
  let hub : LiveHub := s.hub.setSession 0 { s.hub.session 0 with pushes := [] }
  have htake : s.hub.recv 0 = some (queued, hub) := by
    rw [LiveHub.recv, hpushes]
  have hlive' : some m = (hub.session 0).live := by
    rw [LiveHub.setSession_self]
    exact hlive.symm
  have hstart : system.start 0 push s ⟨hub, s.inner⟩ := ⟨⟨rfl, htake⟩, rfl⟩
  have hread : system.env 0 ⟨hub, s.inner⟩ ⟨.liveMediation 0, some m⟩ ⟨hub, s.inner⟩ :=
    ⟨hlive', rfl⟩
  exact ⟨_, _, .start rfl hstart, .call (Pool.Config.set_threads_self ..) hread⟩

end LiveExample

/-- A connection is live for one mediation, and a message for it waits in its channel; it is
switched to another mediation, and delivers the message to that one. -/
theorem live_astray :
    ¬ ∀ (prim : Primitives) (mediator : Mediator) (s : Store.Inner)
      (evs : List (Event (Pool.Config Surroundings LiveJob (Connected Store.Inner))
        (Pool.Label Surroundings LiveJob)))
      (c : Pool.Config Surroundings LiveJob (Connected Store.Inner)),
      Transition.Run (Transition.Observed (Pool.Step (connections prim mediator
        (around Store.MemoryStep)))) (.empty ⟨.empty, s⟩) evs c →
      (∀ before e after i resolver session q calls m, evs = before ++ e :: after →
        e.label = .call i (.push resolver session q) calls ⟨.liveMediation session, some m⟩ →
          WasQueued q (before.map Event.label) m) ∧
      ∀ session q, (evs.map Event.label).countP (isTake q session) ≤
        (evs.map Event.label).countP (isEnqueue q) := by
  intro h
  obtain ⟨labels, hrun, hnot⟩ := LiveExample.switched_run
  obtain ⟨c, c', htake, hpack⟩ := LiveExample.push_run (s := LiveExample.switched) (m := "did:ex:b")
    (by decide) (by decide)
  obtain ⟨evs, hevs, hobserved⟩ := (hrun.snoc htake).observe
  have hastray := (h _ _ _ _ _ (hobserved.snoc ⟨rfl, rfl, hpack⟩)).1 evs ⟨c, _, c'⟩ [] 0 _ 0 _ [] _
    rfl rfl
  -- the message was not queued for `did:ex:b` before, nor when it was taken
  rw [hevs] at hastray
  obtain ⟨i, job, before, limits, hmem⟩ := hastray
  rcases List.mem_append.mp hmem with hmem | hmem
  · exact hnot ⟨i, job, before, limits, hmem⟩
  · exact nomatch List.mem_singleton.mp hmem

/-- A connection that stays live for `did:ex:a` delivers the message that was queued for it. -/
theorem live_within_delivered : ∃ labels c, Transition.Run (Pool.Step LiveExample.system)
    (.empty ⟨.empty, Store.Inner.empty⟩)
    (labels ++ [.call 0 LiveExample.push [] ⟨.liveMediation 0, some "did:ex:a"⟩]) c ∧
      WasQueued LiveExample.queued labels "did:ex:a" := by
  have hlive := LiveExample.job_run 0 (.change "did:ex:a" none LiveExample.switchOn 0)
    (s := LiveExample.opened) ⟨rfl, rfl, rfl⟩
  have hqueue := LiveExample.job_run 1 (.queue "did:ex:a" "did:ex:r" "p")
    (s := LiveExample.live) ⟨rfl, rfl⟩
  obtain ⟨c, c', htake, hpack⟩ := LiveExample.push_run
    (s := LiveExample.queuedFor) (m := "did:ex:a")
    (by decide) (by decide)
  obtain ⟨evs₁, hevs₁, hrun₁⟩ := (LiveExample.opened_run.append hlive).observe
  obtain ⟨evs₂, hevs₂, hrun₂⟩ := (hqueue.snoc htake).observe
  -- while the session is switched on nothing is notified
  have hfirst : ∀ e ∈ evs₁, ∀ q, isNotify q e.label = false := by
    intro e he q
    have hmem := List.mem_map_of_mem (f := Event.label) he
    rw [hevs₁] at hmem
    rcases List.mem_append.mp hmem with hmem | hmem
    · rcases List.mem_pair.mp hmem with hlabel | hlabel <;> rw [hlabel] <;> rfl
    · cases hlabel : e.label with
      | call i job before k =>
        obtain ⟨op, answer⟩ := k
        cases op with
        | notify =>
          exact nomatch LiveExample.mem_calls (p := LiveExample.notifies) (by decide) hmem
            ⟨i, job, before, hlabel⟩
        | _ => rfl
      | _ => rfl
  let packed : Event (Pool.Config Surroundings LiveJob (Connected Store.Inner))
      (Pool.Label Surroundings LiveJob) :=
    ⟨c, .call 0 LiveExample.push [] ⟨.liveMediation 0, some "did:ex:a"⟩, c'⟩
  -- afterwards no session is switched on
  have hsecond : ∀ e ∈ evs₂ ++ [packed], ∀ i job calls session m,
      e.label ≠ .call i job calls ⟨.enable session m, ()⟩ := by
    intro e he i job calls session m hlabel
    rcases List.mem_append.mp he with he | he
    · have hmem := List.mem_map_of_mem (f := Event.label) he
      rw [hevs₂] at hmem
      rcases List.mem_append.mp hmem with hmem | hmem
      · exact nomatch LiveExample.mem_calls (p := LiveExample.switches) (by decide) hmem
          ⟨i, job, calls, hlabel⟩
      · rw [hlabel] at hmem
        exact nomatch List.mem_singleton.mp hmem
    · rw [List.mem_singleton.mp he] at hlabel
      exact nomatch hlabel
  have hrun := (hrun₁.append hrun₂).snoc (e := packed) ⟨rfl, rfl, hpack⟩
  refine ⟨(evs₁ ++ evs₂).map Event.label, c', ?_, ?_⟩
  · simpa using hrun.labels
  · rw [List.append_assoc] at hrun
    exact (live_within hrun (inTurn_of_quiet hrun hfirst hsecond)).1 (evs₁ ++ evs₂) packed [] 0 _ 0
      LiveExample.queued [] "did:ex:a" (by simp) rfl

end Dispatch
