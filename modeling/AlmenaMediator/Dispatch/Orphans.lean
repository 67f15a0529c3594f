import AlmenaMediator.Dispatch.Backing
import AlmenaMediator.Dispatch.Loopback
import AlmenaMediator.Dispatch.Mailbox
import AlmenaMediator.Library.Pool
import AlmenaMediator.Store.Redis.Estates

/-!
# Nothing outlives its mediation

The tasks of a mediator over one store, their calls in any order. A task that found a mediation may
add to it later, and the cleanup may remove the mediation in between. As long as the cleanup removes
no mediation that some task is about to add to, what a mediation has, it has while it is granted
(`nothing_outlives`); a message that is queued right after its mediation was removed stays in a
queue that no cleanup removes (`message_outlives`).
-/

namespace Dispatch

open Didcomm
open Store (Belonging EstateStore QueueStore)

/-- The mediator over a store: any jobs start at any time, their calls come in any order. -/
def tasks {σ : Type} (prim : Primitives) (mediator : Mediator) (store : EstateStore σ) :
    Pool.System Surroundings Job σ where
  program := Job.program prim mediator
  start _ _ s t := t = s
  env _ := around store.env
  idle _ _ := False

/-- A step of the tasks, with the state before and after it. -/
abbrev TaskEvent (σ : Type) : Type :=
  Transition.Event (Pool.Config Surroundings Job σ) (Pool.Label Surroundings Job)

/-- The answer finds the mediation. -/
def finds (m : String) : Call Surroundings → Prop
  | ⟨.store op, answer⟩ => Store.Finds m ⟨op, answer⟩
  | _ => False

/-- The task found the mediation, and what is left of it may add to the mediation without looking
for it again. -/
def AboutToAdd (m : String) (t : Pool.Thread Surroundings Job) : Prop :=
  (∃ k ∈ t.calls, finds m k) ∧ ∃ calls op next, t.rest.Unfolds calls (.call (.store op) next) ∧
    (∃ b, op.Adds b m) ∧ ∀ k ∈ calls, ¬ finds m k

/-- The step removes the mediation as idle. -/
def Clears (m : String) : Pool.Label Surroundings Job → Prop
  | .call _ _ _ ⟨.store op, answer⟩ => Store.Removes m ⟨op, answer⟩
  | _ => False

/-- The step removes no mediation that a task is about to add to. -/
def SparesWriters {σ : Type} (e : TaskEvent σ) : Prop :=
  ∀ m, Clears m e.label → ∀ i t, e.before.threads i = some t → ¬ AboutToAdd m t

section Tasks

variable {σ : Type} {prim : Primitives} {mediator : Mediator} {store : EstateStore σ}
  {c c' : Pool.Config Surroundings Job σ} {label : Pool.Label Surroundings Job} {m : String}

/-- What holds while the cleanup spares writers. -/
structure Intact (store : EstateStore σ) (c : Pool.Config Surroundings Job σ) : Prop where
  sound : store.Sound c.shared
  /-- What a mediation has, it has while it is granted. -/
  granted : ∀ b m, store.Has b m c.shared → store.Granted m c.shared
  /-- A task adds to granted mediations. -/
  writers : ∀ i t m, c.threads i = some t → AboutToAdd m t → store.Granted m c.shared

/-- A task is about to add what its next call adds. -/
theorem aboutToAdd_of_call {t : Pool.Thread Surroundings Job} {op : Store.Op} {b : Belonging}
    {next : Except Store.StoreError op.Answer → Task Unit} (hfound : ∃ k ∈ t.calls, finds m k)
    (hrest : t.rest = .call (.store op) next) (hadds : op.Adds b m) : AboutToAdd m t :=
  ⟨hfound, [], op, next, hrest ▸ .nil, ⟨b, hadds⟩, by simp⟩

/-- A call that does not find the mediation does not bring a task to add to it. -/
theorem AboutToAdd.before_call {job : Job} {calls : List (Call Surroundings)} {e : Effect}
    {next : Surroundings.Reply e → Task Unit} {r : Surroundings.Reply e}
    (h : AboutToAdd m ⟨job, calls ++ [⟨e, r⟩], next r⟩) (hfinds : ¬ finds m ⟨e, r⟩) :
    AboutToAdd m ⟨job, calls, .call e next⟩ := by
  obtain ⟨⟨k, hk, hkfinds⟩, rest, op, next', hunfolds, hadds, hnone⟩ := h
  refine ⟨⟨k, ?_, hkfinds⟩, ⟨e, r⟩ :: rest, op, next', hunfolds.cons, hadds, ?_⟩
  · rcases List.mem_append.mp hk with hk | hk
    · exact hk
    · exact absurd (List.mem_singleton.mp hk ▸ hkfinds) hfinds
  · rw [List.forall_mem_cons]
    exact ⟨hfinds, hnone⟩

/-- What a task adds, it adds to a mediation that it found. -/
theorem found_of_adds {s : σ} {labels : List (Pool.Label Surroundings Job)}
    (hrun : Transition.Run (Pool.Step (tasks prim mediator store)) (.empty s) labels c) {i : ℕ}
    {job : Job} {calls : List (Call Surroundings)} {op : Store.Op} {b : Belonging}
    {next : Except Store.StoreError op.Answer → Task Unit}
    (hthread : c.threads i = some ⟨job, calls, .call (.store op) next⟩) (hadds : op.Adds b m) :
    ∃ k ∈ calls, finds m k := by
  have hcalls : Pool.CallsMeet readsClock c :=
    Pool.callsMeet_of_run (fun _ _ _ _ => around_clock) hrun
  have hclock : ∀ now, Pool.Answered calls .now now → now < maxClock := fun now hnow =>
    hcalls i _ hthread _ hnow
  have hbacked := (Pool.unfolded_of_run hrun i _ hthread).ensures (program_backed hclock job)
    fun _ hk => hk
  obtain ⟨op', answer, hanswered, hfinds⟩ := hbacked.1 b m hadds
  exact ⟨⟨.store op', answer⟩, hanswered, hfinds⟩

/-- A granted mediation stays granted unless the step removes it. -/
theorem granted_of_step (hstep : Pool.Step (tasks prim mediator store) c label c')
    (h : store.Granted m c.shared) : store.Granted m c'.shared ∨ Clears m label := by
  cases hstep with
  | start _ hstart => exact .inl (hstart ▸ h)
  | @call i job calls e next answer s _ henv =>
    cases e with
    | store op => exact store.kept henv h
    | now => exact .inl (henv.2 ▸ h)
    | _ => exact .inl (henv ▸ h)
  | stop => exact .inl h
  | idle hidle => exact hidle.elim

/-- A step that spares writers leaves nothing without its mediation. -/
theorem Intact.step {s : σ} {labels : List (Pool.Label Surroundings Job)}
    (hrun : Transition.Run (Pool.Step (tasks prim mediator store)) (.empty s) labels c)
    (h : Intact store c) (hstep : Pool.Step (tasks prim mediator store) c label c')
    (hspares : SparesWriters ⟨c, label, c'⟩) : Intact store c' := by
  have hkept : ∀ i t m, c.threads i = some t → AboutToAdd m t → store.Granted m c'.shared := by
    intro i t m ht habout
    refine (granted_of_step hstep (h.writers i t m ht habout)).resolve_right fun hclears => ?_
    exact hspares m hclears i t ht habout
  have hstep' := hstep
  cases hstep with
  | @start i job s _ hstart =>
    obtain rfl : s = c.shared := hstart
    refine ⟨h.sound, h.granted, fun j t m ht habout => ?_⟩
    by_cases hj : j = i
    · subst hj
      obtain rfl : _ = t := by simpa using ht
      obtain ⟨⟨k, hk, -⟩, -⟩ := habout
      exact absurd hk List.not_mem_nil
    · rw [Pool.Config.set_threads_of_ne c hj] at ht
      exact hkept j t m ht habout
  | @call i job calls e next answer s hthread henv =>
    -- the other threads are about to add what they were
    have hothers : ∀ j t m, j ≠ i →
      (c.set i (some ⟨job, calls ++ [⟨e, answer⟩], next answer⟩) s).threads j
        = some t → AboutToAdd m t → store.Granted m s := by
      intro j t m hj ht habout
      rw [Pool.Config.set_threads_of_ne c hj] at ht
      exact hkept j t m ht habout
    have hself : ∀ m, ¬ finds m ⟨e, answer⟩ →
      AboutToAdd m ⟨job, calls ++ [⟨e, answer⟩], next answer⟩ →
        store.Granted m s := fun m hfinds habout =>
      hkept i _ m hthread (habout.before_call hfinds)
    -- an effect outside the store changes nothing, and finds nothing
    have hplain : s = c.shared → (∀ m, ¬ finds m ⟨e, answer⟩) →
        Intact store (c.set i (some ⟨job, calls ++ [⟨e, answer⟩], next answer⟩) s) := by
      rintro rfl hfinds
      refine ⟨h.sound, h.granted, fun j t m ht habout => ?_⟩
      by_cases hj : j = i
      · subst hj
        obtain rfl : _ = t := by simpa using ht
        exact hself m (hfinds m) habout
      · exact hothers j t m hj ht habout
    cases e with
    | store op =>
      refine ⟨store.sound h.sound henv, fun b m hhas => ?_, fun j t m ht habout => ?_⟩
      -- what is there was there before, or the thread has added it and was about to
      · rcases store.gained henv hhas with hhad | hadds
        · refine (granted_of_step hstep' (h.granted b m hhad)).resolve_right fun hclears => ?_
          exact store.cleared henv hclears hhas
        · exact hkept i _ m hthread
            (aboutToAdd_of_call (found_of_adds hrun hthread hadds) rfl hadds)
      · by_cases hj : j = i
        · subst hj
          obtain rfl : _ = t := by simpa using ht
          by_cases hfinds : finds m ⟨.store op, answer⟩
          -- the thread has just found the mediation, so it is granted
          · have hgranted : store.Granted m c.shared := by
              rcases store.found h.sound henv hfinds with hgranted | ⟨b, hhas⟩
              · exact hgranted
              · exact h.granted b m hhas
            refine (granted_of_step hstep' hgranted).resolve_right fun hclears => ?_
            cases op with
            | removeIdleMediations => exact hfinds
            | _ => exact hclears
          · exact hself m hfinds habout
        · exact hothers j t m hj ht habout
    | now => exact hplain henv.2 fun _ => id
    | _ => exact hplain henv fun _ => id
  | @stop i job calls hthread =>
    refine ⟨h.sound, h.granted, fun j t m ht habout => ?_⟩
    by_cases hj : j = i
    · subst hj
      simp at ht
    · rw [Pool.Config.set_threads_of_ne c hj] at ht
      exact hkept j t m ht habout
  | idle hidle => exact hidle.elim

/-- In a run whose steps spare writers, nothing is left without its mediation. -/
theorem intact_of_run {s : σ} (hsound : store.Sound s)
    (hstart : ∀ b m, store.Has b m s → store.Granted m s) {evs : List (TaskEvent σ)}
    (hrun : Transition.Run (Transition.Observed (Pool.Step (tasks prim mediator store))) (.empty s)
      evs c) (hspares : ∀ e ∈ evs, SparesWriters e) : Intact store c := by
  induction hrun with
  | nil => exact ⟨hsound, hstart, fun i t m ht => by simp [Pool.Config.empty] at ht⟩
  | @snoc evs c₁ c₂ e hrun hstep ih =>
    rw [List.forall_mem_append] at hspares
    obtain ⟨rfl, rfl, hstep⟩ := hstep
    exact (ih hspares.1).step hrun.labels hstep (hspares.2 e (List.mem_singleton_self e))

/-! ## Accepted payloads -/

section Accepted

variable {rely : (e : Effect) → Surroundings.Reply e → Prop} {resolver : Resolver}
    {message : Message}

/-- Queueing that succeeds was answered by the store with an id for the payload. -/
theorem queue_queues {m recipient payload : String} :
    (queue mediator m recipient payload).run.Ensures rely (fun _ => True) fun result =>
      result = .ok () → ∃ id received,
        rely (.store (.enqueue m recipient payload received mediator.limits.queue))
        (.ok (some id)) := by
  refine ensures_lift_bind.mpr (ensures_call.mpr ⟨trivial, fun received _ => ?_⟩)
  refine ensures_orRefuse_bind.mpr ⟨trivial, fun _ _ => nofun, fun id hid => ?_⟩
  cases id with
  | none => exact nofun
  | some id => exact ⟨trivial, fun _ _ _ => ⟨id, received, hid⟩⟩

/-- Queueing payloads that succeeds was answered with an id for each of them. -/
theorem queueEach_queues {m recipient : String} {payloads : List String} :
    (queueEach mediator m recipient payloads).run.Ensures rely (fun _ => True) fun result =>
      result = .ok () → ∀ payload ∈ payloads, ∃ id received,
        rely (.store (.enqueue m recipient payload received mediator.limits.queue))
          (.ok (some id)) := by
  induction payloads with
  | nil => exact fun _ payload hpayload => absurd hpayload List.not_mem_nil
  | cons payload payloads ih =>
    refine Program.ensures_exceptT_bind.mpr (queue_queues.imp fun result hqueued => ?_)
    cases result with
    | error e => exact nofun
    | ok _ =>
      refine ih.imp fun result hrest hok => ?_
      rw [List.forall_mem_cons]
      exact ⟨hqueued rfl, hrest hok⟩

/-- A `forward` that succeeds has queued all its payloads, if its recipient is mediated here. -/
theorem forward_queues {next : String} {payloads : List String}
    (hread : readForward prim message = .ok (next, payloads)) :
    (forward prim mediator resolver message).run.Ensures rely (fun _ => True) fun result =>
      result = .ok () → ∃ owner, rely (.store (.mediationOf (didOf next))) (.ok owner) ∧
        ∀ m, owner = some m → ∀ payload ∈ payloads, ∃ id received,
          rely (.store (.enqueue m (didOf next) payload received mediator.limits.queue))
            (.ok (some id)) := by
  unfold forward
  rw [hread]
  refine ensures_orRefuse_bind.mpr ⟨trivial, fun _ _ => nofun, fun owner howner => ?_⟩
  cases owner with
  | none =>
    refine relay_carries.mono (fun _ _ h => h) (fun _ _ => trivial) fun _ _ _ => ?_
    exact ⟨none, howner, nofun⟩
  -- the next hop is mediated here, and every payload was queued
  | some m =>
    refine Program.ensures_exceptT_bind.mpr (queueEach_queues.imp fun result hqueued => ?_)
    cases result with
    | error e => exact nofun
    | ok _ =>
      refine ensures_lift.mpr (wake_carries.mono (fun _ _ h => h) (fun _ _ => trivial)
        fun _ _ _ => ?_)
      refine ⟨some m, howner, fun m' hm => ?_⟩
      obtain rfl := Option.some_inj.mp hm
      exact hqueued rfl

/-- An envelope with a `forward` that is answered as accepted was carried out, unless it came too
late. -/
theorem handle_queues {packed next : String} {payloads : List String} {session : Option ℕ}
    {metadata : UnpackMetadata}
    (hunpack : unpack prim resolver mediator.identity.secrets packed = .ok (message, metadata))
    (htype : message.type_ = forwardType)
    (hread : readForward prim message = .ok (next, payloads)) :
    (handle prim mediator resolver packed session).run.Ensures rely (fun _ => True) fun result =>
      result = .ok .accepted → (∃ now, rely .now now ∧ message.isExpiredAt now) ∨
        ∃ owner, rely (.store (.mediationOf (didOf next))) (.ok owner) ∧
          ∀ m, owner = some m → ∀ payload ∈ payloads, ∃ id received,
            rely (.store (.enqueue m (didOf next) payload received mediator.limits.queue))
              (.ok (some id)) := by
  unfold handle
  rw [hunpack]
  dsimp only
  split
  · exact nofun
  refine ensures_lift_bind.mpr (ensures_call.mpr ⟨trivial, fun now hnow => ?_⟩)
  refine Program.ensures_exceptT_bind.mpr ?_
  unfold handleAt
  split
  -- an expired forward is accepted and dropped
  · rename_i hexpired
    refine ensures_lift.mpr ?_
    refine answer_carries.mono (fun _ _ h => h) (fun _ _ => trivial) fun _ _ _ => ?_
    exact .inl ⟨now, hnow, hexpired⟩
  · unfold handleMessage
    rw [if_pos htype]
    refine Program.ensures_exceptT_bind.mpr ((forward_queues hread).imp fun result hqueued => ?_)
    cases result with
    | error e => exact nofun
    | ok _ => exact fun _ => .inr (hqueued rfl)

end Accepted

/-! ## Runs -/

/-- A call that ends the message `id` of `m`. -/
def EndsMessage (store : QueueStore σ) (m id : String) (e : TaskEvent σ) : Prop :=
  ∃ i job calls op answer, e.label = .call i job calls ⟨.store op, answer⟩ ∧
    store.Ends e.before.shared ⟨op, answer⟩ e.after.shared m id

/-- A message stays in its queue until a call ends it. -/
theorem message_stays {m id : String} {evs : List (TaskEvent σ)} (hid : id ∈ store.queue c.shared m)
    (hrun : Transition.Run (Transition.Observed (Pool.Step (tasks prim mediator store))) c evs c') :
    id ∈ store.queue c'.shared m ∨ ∃ e ∈ evs, EndsMessage store.toQueueStore m id e := by
  induction hrun with
  | nil => exact .inl hid
  | @snoc evs c₁ c₂ e _ hstep ih =>
    rcases ih with hstay | ⟨e', he', hends⟩
    swap
    · exact .inr ⟨e', List.mem_append_left _ he', hends⟩
    obtain ⟨rfl, rfl, hstep⟩ := hstep
    -- only a call of the store can end the message
    have hplain : e.after.shared = e.before.shared → id ∈ store.queue e.after.shared m ∨
        ∃ e' ∈ evs ++ [e], EndsMessage store.toQueueStore m id e' := fun hsame =>
          .inl (hsame ▸ hstay)
    generalize hlabel : e.label = label at hstep
    generalize hafter : e.after = after at hstep hplain
    cases hstep with
    | start _ hstart => exact hplain hstart
    | @call i job calls effect next answer s _ henv =>
      cases effect with
      | store op =>
        refine (store.stays henv hstay).imp (fun hstay => hstay) fun hends => ?_
        exact ⟨e, List.mem_append_right _ (List.mem_singleton_self e), i, job,
          calls, op, answer, hlabel, hafter ▸ hends⟩
      | now => exact hplain henv.2
      | _ => exact hplain henv
    | stop => exact hplain rfl
    | idle hidle => exact hidle.elim

/-- The task answers an envelope with a `forward` of `payloads` to `next` as accepted, and not
because the `forward` came too late. -/
def Accepts (prim : Primitives) (mediator : Mediator) (next : String) (payloads : List String)
    (t : Pool.Thread Surroundings Job) : Prop :=
  ∃ resolver packed session message metadata, t.task = .receive resolver packed session ∧
    unpack prim resolver mediator.identity.secrets packed = .ok (message, metadata) ∧
    message.type_ = forwardType ∧ readForward prim message = .ok (next, payloads) ∧
    (∀ now, ⟨.now, now⟩ ∈ t.calls → ¬ message.isExpiredAt now) ∧
    (handle prim mediator resolver packed session).run.Unfolds t.calls (.done (.ok .accepted))

/-- In every run in which the cleanup spares writers, what a mediation has, it has while it is
granted. So each payload of an accepted `forward` to a mediation has been queued, and is in its
queue while the mediation is granted, unless a call ended it. -/
theorem nothing_outlives (prim : Primitives) (mediator : Mediator) (store : EstateStore σ) {s : σ}
    (hsound : store.Sound s) (hstart : ∀ b m, store.Has b m s → store.Granted m s)
    {evs : List (TaskEvent σ)}
    (hrun : Transition.Run (Transition.Observed (Pool.Step (tasks prim mediator store))) (.empty s)
      evs c) (hspares : ∀ e ∈ evs, SparesWriters e) :
    (∀ b m, store.Has b m c.shared → store.Granted m c.shared) ∧
    ∀ e ∈ evs, ∀ i t next payloads, e.before.threads i = some t →
      Accepts prim mediator next payloads t →
      ∃ owner, ⟨.store (.mediationOf (didOf next)), .ok owner⟩ ∈ t.calls ∧
        ∀ m, owner = some m → ∀ payload ∈ payloads, ∃ id received before queueing pre post,
          queueing.label = .call i t.task before
            ⟨.store (.enqueue m (didOf next) payload received mediator.limits.queue),
              .ok (some id)⟩ ∧ evs = pre ++ queueing :: post ∧
          ((id ∈ store.queue c.shared m ∧ store.Granted m c.shared) ∨
            ∃ e' ∈ post, EndsMessage store.toQueueStore m id e') := by
  have hintact := intact_of_run hsound hstart hrun hspares
  refine ⟨hintact.granted, fun e he i t next payloads ht haccepts => ?_⟩
  obtain ⟨resolver, packed, session, message, metadata, htask, hunpack, htype, hread,
    htime, hdone⟩ := haccepts
  have hhandle : (handle prim mediator resolver packed session).run.Ensures (Pool.Answered t.calls)
      (fun _ => True) _ := handle_queues hunpack htype hread
  have hqueues := hdone.ensures hhandle fun _ hk => hk
  rcases hqueues rfl with ⟨now, hnow, hexpired⟩ | ⟨owner, howner, hqueued⟩
  · exact absurd hexpired (htime now hnow)
  refine ⟨owner, howner, fun m hm payload hpayload => ?_⟩
  obtain ⟨id, received, hcall⟩ := hqueued m hm payload hpayload
  -- the call was made before the task was seen to be done
  obtain ⟨evs₁, evs₂, rfl⟩ := List.append_of_mem he
  obtain ⟨c₁, c₂, hbefore, hstep, -⟩ := hrun.middle_inv
  obtain ⟨rfl, -, -⟩ := hstep
  obtain ⟨before, hmem⟩ := Pool.called_of_run hbefore.labels ht hcall
  obtain ⟨queueing, hqueueing, hlabel⟩ := List.mem_map.mp hmem
  obtain ⟨pre, post, rfl⟩ := List.append_of_mem hqueueing
  have hevs : pre ++ queueing :: post ++ e :: evs₂ = pre ++ queueing :: (post ++ e :: evs₂) := by
    simp
  refine ⟨id, received, before, queueing, pre, post ++ e :: evs₂, hlabel, hevs, ?_⟩
  rw [hevs] at hrun
  obtain ⟨c₃, c₄, -, hstep, hafter⟩ := hrun.middle_inv
  obtain ⟨rfl, rfl, hstep⟩ := hstep
  have hid : id ∈ store.queue queueing.after.shared m := by
    have hlabel' : queueing.label = .call i t.task before
        ⟨.store (.enqueue m (didOf next) payload received mediator.limits.queue), .ok (some id)⟩ :=
          hlabel
    rw [hlabel'] at hstep
    generalize queueing.after = after at hstep
    cases hstep with
    | call _ henv => exact store.added henv
  refine (message_stays hid hafter).imp (fun hstay => ⟨hstay, ?_⟩) fun hends => hends
  exact hintact.granted .queue m (store.queued hstay)

end Tasks

/-! ## A message for a mediation that was removed -/

namespace OrphanExample

open Didcomm.Loopback Loopback MailboxExample

/-- The mediator removes mediations after a hundred idle seconds. -/
def expiring : Mediator := mediator
  { maxMessageBytes := 1000, queue := ⟨60, 10, 1000⟩, maxRecipientDids := 2,
    pushMinIntervalSecs := 0,
    recipientProof := false, mediationTtlSecs := 100 } false none

/-- The job that handles mail `n`. -/
def job (n : UInt8) : Job := .receive (resolver fun _ => []) (envelope n) none

/-- What it runs. -/
def receiving (n : UInt8) : Task Unit :=
  void (handleUnpacked prim expiring (resolver fun _ => []) (mails n.toNat).message
    (metadata (mails n.toNat).sender self) none).run

/-- The job of a mail of the example is to handle it. -/
theorem job_program (n : UInt8) : (job n).program prim expiring = receiving n := by
  have h := sendable_mails n
  have hhandle : handle prim expiring (resolver fun _ => []) (envelope n) none = handleUnpacked prim
      expiring (resolver fun _ => []) (mails n.toNat).message (metadata (mails n.toNat).sender self)
      none := handle_eq rfl rfl h.1 h.2.1 h.2.2.1 h.2.2.2.1 h.2.2.2.2
  exact congrArg (fun p => void (ExceptT.run p)) hhandle

/-- The tasks on the in-process store. -/
abbrev system : Pool.System Surroundings Job Store.Inner :=
  tasks prim expiring Store.Inner.estateStore

/-- The store after these mails were handled one after the other, at time 0. -/
def after (ns : List UInt8) : Store.Inner :=
  ns.foldl (fun s n => ((receiving n).run (calm 0) s).2) .empty

/-- Every task of the example executes around the in-process store as it runs. -/
theorem executes {now : ℕ} (hnow : now < maxClock) (p : Task Unit) (s : Store.Inner) :
    Program.Executes (around Store.MemoryStep) p s (p.trace (calm now) s) ()
    (p.run (calm now) s).2 :=
  (Program.run_executes (calm now) p s).mono fun _ _ _ => calm_around hnow

/-- Zero is a reading of the clock. -/
theorem zero_lt_maxClock : 0 < maxClock := by decide

/-- Handling an envelope removes no mediation. -/
theorem handle_removes_none {s t : Store.Inner} {n : UInt8} {calls : List (Call Surroundings)}
    (h : Program.Executes (around Store.MemoryStep) ((job n).program prim expiring) s calls () t) :
    ∀ k ∈ calls, ∀ cutoff limit, k.op ≠ .store (.removeIdleMediations cutoff limit) := by
  have hhandle : ((job n).program prim expiring).Ensures (fun e r => readsClock ⟨e, r⟩)
      (fun e => ∀ cutoff limit, e ≠ .store (.removeIdleMediations cutoff limit)) fun _ => True := by
    refine ensures_void.mpr (handle_ensures (fun _ hnow => hnow) (fun e he => ?_)
      fun _ _ _ _ _ _ e he => ?_)
    · rintro cutoff limit rfl
      exact he
    · rintro cutoff limit rfl
      exact he
  exact fun k hk => ((hhandle.sound (fun _ => True) (fun _ _ _ _ _ henv =>
    ⟨around_clock henv, trivial⟩) trivial h).2.2 k hk).1

/-- Receiving a list of mails of the example is a run, in which no mediation is removed. -/
theorem run_mails (ns : List UInt8) : ∃ labels,
    Transition.Run (Pool.Step system) (.empty .empty) labels (.empty (after ns)) ∧
      ∀ label ∈ labels, ∀ m, ¬ Clears m label := by
  induction ns using List.reverseRecOn with
  | nil => exact ⟨[], .nil, by simp⟩
  | append_singleton ns n ih =>
    obtain ⟨labels, hrun, hclears⟩ := ih
    have hexec := executes zero_lt_maxClock (receiving n) (after ns)
    rw [← job_program n] at hexec
    have hmail := Pool.run_of_executes (S := system) 0 (job n) rfl hexec
    have hafter : ((receiving n).run (calm 0) (after ns)).2 = after (ns ++ [n]) := by simp [after]
    rw [job_program n, hafter] at hmail
    refine ⟨_, hrun.append hmail, ?_⟩
    rw [List.forall_mem_append, List.forall_mem_cons]
    refine ⟨hclears, fun m hm => hm, fun label hlabel m hm => ?_⟩
    unfold Clears at hm
    split at hm
    · rename_i op answer
      -- handling a mail removes no mediation
      have hk := handle_removes_none hexec _ (job_program n ▸ Pool.mem_finishing hlabel)
      cases op with
      | removeIdleMediations cutoff limit => exact hk cutoff limit rfl
      | _ => exact hm
    · exact hm

/-- Before the cleanup: the `forward` has found the mediation. -/
def found : Task Unit × List (Call Surroundings) × Store.Inner :=
  (receiving 2).upTo (calm 0) 2 (after [0, 1])

/-- The cleanup runs a thousand seconds later. -/
def cleaned : Store.Inner := (((Job.cleanup 1).program prim expiring).run (calm 1000) found.2.2).2

/-- The `forward` goes on. -/
def orphaned : Store.Inner := (found.1.run (calm 1000) cleaned).2

/-- In the last state of the example there is a message queued for a mediation that is gone. -/
theorem orphaned_queue : (orphaned.queues "did:ex:a").map Store.Queued.message = ["e"] ∧
    orphaned.mediations "did:ex:a" = false := by decide +kernel

/-- The example's run leads to this state. -/
theorem orphaning : ∃ labels c, Transition.Run (Pool.Step system) (.empty .empty) labels c ∧
    c.shared = orphaned := by
  obtain ⟨labels, hmails, -⟩ := run_mails [0, 1]
  have hcalm : ∀ s k t, Program.Handled (calm 0) s k t → around Store.MemoryStep s k t :=
    fun _ _ _ => calm_around zero_lt_maxClock
  have hnow : 1000 < maxClock := by decide
  have hstart : Pool.Step system (.empty (after [0, 1])) (.start 0 (job 2)) _ := .start rfl rfl
  rw [show system.program (job 2) = receiving 2 from job_program 2] at hstart
  have hfound := Pool.Run.upTo (S := system) (job 2) hcalm 2 (receiving 2) (after [0, 1]) []
    (Function.update (fun _ => none) 0 (some ⟨job 2, [], receiving 2⟩)) (Function.update_self ..)
  rw [Function.update_idem] at hfound
  let threads : ℕ → Option (Pool.Thread Surroundings Job) :=
    Function.update (fun _ => none) 0 (some ⟨job 2, found.2.1, found.1⟩)
  -- the cleanup runs to its end
  have hidle : Pool.Step system ⟨threads, found.2.2⟩ (.start 1 (.cleanup 1))
      ⟨Function.update threads 1 (some ⟨.cleanup 1, [], (Job.cleanup 1).program prim expiring⟩),
        found.2.2⟩ := .start rfl rfl
  have hcleanup := Pool.Run.finish (S := system) (.cleanup 1)
    (executes hnow ((Job.cleanup 1).program prim expiring) found.2.2) []
    (Function.update threads 1 (some ⟨.cleanup 1, [], (Job.cleanup 1).program prim expiring⟩))
    (Function.update_self ..)
  rw [Function.update_idem] at hcleanup
  have hwaits : Function.update threads 1 none 0 = some ⟨job 2, found.2.1, found.1⟩ := rfl
  have hrest := Pool.Run.finish (S := system) (job 2) (executes hnow found.1 cleaned) found.2.1
    (Function.update threads 1 none) hwaits
  exact ⟨_, _, hmails.append (.cons hstart (hfound.append (.cons hidle (hcleanup.append hrest)))),
    rfl⟩

end OrphanExample

/-- A `forward` looks up its recipient's mediation; the cleanup removes the mediation as idle; then
the `forward` queues its message, in a queue that belongs to no granted mediation. -/
theorem message_outlives :
    ¬ ∀ (prim : Primitives) (mediator : Mediator) (labels : List (Pool.Label Surroundings Job))
      (c : Pool.Config Surroundings Job Store.Inner),
      Transition.Run (Pool.Step (tasks prim mediator Store.Inner.estateStore))
      (.empty .empty) labels c → ∀ b m, Store.Inner.estateStore.Has b m c.shared →
        Store.Inner.estateStore.Granted m c.shared := by
  intro h
  obtain ⟨labels, c, hrun, hshared⟩ := OrphanExample.orphaning
  obtain ⟨hqueue, hgone⟩ := OrphanExample.orphaned_queue
  have hgranted : c.shared.mediations "did:ex:a" = true := by
    refine h _ _ _ _ hrun .queue "did:ex:a" fun hnone => ?_
    rw [hshared] at hnone
    rw [hnone] at hqueue
    exact nomatch hqueue
  rw [hshared, hgone] at hgranted
  exact Bool.false_ne_true hgranted

open OrphanExample in
/-- A message that is queued while its mediation is granted. -/
theorem nothing_outlives_queued : ∃ (evs : List (TaskEvent Store.Inner))
    (c : Pool.Config Surroundings Job Store.Inner),
    Transition.Run (Transition.Observed (Pool.Step system)) (.empty .empty) evs c ∧
      c.shared.queues "did:ex:a" ≠ [] ∧ c.shared.mediations "did:ex:a" = true := by
  obtain ⟨labels, hrun, hclears⟩ := run_mails [0, 1, 2]
  obtain ⟨evs, rfl, hobserved⟩ := hrun.observe
  have hqueue : (after [0, 1, 2]).queues "did:ex:a" ≠ [] := by decide +kernel
  -- the empty store has nothing that could outlive its owner
  have hstart : ∀ b m, Store.Inner.estateStore.Has b m .empty →
      Store.Inner.estateStore.Granted m .empty := by
    intro b m hhas
    cases b with
    | device =>
      obtain ⟨service, hdevice⟩ := hhas
      exact absurd rfl hdevice
    | _ => exact absurd rfl hhas
  have hsound : Store.Inner.estateStore.Sound .empty := fun r m howner => by
    have hnone : Store.Inner.empty.owners r = none := rfl
    exact nomatch hnone.symm.trans howner
  have hgranted := (nothing_outlives MailboxExample.prim expiring
    Store.Inner.estateStore hsound hstart hobserved fun e he m hm =>
      absurd hm (hclears _ (List.mem_map_of_mem he) m)).1
  exact ⟨evs, _, hobserved, hqueue, hgranted .queue "did:ex:a" hqueue⟩

end Dispatch
