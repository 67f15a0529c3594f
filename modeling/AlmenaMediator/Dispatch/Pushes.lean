import AlmenaMediator.Dispatch.Authority
import AlmenaMediator.Dispatch.Loopback
import AlmenaMediator.Library.Pool
import AlmenaMediator.Store.Redis.Turns

/-!
# When devices are woken

Every job that wakes devices claims the mediation's turn first, for the TTL of queued messages, and
every pickup cuts the turn to the least time between two pushes. Over a store of turns whose clock
does not go back, two turns are then apart, whatever else runs.

## Main results

* `claims_apart`: in every interleaving of jobs, over either store;
* `push_claimed`: a push belongs to a turn, and goes to a registered device of a configured service.
-/

namespace Dispatch

open Didcomm Turns

/-! ## What jobs do about turns -/

section Paces

variable {rely : (e : Effect) → Surroundings.Reply e → Prop} {prim : Primitives}
    {mediator : Mediator}

/-- Turns are claimed for the TTL and cut to the least time between two pushes, at clock readings,
and devices are woken in a turn. -/
def Paces (rely : (e : Effect) → Surroundings.Reply e → Prop) (mediator : Mediator) : Effect → Prop
  | .store (.claimPush _ now hold) => rely .now now ∧ hold = mediator.limits.queue.ttlSecs
  | .store (.releasePush _ now minInterval) =>
    rely .now now ∧ minInterval = mediator.limits.pushMinIntervalSecs
  | .push service token => ∃ mediation, Woken rely mediator mediation service token
  | _ => True

/-- Carrying a message has nothing to do with turns. -/
theorem Carries.paces {e : Effect} (h : Carries mediator rely e) : Paces rely mediator e := by
  cases e with
  | store op =>
    cases op with
    | claimPush | releasePush => exact h.elim
    | _ => trivial
  | push => exact h.elim
  | _ => trivial

/-- A pickup cuts the turn of its requester. -/
theorem OnBehalfOf.paces {requester : String} {session : Option ℕ} {mayAdd : String → Prop}
    {e : Effect} (h : OnBehalfOf mediator rely requester session mayAdd e) :
    Paces rely mediator e := by
  cases e with
  | store op =>
    cases op with
    | claimPush => exact h.elim
    | releasePush m now minInterval => exact h.2
    | _ => trivial
  | push => exact h.elim
  | _ => trivial

/-- Devices are woken in a turn that is claimed for the TTL. -/
theorem Wakes.paces {mediation : String} {e : Effect} (h : Wakes mediator rely mediation e) :
    Paces rely mediator e := by
  cases e with
  | store op =>
    cases op with
    | claimPush m now hold =>
      obtain ⟨-, hnow, hhold, -⟩ := h
      exact ⟨hnow, hhold⟩
    | devices | removeDevice => trivial
    | _ => exact h.elim
  | push service token => exact ⟨mediation, h⟩
  | _ => trivial

/-- The periodic tasks have nothing to do with turns. -/
theorem Chore.paces {e : Effect} (h : Chore e) : Paces rely mediator e := by
  cases e with
  | store op =>
    cases op with
    | claimPush | releasePush => exact h.elim
    | _ => trivial
  | push => exact h.elim
  | _ => trivial

/-- Every job keeps the pace. -/
theorem program_paces (hclock : ∀ now, rely .now now → now < maxClock) (job : Job) :
    (job.program prim mediator).Ensures rely (Paces rely mediator) fun _ => True := by
  apply program_ensures hclock
  · exact fun _ h => h.paces
  · exact fun _ h => h.paces
  · exact fun _ _ h => h.paces
  · exact fun _ => trivial
  · exact fun _ _ _ _ _ _ _ _ _ _ _ h => h.paces

end Paces

/-! ## The mediator over a store of turns -/

section System

variable {σ : Type} (S : Store.PushStore σ)

/-- What a call does: the clock is read as it stands, and the store answers its methods. -/
def withTurns : Program.Environment Surroundings σ := fun s c t =>
  match c with
  | ⟨.store op, answer⟩ => S.env s ⟨op, answer⟩ t
  | ⟨.now, now⟩ => now = S.clock s ∧ now < maxClock ∧ t = s
  | _ => t = s

/-- The mediator's jobs, in any order, on one store, while time passes. -/
def pacedSystem (prim : Primitives) (mediator : Mediator) : Pool.System Surroundings Job σ where
  program := Job.program prim mediator
  start _ _ s t := t = s
  env _ := withTurns S
  idle c s := S.later c.shared s

/-- What a label is to the store: a call, time passing, or nothing. -/
def storeLabel : Pool.Label Surroundings Job → Option (Option (Call Store.StoreCall))
  | .call _ _ _ ⟨.store op, answer⟩ => some (some ⟨op, answer⟩)
  | .idle => some none
  | _ => none

/-- What a run does to the turns of `m`. -/
def turnsOf (m : String) (labels : List (Pool.Label Surroundings Job)) : List Turns.Event :=
  Store.turnEvents m (labels.filterMap storeLabel)

variable {S} {prim : Primitives} {mediator : Mediator}
  {c c' : Pool.Config Surroundings Job σ} {label : Pool.Label Surroundings Job}
  {labels : List (Pool.Label Surroundings Job)} {s₀ : σ} {m : String}

/-- Every reading of the clock is one of the mediator's range. -/
theorem withTurns_readsClock {s t : σ} {k : Call Surroundings}
    (h : withTurns S s k t) : readsClock k := by
  obtain ⟨op, reply⟩ := k
  cases op with
  | now => exact h.2.1
  | _ => trivial

/-- The turns of two rows of labels are those of each. -/
theorem turnsOf_append (m : String) (labels labels' : List (Pool.Label Surroundings Job)) :
    turnsOf m (labels ++ labels') = turnsOf m labels ++ turnsOf m labels' := by
  simp [turnsOf, Store.turnEvents]

/-- The clock does not go back. -/
theorem clock_le_of_step (h : Pool.Step (pacedSystem S prim mediator) c label c') :
    S.clock c.shared ≤ S.clock c'.shared := by
  cases h with
  | start _ hstart => exact (congrArg S.clock hstart).ge
  | @call i task calls op next r s _ henv =>
    cases op with
    | store op => exact (S.clock_call henv).ge
    | now => exact (congrArg S.clock henv.2.2).ge
    | _ => exact (congrArg S.clock henv).ge
  | stop _ => exact le_rfl
  | idle hlater => exact S.clock_later hlater

/-- No run turns the clock back. -/
theorem clock_le_of_run (h : Transition.Run (Pool.Step (pacedSystem S prim mediator)) c labels c') :
    S.clock c.shared ≤ S.clock c'.shared := by
  induction h with
  | nil => exact le_rfl
  | snoc _ hstep ih => exact ih.trans (clock_le_of_step hstep)

variable (hrun : Transition.Run (Pool.Step (pacedSystem S prim mediator)) (.empty s₀) labels c)

include hrun

/-- What a job read off the clock is not later than the clock. -/
theorem reading_le {i : ℕ} {t : Pool.Thread Surroundings Job} (ht : c.threads i = some t) {now : ℕ}
    (hnow : ⟨.now, now⟩ ∈ t.calls) : now ≤ S.clock c.shared := by
  obtain ⟨before, hmem⟩ := Pool.called_of_run hrun ht hnow
  obtain ⟨past, after, rfl⟩ := List.append_of_mem hmem
  obtain ⟨c₁, c₂, -, hstep, hrest⟩ := hrun.middle_inv
  have hread : now = S.clock c₁.shared := by
    cases hstep with
    | call _ henv => exact henv.1
  rw [hread]
  exact (clock_le_of_step hstep).trans (clock_le_of_run hrest)

/-- A call of a job keeps the pace, at readings that are not later than the clock. -/
theorem paces_of_step {i : ℕ} {task : Job} {calls : List (Call Surroundings)}
    {k : Call Surroundings}
    (hstep : Pool.Step (pacedSystem S prim mediator) c (.call i task calls k) c') :
    Paces (Pool.Answered calls) mediator k.op ∧ ∀ now, ⟨.now, now⟩ ∈ calls →
      now ≤ S.clock c.shared := by
  have hunfolded := Pool.unfolded_of_run hrun
  have hmeets : Pool.CallsMeet readsClock c :=
    Pool.callsMeet_of_run (fun _ _ _ _ => withTurns_readsClock) hrun
  cases hstep with
  | @call _ _ _ op next r s hthread henv =>
    have hclock : ∀ now, Pool.Answered calls .now now → now < maxClock :=
      fun now hnow => hmeets i _ hthread ⟨.now, now⟩ hnow
    exact ⟨(Pool.Step.call hthread henv).guaranteed hunfolded (program_paces hclock task),
      fun now hnow => reading_le hrun hthread hnow⟩

/-- A run of the mediator is one of its store. -/
theorem store_run :
    Transition.Run (S.Step fun clock now => now ≤ clock) s₀
      (labels.filterMap storeLabel) c.shared := by
  -- only a call on the store or a later clock is a step of the store's own run
  induction hrun with
  | nil => exact .nil
  | @snoc labels c c' label hrun hstep ih =>
    rw [List.filterMap_append]
    have hstay : storeLabel label = none → c'.shared = c.shared →
        Transition.Run (S.Step fun clock now => now ≤ clock) s₀
          (labels.filterMap storeLabel ++ [label].filterMap storeLabel) c'.shared := by
      intro hnone hshared
      rw [List.filterMap_cons_none hnone, List.filterMap_nil, List.append_nil, hshared]
      exact ih
    have hpaces := fun i task calls k h => @paces_of_step σ S prim mediator c c' labels
      s₀ hrun i task calls k h
    cases hstep with
    | start _ hstart => exact hstay rfl hstart
    | stop _ => exact hstay rfl rfl
    | idle hlater => exact ih.snoc (.later hlater)
    | @call i task calls op next r s hthread henv =>
      cases op with
      | store op =>
        obtain ⟨hpaced, hreadings⟩ := hpaces i task calls ⟨.store op, r⟩ (.call hthread henv)
        refine ih.snoc (.call ?_ henv)
        cases op with
        -- a claim and a release are made by a clock that was read before
        | claimPush m now hold => exact hreadings now hpaced.1
        | releasePush m now minInterval => exact hreadings now hpaced.1
        | _ => trivial
      | now => exact hstay rfl henv.2.2
      | _ => exact hstay rfl henv

omit hrun in
/-- Every event of a mediation's turns comes of a call of the store among the labels. -/
theorem mem_turnsOf {e : Turns.Event} (h : e ∈ turnsOf m labels) :
    ∃ i task before, ∃ (op : Store.Op) (answer : Except Store.StoreError op.Answer),
      Pool.Label.call i task before (⟨.store op, answer⟩ : Call Surroundings) ∈ labels ∧
        Store.turnEvent m ⟨op, answer⟩ = some e := by
  obtain ⟨label, hlabel, he⟩ := List.mem_filterMap.mp h
  obtain ⟨pooled, hmem, hstored⟩ := List.mem_filterMap.mp hlabel
  unfold storeLabel at hstored
  split at hstored
  · rename_i i task before op answer
    obtain rfl := Option.some_inj.mp hstored
    exact ⟨i, task, before, op, answer, hmem, he⟩
  · obtain rfl := Option.some_inj.mp hstored
    cases he
  · cases hstored

/-- Turns are claimed for the TTL. -/
theorem hold_eq {now hold : ℕ} (h : .taken now hold ∈ turnsOf m labels) :
    hold = mediator.limits.queue.ttlSecs := by
  obtain ⟨i, task, before, op, answer, hmem, he⟩ := mem_turnsOf h
  obtain ⟨past, after, rfl⟩ := List.append_of_mem hmem
  obtain ⟨c₁, c₂, hpast, hstep, -⟩ := hrun.middle_inv
  obtain ⟨rfl, -⟩ := Call.mk.inj (Store.turnEvent_eq_taken he)
  exact (paces_of_step hpast hstep).1.2

/-- Turns are cut to the least time between two pushes. -/
theorem least_eq {least : ℕ} (h : .cut least ∈ turnsOf m labels) :
    least = mediator.limits.pushMinIntervalSecs := by
  obtain ⟨i, task, before, op, answer, hmem, he⟩ := mem_turnsOf h
  obtain ⟨past, after, rfl⟩ := List.append_of_mem hmem
  obtain ⟨c₁, c₂, hpast, hstep, -⟩ := hrun.middle_inv
  obtain ⟨now, heq⟩ := Store.turnEvent_eq_cut he
  obtain ⟨rfl, -⟩ := Call.mk.inj heq
  exact (paces_of_step hpast hstep).1.2

end System

section Apart

variable {σ : Type} {S : Store.PushStore σ} {prim : Primitives} {mediator : Mediator}
  {c c' : Pool.Config Surroundings Job σ} {past between : List (Pool.Label Surroundings Job)}
    {s₀ : σ} {m : String} {i j : ℕ} {task task' : Job} {before before' : List (Call Surroundings)}
  {sent hold now hold' apart : ℕ}

/-- A turn that is claimed after another one is as far from it as the cuts in between allow. -/
theorem apart_of_claims (h₀ : S.HasTurn m none s₀)
    (hrun : Transition.Run (Pool.Step (pacedSystem S prim mediator)) (.empty s₀)
      (past ++ .call i task before ⟨.store (.claimPush m sent hold), .ok true⟩ :: between) c)
    (hstep : Pool.Step (pacedSystem S prim mediator) c
      (.call j task' before' ⟨.store (.claimPush m now hold'), .ok true⟩) c')
    (hdropped : .dropped ∉ turnsOf m between) (hapart : apart ≤ mediator.limits.queue.ttlSecs)
    (hcuts : ∀ least, .cut least ∈ turnsOf m between → apart ≤ least) :
    sent + apart ≤ S.clock c.shared := by
  induction hlen : between.length using Nat.strong_induction_on
    generalizing between c c' j task' before' now hold' with
  | _ n ih =>
    by_cases htaken : ∃ sent' hold'', .taken sent' hold'' ∈ turnsOf m between
    · -- a turn claimed in between is far enough from the first one already
      obtain ⟨sent', hold'', hmem⟩ := htaken
      obtain ⟨k, task'', before'', op, answer, hmem, he⟩ := mem_turnsOf hmem
      obtain ⟨rfl, hanswer⟩ := Call.mk.inj (Store.turnEvent_eq_taken he)
      obtain rfl := eq_of_heq hanswer
      obtain ⟨first, rest, rfl⟩ := List.append_of_mem hmem
      rw [turnsOf_append] at hdropped hcuts
      rw [← List.cons_append, ← List.append_assoc] at hrun
      obtain ⟨c₁, c₂, hfirst, hclaim, hrest⟩ := hrun.middle_inv
      have hmiddle := ih first.length (by simp at hlen; omega) hfirst hclaim
        (fun hmem => hdropped (List.mem_append_left _ hmem))
        (fun least hmem => hcuts least (List.mem_append_left _ hmem)) rfl
      exact hmiddle.trans ((clock_le_of_step hclaim).trans (clock_le_of_run hrest))
    -- with no turn in between, what stands since the first one kept it held for its hold
    · have hevents : turnsOf m (past ++ .call i task before
        ⟨.store (.claimPush m sent hold), .ok true⟩ :: between) =
          turnsOf m past ++ .taken sent hold :: turnsOf m between := by
        rw [turnsOf_append]
        congr 1
        simp [turnsOf, Store.turnEvents, storeLabel, Store.turnEvent]
      obtain ⟨hpaced, hreadings⟩ := paces_of_step hrun hstep
      have hfree : ¬ Held (S.clock c.shared) (turnsOf m (past ++
          .call i task before ⟨.store (.claimPush m sent hold), .ok true⟩ :: between)) := by
        cases hstep with
        | call _ henv =>
          exact Store.PushStore.not_held_of_claimed (store_run hrun) h₀
            (hreadings now hpaced.1) henv
      have hfirst : hold = mediator.limits.queue.ttlSecs := by
        refine @hold_eq _ S prim mediator c _ s₀ m hrun sent hold ?_
        rw [hevents]
        exact List.mem_append_right _ List.mem_cons_self
      rw [hevents] at hfree
      refine apart_of_not_held hfree (hfirst ▸ hapart) fun e he => ?_
      cases e with
      | taken sent' hold'' => exact absurd ⟨sent', hold'', he⟩ htaken
      | cut least => exact ⟨least, rfl, hcuts least he⟩
      | dropped => exact absurd he hdropped

/-- Two turns of a mediation that was not removed in between: the second is claimed no sooner than
the least time between two pushes after the clock reading of the first (or the TTL, if that is
less), and no sooner than the TTL after it unless there was a pickup in between. -/
theorem claims_apart (h₀ : S.HasTurn m none s₀)
    (hrun : Transition.Run (Pool.Step (pacedSystem S prim mediator)) (.empty s₀)
      (past ++ .call i task before ⟨.store (.claimPush m sent hold), .ok true⟩ :: between) c)
    (hstep : Pool.Step (pacedSystem S prim mediator) c
      (.call j task' before' ⟨.store (.claimPush m now hold'), .ok true⟩) c')
    (hdropped : .dropped ∉ turnsOf m between) :
    sent + min mediator.limits.queue.ttlSecs mediator.limits.pushMinIntervalSecs ≤
      S.clock c.shared ∧
    ((∀ least, .cut least ∉ turnsOf m between) →
        sent + mediator.limits.queue.ttlSecs ≤ S.clock c.shared) := by
  refine ⟨apart_of_claims h₀ hrun hstep hdropped (min_le_left _ _) fun least hcut => ?_,
    fun hnone => apart_of_claims h₀ hrun hstep hdropped le_rfl fun least hcut =>
      absurd hcut (hnone least)⟩
  -- a turn is cut to the configured interval, never to less
  have hleast : least = mediator.limits.pushMinIntervalSecs := by
    refine @least_eq _ S prim mediator c _ s₀ m hrun least ?_
    rw [turnsOf_append, ← List.singleton_append, turnsOf_append]
    exact List.mem_append_right _ (List.mem_append_right _ hcut)
  exact hleast ▸ min_le_right _ _

/-- A job pushes to a registered device of a configured service, in a turn of its mediation that it
claimed itself. -/
theorem push_claimed {labels : List (Pool.Label Surroundings Job)} {service : Store.Service}
    {token : String} {answer : Except String Sent}
    (hrun : Transition.Run (Pool.Step (pacedSystem S prim mediator)) (.empty s₀) labels c)
    (hstep : Pool.Step (pacedSystem S prim mediator) c
      (.call i task before ⟨.push service token, answer⟩) c') :
      ∃ mediation, Woken (Pool.Answered before) mediator mediation service token :=
  (paces_of_step hrun hstep).1

end Apart

namespace WakeExample

/-- Messages wait a minute, and pushes go half a minute apart. -/
def mediator : Mediator := Loopback.mediator
  { maxMessageBytes := 1000
    queue := { maxMessages := 10, maxBytes := 1000, ttlSecs := 60 }
    maxRecipientDids := 10
    pushMinIntervalSecs := 30
    recipientProof := false
    mediationTtlSecs := 0 } false (some [.fcm])

def device : Store.Device := { token := "t", platform := none }

/-- A mediation with a device, and what the store keeps of its turn. -/
def store (marker : Option (ℕ × ℕ)) : Store.Inner :=
  { Store.Inner.empty with
    devices := fun _ service => if service = .fcm then some device else none
    pushSent := Function.update (fun _ => none) "m" marker }

abbrev system : Pool.System Surroundings Job (Store.Inner × ℕ) :=
  pacedSystem Store.Inner.pushStore Primitives.refusing mediator

/-- The calls of a job that wakes the device. -/
def waking (now : ℕ) : List (Call Surroundings) :=
  [⟨.store (.devices "m"), .ok [(.fcm, device)]⟩, ⟨.now, now⟩,
    ⟨.store (.claimPush "m" now 60), .ok true⟩]

/-- Before the job claims the turn. -/
def past (i now : ℕ) : List (Pool.Label Surroundings Job) :=
  .start i (.wake "m") :: Pool.calling i (.wake "m") [] ((waking now).take 2)

/-- The first job wakes the device and is done; a minute later another one starts. -/
def between : List (Pool.Label Surroundings Job) :=
  [.call 0 (.wake "m") (waking 0) ⟨.push .fcm "t", .ok .delivered⟩,
    .stop 0 (.wake "m"), .idle] ++ past 1 60

/-- A claim where the marker has lapsed is granted, and sets the marker anew. -/
theorem claim_step {marker : Option (ℕ × ℕ)} {now : ℕ}
    (h : marker.any (fun p => now < p.2) = false) :
    withTurns Store.Inner.pushStore (store marker, now) ⟨.store (.claimPush "m" now 60), .ok true⟩
      (store (some (now, now + 60)), now) := by
  have hmarker : (store marker).pushSent "m" = marker := rfl
  have hclaim : (store marker).claimPush "m" now 60 = (true, store (some (now, now + 60))) := by
    rw [Store.Inner.claimPush, hmarker, h]
    simp [store]
  refine ⟨⟨[], .refl _, ?_⟩, rfl⟩
  show ((.ok ((store marker).claimPush "m" now 60).1 : Except Store.StoreError Bool),
    ((store marker).claimPush "m" now 60).2) = _
  rw [hclaim]

/-- In the example a first wake claims the turn at 0 and a second one at 60. -/
theorem run : ∃ c c', Transition.Run (Pool.Step system) (.empty (store none, 0))
    (past 0 0 ++ .call 0 (.wake "m") ((waking 0).take 2) ⟨.store (.claimPush "m" 0 60),
      .ok true⟩ :: between) c ∧ Pool.Step system c
        (.call 1 (.wake "m") ((waking 60).take 2) ⟨.store (.claimPush "m" 60 60), .ok true⟩) c' ∧
    c.shared.2 = 60 := by
  have hdevices : ∀ marker now, withTurns Store.Inner.pushStore (store marker, now)
      ⟨.store (.devices "m"), .ok [(.fcm, device)]⟩ (store marker, now) := fun _ _ =>
        ⟨⟨[], .refl _, rfl⟩, rfl⟩
  have hnow : ∀ marker now, now < maxClock → withTurns Store.Inner.pushStore
    (store marker, now) ⟨.now, now⟩
      (store marker, now) := fun _ _ h => ⟨rfl, h, rfl⟩
  have hfirst := @claim_step none 0 rfl
  have hsecond := @claim_step (some (0, 60)) 60 rfl
  have hlater : Store.Inner.pushStore.later (store (some (0, 60)), 0) (store (some (0, 60)), 60) :=
    ⟨rfl, by decide⟩
  exact ⟨_, _, .cons (.start rfl rfl) (.cons (.call rfl (hdevices _ _))
    (.cons (.call rfl (hnow _ _ (by decide)))
    (.cons (.call rfl hfirst) (.cons (.call rfl rfl) (.cons (.stop rfl) (.cons (.idle hlater)
    (.cons (.start rfl rfl) (.cons (.call rfl (hdevices _ _))
    (.single (.call rfl (hnow _ _ (by decide)))))))))))), .call rfl hsecond, rfl⟩

end WakeExample

/-- The two claims of the example are a minute apart. -/
theorem claims_apart_minute :
    0 + min 60 30 ≤ 60 ∧
      ((∀ least, .cut least ∉ turnsOf "m" WakeExample.between) → 0 + 60 ≤ 60) := by
  obtain ⟨c, c', hrun, hstep, hclock⟩ := WakeExample.run
  have h₀ : Store.Inner.pushStore.HasTurn "m" none (WakeExample.store none, 0) := .inl rfl
  have hapart := claims_apart h₀ hrun hstep (by decide)
  rwa [show Store.Inner.pushStore.clock c.shared = 60 from hclock] at hapart

/-- The first push of the example goes to the devices of a mediation that was woken. -/
theorem push_claimed_first : ∃ mediation,
    Woken (Pool.Answered (WakeExample.waking 0)) WakeExample.mediator mediation .fcm "t" := by
  obtain ⟨c, c', hrun, -⟩ := WakeExample.run
  rw [← List.singleton_append, ← List.append_assoc] at hrun
  obtain ⟨c₁, c₂, hfirst, hpush, -⟩ := hrun.middle_inv
  exact push_claimed hfirst hpush

end Dispatch
