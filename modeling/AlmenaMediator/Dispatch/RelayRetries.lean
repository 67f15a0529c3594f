import AlmenaMediator.Dispatch.Loopback
import AlmenaMediator.Dispatch.RelayWorker

/-!
# Retries of a relay

Deliveries and one worker on one store, their steps in any order. `Moves` says what a step of the
pool does to the relays, the worker's round and the deliveries, and `CopyMoves` what a call of the
worker does to one relay: to its entry in the store, and to the copy of it that the worker leased.
-/

namespace Dispatch

open Didcomm (Primitives)
open Store (PendingRelay Relays RelayStore RelayStep)

/-- Deliveries and one worker, which is thread 0. -/
def relaying (prim : Primitives) (mediator : Mediator) {σ : Type} (store : RelayStore σ) :
    Pool.System Surroundings Job σ where
  program := Job.program prim mediator
  start i job s t := t = s ∧ if i = 0 then job = .retry else ∃ uri message,
    job = .deliver uri message
  env _ := around store.env
  idle _ _ := False

/-- The relays, and where the worker and the deliveries are. -/
structure View where
  relays : Relays
  round : Round
  deliveries : ℕ → Option (String × String × Delivery)

/-- What happens. -/
inductive Moves (prim : Primitives) (v : View) : Pool.Label Surroundings Job → View → Prop
  | startRound (h : v.round.held = []) : Moves prim v (.start 0 .retry) { v with round := .begun }
  | stopRound (h : v.round.held = []) : Moves prim v (.stop 0 .retry) { v with round := .ended }
  | round {before : List (Call Surroundings)} {k : Call Surroundings} {a : Relays} {r : Round}
      (h : RoundMoves v.relays v.round k a r) :
      Moves prim v (.call 0 .retry before k) { v with relays := a, round := r }
  | start {i : ℕ} {uri message : String} (h : v.deliveries i = none) :
      Moves prim v (.start i (.deliver uri message))
        { v with deliveries := Function.update v.deliveries i (some (uri, message, .posting)) }
  | stop {i : ℕ} {uri message : String} (h : v.deliveries i = some (uri, message, .ended)) :
      Moves prim v (.stop i (.deliver uri message))
        { v with deliveries := Function.update v.deliveries i none }
  | delivery {i : ℕ} {uri message : String} {d d' : Delivery} {before : List (Call Surroundings)}
      {k : Call Surroundings} {a : Relays} (h : v.deliveries i = some (uri, message, d))
      (hd : DeliveryMoves prim uri message v.relays d k a d') :
      Moves prim v (.call i (.deliver uri message) before k)
        { v with
          relays := a
          deliveries := Function.update v.deliveries i (some (uri, message, d')) }

/-! ## One relay -/

section OneRelay

variable (prim : Primitives) (id : String)

/-- A POST of the relay. -/
def posts (k : Call Surroundings) : Bool :=
  match k with
  | ⟨.post uri message, _⟩ => relayId prim uri message == id
  | _ => false

/-- A POST of the relay that succeeds. -/
def delivers (k : Call Surroundings) : Bool :=
  match k with
  | ⟨.post uri message, .ok _⟩ => relayId prim uri message == id
  | _ => false

/-- The copy of the relay in a round: its retries, and whether its POST succeeded if it was
tried. -/
def Round.copy : Round → Option (ℕ × Option Bool)
  | .trying _ relays => (relays.find? fun r => r.id == id).map fun r => (r.retries, none)
  | .tried _ relay posted relays =>
    if relay.id = id then some (relay.retries, some posted.isOk)
    else (relays.find? fun r => r.id == id).map fun r => (r.retries, none)
  | _ => none

/-- What a call of a round does to the relay's entry in the store and to its copy in the round. -/
inductive CopyMoves (k : Call Surroundings) : Option (ℕ × PendingRelay) → Option (ℕ × Option Bool) →
    Option (ℕ × PendingRelay) → Option (ℕ × Option Bool) → Prop
  | same {entry : Option (ℕ × PendingRelay)} {copy : Option (ℕ × Option Bool)}
      (h : posts prim id k = false) : CopyMoves k entry copy entry copy
  | lease {due due' : ℕ} {relay : PendingRelay} (h : posts prim id k = false) :
      CopyMoves k (some (due, relay)) none (some (due', relay)) (some (relay.retries, none))
  | post {entry : Option (ℕ × PendingRelay)} {n : ℕ} (h : posts prim id k) :
      CopyMoves k entry (some (n, none)) entry (some (n, some (delivers prim id k)))
  | finish {entry : Option (ℕ × PendingRelay)} {n : ℕ} {ok : Bool} (h : posts prim id k = false)
      (hlast : ok ∨ 3 ≤ n) : CopyMoves k entry (some (n, some ok)) none none
  | again {entry : Option (ℕ × PendingRelay)} {n due : ℕ} {relay : PendingRelay}
      (h : posts prim id k = false) (hn : n < 3) (hretries : relay.retries = n + 1) :
      CopyMoves k entry (some (n, some false)) (some (due, relay)) none
  /-- The relay is not in the store, and there is no room for it. -/
  | full {n : ℕ} (h : posts prim id k = false) : CopyMoves k none (some (n, some false)) none none

end OneRelay

/-- A relay has the id of its payload and destination. -/
def Named (prim : Primitives) (relay : PendingRelay) : Prop :=
  relay.id = relayId prim relay.uri relay.message

/-- Relays have their ids, and no round holds two of one id. -/
structure Sane (prim : Primitives) (a : Relays) (r : Round) : Prop where
  keyed : Agenda.Keyed PendingRelay.id a
  stored : ∀ k due relay, a k = some (due, relay) → Named prim relay
  held : ∀ relay ∈ r.held, Named prim relay
  nodup : (r.held.map PendingRelay.id).Nodup

section OneRelay

variable {prim : Primitives} {id : String} {a a' : Relays} {r r' : Round} {k : Call Surroundings}

variable {now : ℕ} {relay : PendingRelay} {relays : List PendingRelay} {posted : Except String Unit}

/-- A round that tries other relays has no copy of this one. -/
theorem copy_trying_none (h : id ∉ relays.map PendingRelay.id) :
    (Round.trying now relays).copy id = none := by
  rw [Round.copy, Option.map_eq_none_iff, List.find?_eq_none]
  intro relay hmem heq
  exact h (List.mem_map.mpr ⟨relay, hmem, beq_iff_eq.mp heq⟩)

/-- A round that tried a relay has its copy with the outcome of the POST. -/
theorem copy_tried_self :
    (Round.tried now relay posted relays).copy relay.id = some (relay.retries, some posted.isOk) :=
  if_pos rfl

/-- A round that tried another relay has the copies of those it still tries. -/
theorem copy_tried_of_ne (h : relay.id ≠ id) :
    (Round.tried now relay posted relays).copy id = (Round.trying now relays).copy id :=
  if_neg h

/-- What a call of a round does, as far as one relay is concerned. -/
theorem RoundMoves.copy (h : RoundMoves a r k a' r') (hsane : Sane prim a r) (id : String) :
    CopyMoves prim id k (a id) (r.copy id) (a' id) (r'.copy id) := by
  -- the copy a worker holds of this relay, and the entry it is of
  cases h with
  | now | leaseFailed => exact .same rfl
  | @lease now relays _ htake =>
    cases hfound : relays.find? fun r => r.id == id with
    | none =>
      have hnot : ∀ x ∈ relays, x.id ≠ id := fun x hx hid =>
        List.find?_eq_none.mp hfound x hx (beq_iff_eq.mpr hid)
      rw [htake.take_other hsane.keyed hnot, Round.copy, hfound]
      exact .same rfl
    | some x =>
      obtain ⟨k, due, -, hbefore, hafter⟩ := htake.taken (List.mem_of_find?_eq_some hfound)
      obtain rfl : x.id = k := hsane.keyed k due x hbefore
      obtain rfl : x.id = id := by simpa using List.find?_some hfound
      rw [hbefore, hafter, Round.copy, hfound]
      exact .lease rfl
  -- a POST is of this relay exactly when it is the relay's own
  | @post now relay relays posted =>
    have hnamed : Named prim relay := hsane.held relay List.mem_cons_self
    by_cases hid : relay.id = id
    · have hposts : posts prim id ⟨.post relay.uri relay.message, posted⟩ = true := by
        rw [posts, ← hnamed, beq_iff_eq]
        exact hid
      have hok : posted.isOk = delivers prim id ⟨.post relay.uri relay.message, posted⟩ := by
        cases posted with
        | ok => exact hposts.symm
        | error => rfl
      simp only [Round.copy, List.find?_cons, hid, beq_self_eq_true, Option.map_some, if_true, hok]
      exact .post hposts
    · have hposts : posts prim id ⟨.post relay.uri relay.message, posted⟩ = false := by
        rw [posts, ← hnamed, beq_eq_false_iff_ne]
        exact hid
      simp only [Round.copy, List.find?_cons, beq_eq_false_iff_ne.mpr hid, if_neg hid]
      exact .same hposts
  | @finish now relay relays posted hlast =>
    by_cases hid : relay.id = id
    · subst hid
      rw [Function.update_self, copy_tried_self,
        copy_trying_none (List.nodup_cons.mp hsane.nodup).1]
      exact .finish rfl hlast
    · rw [Function.update_of_ne (Ne.symm hid), copy_tried_of_ne hid]
      exact .same rfl
  | @again now due relay relays error stored _ hretries hput =>
    by_cases hid : relay.id = id
    · subst hid
      rw [copy_tried_self, copy_trying_none (List.nodup_cons.mp hsane.nodup).1]
      cases hput with
      | put =>
        rw [Function.update_self]
        exact .again rfl hretries rfl
      | full hkeys hfull =>
        -- the store was full, so the relay is in it no longer
        have hnone : a relay.id = none := by
          rw [← Option.not_isSome_iff_eq_none, ← hkeys.mem_iff]
          exact hfull.1
        rw [hnone]
        exact .full rfl
    · have hsame : a' id = a id := by
        cases hput with
        | put => exact Function.update_of_ne (Ne.symm hid) _ _
        | full => rfl
      rw [hsame, copy_tried_of_ne hid]
      exact .same rfl

/-- Storing a rightly named relay keeps every stored relay rightly named. -/
theorem stored_put {x : PendingRelay} {due cap : ℕ} {done : Bool} (hnamed : Named prim x)
    (h : ∀ k due relay, a k = some (due, relay) → Named prim relay)
    (hput : Agenda.Step PendingRelay.id a (.put x due cap done) a') :
    ∀ k due relay, a' k = some (due, relay) → Named prim relay := by
  intro k due' relay hrelay
  cases hput with
  | put =>
    by_cases hk : k = x.id
    · subst hk
      obtain ⟨-, rfl⟩ : due = due' ∧ x = relay := by simpa using hrelay
      exact hnamed
    · rw [Function.update_of_ne hk] at hrelay
      exact h k due' relay hrelay
  | full => exact h k due' relay hrelay

/-- A round keeps ids in order. -/
theorem Sane.round (hsane : Sane prim a r) (h : RoundMoves a r k a' r') : Sane prim a' r' := by
  obtain ⟨hkeyed, hstored, hheld, hnodup⟩ := hsane
  -- only leasing adds to what is held, and only putting back adds to what is stored
  cases h with
  | now | leaseFailed =>
    exact ⟨hkeyed, hstored, fun _ hmem => absurd hmem List.not_mem_nil, List.nodup_nil⟩
  | lease htake =>
    refine ⟨htake.keyed hkeyed, fun k due relay hrelay => ?_, fun relay hmem => ?_,
      htake.taken_nodup hkeyed⟩
    · cases htake with
      | take =>
        rcases Agenda.putOff_eq_some.mp hrelay with ⟨-, -, due', hrelay⟩ | ⟨-, hrelay⟩
        · exact hstored k due' relay hrelay
        · exact hstored k due relay hrelay
    · obtain ⟨k, due, -, hbefore, -⟩ := htake.taken hmem
      exact hstored k due relay hbefore
  | post => exact ⟨hkeyed, hstored, hheld, hnodup⟩
  | @finish now relay relays posted _ =>
    refine ⟨hkeyed.drop _, fun k due relay' hrelay => ?_,
      fun x hx => hheld x (List.mem_cons_of_mem _ hx), (List.nodup_cons.mp hnodup).2⟩
    by_cases hk : k = relay.id
    · simp [hk] at hrelay
    · rw [Function.update_of_ne hk] at hrelay
      exact hstored k due relay' hrelay
  | @again now due relay relays error stored _ _ hput =>
    have hnamed : Named prim { relay with retries := relay.retries + 1 } :=
      hheld relay List.mem_cons_self
    exact ⟨hput.keyed hkeyed, stored_put hnamed hstored hput,
      fun x hx => hheld x (List.mem_cons_of_mem _ hx), (List.nodup_cons.mp hnodup).2⟩

/-- So does a delivery. -/
theorem Sane.delivery {uri message : String} {d d' : Delivery} (hsane : Sane prim a r)
    (h : DeliveryMoves prim uri message a d k a' d') : Sane prim a' r := by
  cases h with
  | stores hput =>
    have hnamed : Named prim (newRelay prim uri message) := rfl
    exact ⟨hput.keyed hsane.keyed, stored_put hnamed hsane.stored hput, hsane.held, hsane.nodup⟩
  | _ => exact hsane

end OneRelay

/-! ## The pool and its view -/

/-- The delivery a thread runs. -/
def deliveryOf (t : Pool.Thread Surroundings Job) : Option (String × String × Delivery) :=
  match t.task with
  | .deliver uri message => some (uri, message, delivery t.calls)
  | _ => none

/-- What a pool looks like, with these relays. -/
def view {σ : Type} (c : Pool.Config Surroundings Job σ) (a : Relays) : View where
  relays := a
  round := roundOf c 0
  deliveries i := (c.threads i).bind deliveryOf

/-- The threads run a round of the worker and deliveries. -/
structure Runs (prim : Primitives) {σ : Type} (c : Pool.Config Surroundings Job σ) : Prop where
  worker : ∀ t, c.threads 0 = some t → t.task = .retry ∧ t.rest = (round t.calls).program
  others : ∀ i t, i ≠ 0 → c.threads i = some t → ∃ uri message,
    t.task = .deliver uri message ∧ t.rest = (delivery t.calls).program prim uri message

section Machine

variable {prim : Primitives} {mediator : Mediator} {σ : Type} {store : RelayStore σ}
  {c c' : Pool.Config Surroundings Job σ} {label : Pool.Label Surroundings Job}

/-- A pool without threads runs neither the worker nor a delivery. -/
theorem runs_empty (s : σ) : Runs prim (.empty s : Pool.Config Surroundings Job σ) where
  worker t ht := by simp [Pool.Config.empty] at ht
  others i t _ ht := by simp [Pool.Config.empty] at ht

/-- Changing the worker's thread. -/
theorem Runs.setWorker (h : Runs prim c) {t : Option (Pool.Thread Surroundings Job)} (s : σ)
    (ht : ∀ u, t = some u → u.task = .retry ∧ u.rest = (round u.calls).program) :
    Runs prim (c.set 0 t s) where
  worker u hu := ht u (by simpa using hu)
  others j u hj hu := by
    rw [Pool.Config.set_threads_of_ne c hj] at hu
    exact h.others j u hj hu

/-- Changing the thread of a delivery. -/
theorem Runs.setOther (h : Runs prim c) {i : ℕ} (hi : i ≠ 0)
    {t : Option (Pool.Thread Surroundings Job)} (s : σ)
    (ht : ∀ u, t = some u → ∃ uri message,
      u.task = .deliver uri message ∧ u.rest = (delivery u.calls).program prim uri message) :
    Runs prim (c.set i t s) where
  worker u hu := by
    rw [Pool.Config.set_threads_of_ne c hi.symm] at hu
    exact h.worker u hu
  others j u hj hu := by
    by_cases hji : j = i
    · subst hji
      exact ht u (by simpa using hu)
    · rw [Pool.Config.set_threads_of_ne c hji] at hu
      exact h.others j u hj hu

/-- Setting the worker's thread changes its round in the view and no delivery. -/
theorem view_setWorker (h : Runs prim c) {t : Option (Pool.Thread Surroundings Job)} (s : σ)
    (a a' : Relays) (ht : ∀ u, t = some u → u.task = .retry) :
    view (c.set 0 t s) a' =
      { view c a with relays := a', round := (t.map fun t => round t.calls).getD .ended } := by
  have hdeliveries : (fun j => ((c.set 0 t s).threads j).bind deliveryOf) =
      fun j => (c.threads j).bind deliveryOf := by
    funext j
    by_cases hj : j = 0
    · -- neither the worker's thread nor the new one is a delivery
      subst hj
      have hnone : ∀ t : Option (Pool.Thread Surroundings Job),
          (∀ u, t = some u → u.task = .retry) → t.bind deliveryOf = none := by
        intro t ht
        cases t with
        | none => rfl
        | some u => simp [deliveryOf, ht u rfl]
      rw [Pool.Config.set_threads_self, hnone t ht,
        hnone (c.threads 0) fun u hu => (h.worker u hu).1]
    · rw [Pool.Config.set_threads_of_ne c hj]
  simp [view, hdeliveries, roundOf_set]

/-- Setting another thread changes its delivery in the view and not the worker's round. -/
theorem view_setOther {i : ℕ} (hi : i ≠ 0) (t : Option (Pool.Thread Surroundings Job)) (s : σ)
    (a a' : Relays) : view (c.set i t s) a' = { view c a with
      relays := a'
      deliveries := Function.update (view c a).deliveries i (t.bind deliveryOf) } := by
  have hdeliveries : (fun j => ((c.set i t s).threads j).bind deliveryOf) =
      Function.update (fun j => (c.threads j).bind deliveryOf) i (t.bind deliveryOf) := by
    funext j
    by_cases hj : j = i
    · subst hj
      simp
    · rw [Pool.Config.set_threads_of_ne c hj, Function.update_of_ne hj]
  simp [view, hdeliveries, roundOf_set, Function.update_of_ne hi.symm]

/-- What the pool does is what happens. -/
theorem Runs.step (h : Runs prim c) {a : Relays} (hhas : store.Has c.shared a)
    (hstep : Pool.Step (relaying prim mediator store) c label c') :
    Runs prim c' ∧ ∃ a', store.Has c'.shared a' ∧ Moves prim (view c a) label (view c' a') := by
  -- thread 0 is the worker, and every other thread a delivery
  cases hstep with
  | @start i job s hnone hstart =>
    obtain ⟨rfl, hjob⟩ := hstart
    by_cases hi : i = 0
    · subst hi
      obtain rfl : job = .retry := by simpa using hjob
      have hheld : (view c a).round.held = [] := by
        simp only [view, roundOf, hnone]
        rfl
      refine ⟨h.setWorker _ fun u hu => ?_, a, hhas, ?_⟩
      · obtain rfl := Option.some_inj.mp hu
        exact ⟨rfl, rfl⟩
      · rw [view_setWorker h _ a a fun u hu => by rw [← Option.some_inj.mp hu]]
        exact .startRound hheld
    -- another thread starts with a delivery
    · rw [if_neg hi] at hjob
      obtain ⟨uri, message, rfl⟩ := hjob
      refine ⟨h.setOther hi _ fun u hu => ?_, a, hhas, ?_⟩
      · obtain rfl := Option.some_inj.mp hu
        exact ⟨uri, message, rfl, rfl⟩
      · rw [view_setOther hi _ _ a a]
        exact .start (by simp [view, hnone])
  | @call i job calls op rest answer s hthread hanswer =>
    obtain ⟨a', hhas', hchanges⟩ := changes_of_onStore hhas (around_onStore hanswer)
    by_cases hi : i = 0
    · subst hi
      obtain ⟨rfl, hrest⟩ := h.worker _ hthread
      obtain ⟨hcall, hnext⟩ := Round.program_next hrest.symm answer
      have hround : (view c a).round = round calls := by simp [view, roundOf, hthread]
      refine ⟨h.setWorker _ fun u hu => ?_, a', hhas', ?_⟩
      · obtain rfl := Option.some_inj.mp hu
        exact ⟨rfl, by rw [round_append]; exact hnext⟩
      · rw [view_setWorker h _ a a' fun u hu => by rw [← Option.some_inj.mp hu], Option.map_some,
          Option.getD_some, round_append, ← hround]
        exact .round (round_moves (by rw [hround]; exact hcall) hchanges)
    · obtain ⟨uri, message, hjob, hrest⟩ := h.others i _ hi hthread
      obtain rfl : job = .deliver uri message := hjob
      obtain ⟨hcall, hnext⟩ := Delivery.program_next hrest.symm answer
      have hdelivery : (view c a).deliveries i = some (uri, message, delivery calls) := by
        simp [view, hthread, deliveryOf]
      refine ⟨h.setOther hi _ fun u hu => ?_, a', hhas', ?_⟩
      · obtain rfl := Option.some_inj.mp hu
        exact ⟨uri, message, rfl, by rw [delivery_append]; exact hnext⟩
      · rw [view_setOther hi _ _ a a', Option.bind_some, deliveryOf, delivery_append]
        exact .delivery hdelivery (delivery_moves hcall hchanges)
  | @stop i job calls hthread =>
    by_cases hi : i = 0
    · subst hi
      obtain ⟨hjob, hrest⟩ := h.worker _ hthread
      obtain rfl : job = .retry := hjob
      -- a worker that ends holds nothing any more
      have hheld : (view c a).round.held = [] := by
        simp only [view, roundOf, hthread, Option.map_some, Option.getD_some]
        exact Round.held_of_done hrest.symm
      refine ⟨h.setWorker (t := none) _ ?_, a, hhas, ?_⟩
      · exact fun u hu => absurd hu.symm (Option.some_ne_none u)
      rw [view_setWorker (t := none) h _ a a fun u hu => absurd hu.symm (Option.some_ne_none u)]
      exact .stopRound hheld
    · obtain ⟨uri, message, hjob, hrest⟩ := h.others i _ hi hthread
      obtain rfl : job = .deliver uri message := hjob
      have hover : (view c a).deliveries i = some (uri, message, .ended) := by
        have hdelivery : delivery calls = .ended := by
          cases hd : delivery calls with
          | ended => rfl
          | _ =>
            rw [hd] at hrest
            cases hrest
        simp [view, hthread, deliveryOf, hdelivery]
      refine ⟨h.setOther (t := none) hi _ ?_, a, hhas, ?_⟩
      · exact fun u hu => absurd hu.symm (Option.some_ne_none u)
      rw [view_setOther hi _ _ a a]
      exact .stop hover
  | idle hidle => exact hidle.elim

end Machine

end Dispatch
