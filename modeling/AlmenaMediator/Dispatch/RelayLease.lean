import AlmenaMediator.Dispatch.Loopback
import AlmenaMediator.Dispatch.RelayWorker

/-!
# One sender per relay

Workers on one store, their steps in any order, while time passes: no POST takes longer than its
timeout. A worker leases a batch at once but tries its relays one after another, so that leases can
end before their relays are tried. As long as no worker takes relays while another is late with its
batch, no two try the same relay (`one_sender_in_time`); five slow relays are enough for two workers
to try the last of them at once (`two_senders`).
-/

namespace Dispatch

open Didcomm (Primitives)
open Store (PendingRelay Relays RelayStore RelayStep)

/-- How long a POST may take, in seconds (`transport.rs`). -/
def postTimeout : ℕ := 15

/-- A store and the time. -/
structure Clocked (σ : Type) where
  store : σ
  /-- Epoch seconds. -/
  clock : ℕ
  /-- When each thread made its last step. -/
  since : ℕ → ℕ

/-- The state after a step of a thread. -/
def Clocked.step {σ : Type} (s : Clocked σ) (i : ℕ) (store : σ) : Clocked σ where
  store := store
  clock := s.clock
  since := Function.update s.since i s.clock

/-- What a worker's call may be answered, and the store after it. -/
def WorkerAnswers {σ : Type} (store : RelayStore σ) (s : Clocked σ) (c : Call Surroundings)
    (inner : σ) : Prop :=
  match c with
  | ⟨.store op, answer⟩ => store.env s.store ⟨op, answer⟩ inner
  | ⟨.now, now⟩ => now = s.clock ∧ inner = s.store
  | _ => inner = s.store

/-- A worker changes the store by its methods only. -/
theorem WorkerAnswers.onStore {σ : Type} {store : RelayStore σ} {s : Clocked σ}
    {c : Call Surroundings} {inner : σ} (h : WorkerAnswers store s c inner) :
    onStore store.env s.store c inner := by
  obtain ⟨op, answer⟩ := c
  cases op with
  | now => exact h.2
  | _ => exact h

/-- A thread is waiting for the answer to a POST. -/
def Posting (t : Pool.Thread Surroundings Job) : Prop :=
  ∃ uri message rest, t.rest = .call (.post uri message) rest

/-- Any number of workers on one store. Time passes, but not beyond the timeout of a POST. -/
def workers (prim : Primitives) (mediator : Mediator) {σ : Type} (store : RelayStore σ) :
    Pool.System Surroundings Job (Clocked σ) where
  program := Job.program prim mediator
  start i job s t := job = .retry ∧ t = s.step i s.store
  env i s c t := ∃ inner, WorkerAnswers store s c inner ∧ t = s.step i inner
  idle c s := ∃ clock, c.shared.clock ≤ clock ∧ s = { c.shared with clock := clock } ∧
    ∀ i t, c.threads i = some t → Posting t → clock ≤ c.shared.since i + postTimeout

/-- No two workers are trying the same relay. -/
def OneSender {σ : Type} (c : Pool.Config Surroundings Job σ) : Prop :=
  ∀ i j, i ≠ j → ∀ relay relay', (roundOf c i).relay? = some relay →
    (roundOf c j).relay? = some relay' → relay.id ≠ relay'.id

/-- A worker takes relays only while no other holds relays whose leases have ended. -/
def InTime {σ : Type} (c : Pool.Config Surroundings Job σ) (label : Pool.Label Surroundings Job) :
    Prop :=
  ∀ i job before now lease limit answer,
    label = .call i job before ⟨.store (.dueRelays now lease limit), answer⟩ →
    ∀ j, j ≠ i → (roundOf c j).held ≠ [] → now < (roundOf c j).leaseEnd

section Workers

variable {prim : Primitives} {mediator : Mediator} {σ : Type} {store : RelayStore σ}
  {c c' : Pool.Config Surroundings Job (Clocked σ)} {label : Pool.Label Surroundings Job}

/-- What the rounds hold is leased to them. -/
def HoldLeases (store : RelayStore σ) (rounds : ℕ → Round) (s : σ) : Prop :=
  ∃ a, store.Has s a ∧
    Agenda.Leased PendingRelay.id a (fun i => (rounds i).held) fun i => (rounds i).leaseEnd

/-- Setting one round sets what it holds and the end of its lease. -/
theorem leased_update {rounds : ℕ → Round} {a : Relays} {i : ℕ} {r : Round}
    (h : Agenda.Leased PendingRelay.id a (Function.update (fun j => (rounds j).held) i r.held)
      (Function.update (fun j => (rounds j).leaseEnd) i r.leaseEnd)) :
    Agenda.Leased PendingRelay.id a (fun j => (Function.update rounds i r j).held)
      fun j => (Function.update rounds i r j).leaseEnd := by
  have hheld : (fun j => (Function.update rounds i r j).held) =
      Function.update (fun j => (rounds j).held) i r.held := by
    funext j
    exact Function.apply_update (fun _ r => Round.held r) rounds i r j
  have hends : (fun j => (Function.update rounds i r j).leaseEnd) =
      Function.update (fun j => (rounds j).leaseEnd) i r.leaseEnd := by
    funext j
    exact Function.apply_update (fun _ r => Round.leaseEnd r) rounds i r j
  rw [hheld, hends]
  exact h

/-- A round that lets go of relays, or keeps what it holds. -/
theorem HoldLeases.letGo {rounds : ℕ → Round} {t : σ} {a a' : Relays} {i : ℕ} {r : Round}
    (h : Agenda.Leased PendingRelay.id a (fun i => (rounds i).held) fun i => (rounds i).leaseEnd)
    (hhas : store.Has t a') (hleft : r.held.Sublist (rounds i).held)
    (hend : r.held = [] ∨ r.leaseEnd = (rounds i).leaseEnd)
    (hsame : ∀ k, a' k ≠ a k → ∃ x ∈ (rounds i).held, x.id = k ∧ k ∉ r.held.map PendingRelay.id) :
    HoldLeases store (Function.update rounds i r) t :=
  ⟨a', hhas, leased_update (h.letGo hleft hend hsame)⟩

/-- A call of a worker keeps what the rounds hold leased to them. -/
theorem HoldLeases.call {rounds : ℕ → Round} {s t : σ} {a a' : Relays} {i : ℕ} {r : Round}
    {k : Call Surroundings} (hhas : store.Has s a)
    (h : Agenda.Leased PendingRelay.id a (fun i => (rounds i).held) fun i => (rounds i).leaseEnd)
    (hmoves : RoundMoves a (rounds i) k a' r) (hhas' : store.Has t a')
    (hintime : ∀ now lease limit answer, k = ⟨.store (.dueRelays now lease limit), answer⟩ →
      ∀ j, j ≠ i → (rounds j).held ≠ [] → now < (rounds j).leaseEnd) :
    HoldLeases store (Function.update rounds i r) t := by
  generalize hround : rounds i = before at hmoves
  have hheld : (rounds i).held = before.held := by rw [hround]
  -- the other relays of a batch have other ids, so that they stay leased when one is settled
  have hsettled : ∀ {now : ℕ} {relay : PendingRelay} {relays : List PendingRelay}
      {posted : Except String Unit}, before = .tried now relay posted relays →
      (∀ k, k ≠ relay.id → a' k = a k) →
      HoldLeases store (Function.update rounds i (.trying now relays)) t := by
    rintro now relay relays posted rfl hsame
    have hnodup : relay.id ∉ relays.map PendingRelay.id := by
      have := h.nodup i
      rw [hheld, Round.held, List.map_cons, List.nodup_cons] at this
      exact this.1
    refine .letGo h hhas' ?_ (.inr ?_) fun k hk => ?_
    · rw [hheld]
      exact List.sublist_cons_self relay relays
    · rw [hround]
      rfl
    · obtain rfl : k = relay.id := by
        by_contra hne
        exact hk (hsame k hne)
      rw [hheld]
      exact ⟨relay, List.mem_cons_self, rfl, hnodup⟩
  cases hmoves with
  | now => exact .letGo h hhas' (List.nil_sublist _) (.inl rfl) fun k hk => absurd rfl hk
  | lease htake =>
    exact ⟨a', hhas', leased_update
      (h.take (store.keyed hhas) htake hheld (hintime _ _ _ _ rfl))⟩
  | leaseFailed => exact .letGo h hhas' (List.nil_sublist _) (.inl rfl) fun k hk => absurd rfl hk
  | post =>
    refine .letGo h hhas' ?_ (.inr ?_) fun k hk => absurd rfl hk
    · rw [hheld]
      exact List.Sublist.refl _
    · rw [hround]
      rfl
  | finish => exact hsettled rfl fun k hk => Function.update_of_ne hk _ _
  | again _ hput =>
    refine hsettled rfl fun k hk => ?_
    cases hput with
    | put => exact Function.update_of_ne hk _ _
    | full => rfl

/-- The threads run rounds of workers, and what these hold is leased to them. -/
structure Working (store : RelayStore σ) (c : Pool.Config Surroundings Job (Clocked σ)) : Prop where
  rounds : ∀ i t, c.threads i = some t → t.task = .retry ∧ t.rest = (round t.calls).program
  leases : HoldLeases store (roundOf c) c.shared.store

/-- A pool without threads works on any store that holds an agenda. -/
theorem working_empty {s : Clocked σ} {a : Relays} (h : store.Has s.store a) :
    Working store (.empty s) where
  rounds i t ht := by simp [Pool.Config.empty] at ht
  leases := ⟨a, h, {
    entry := fun _ _ hx => absurd hx List.not_mem_nil
    nodup := fun _ => List.nodup_nil
    apart := fun _ _ _ _ hx => absurd hx List.not_mem_nil }⟩

/-- A round that holds nothing may come or go. -/
theorem HoldLeases.renew {rounds : ℕ → Round} {s : σ} (h : HoldLeases store rounds s) (i : ℕ)
    {r : Round} (hr : r.held = []) : HoldLeases store (Function.update rounds i r) s := by
  obtain ⟨a, hhas, hleased⟩ := h
  refine .letGo hleased hhas ?_ (.inl hr) fun k hk => absurd rfl hk
  rw [hr]
  exact List.nil_sublist _

/-- Every step in time keeps that so. -/
theorem Working.step (h : Working store c)
    (hstep : Pool.Step (workers prim mediator store) c label c')
    (hintime : InTime c label) : Working store c' := by
  -- a worker's step changes its own round, and the leases as that round's moves do
  cases hstep with
  | @start i job s _ hstart =>
    obtain ⟨rfl, rfl⟩ := hstart
    refine ⟨fun j t ht => ?_, ?_⟩
    · by_cases hj : j = i
      · subst hj
        obtain rfl : _ = t := by simpa using ht
        exact ⟨rfl, rfl⟩
      · rw [Pool.Config.set_threads_of_ne c hj] at ht
        exact h.rounds j t ht
    · rw [roundOf_set]
      exact h.leases.renew i rfl
  | @call i job calls op rest answer s hthread henv =>
    obtain ⟨inner, hanswer, rfl⟩ := henv
    obtain ⟨hjob, hrest⟩ := h.rounds i _ hthread
    obtain ⟨hcall, hnext⟩ := Round.program_next hrest.symm answer
    have hround : roundOf c i = round calls := by simp [roundOf, hthread]
    refine ⟨fun j t ht => ?_, ?_⟩
    · by_cases hj : j = i
      · subst hj
        obtain rfl : _ = t := by simpa using ht
        exact ⟨hjob, by rw [round_append]; exact hnext⟩
      · rw [Pool.Config.set_threads_of_ne c hj] at ht
        exact h.rounds j t ht
    · rw [roundOf_set, Option.map_some, Option.getD_some, round_append, ← hround]
      obtain ⟨a, hhas, hleased⟩ := h.leases
      obtain ⟨a', hhas', hchanges⟩ := changes_of_onStore hhas hanswer.onStore
      refine .call hhas hleased (round_moves (by rw [hround]; exact hcall) hchanges) hhas' ?_
      rintro now lease limit answer hk
      exact hintime i job calls now lease limit answer (by rw [hk])
  | @stop i job calls hthread =>
    refine ⟨fun j t ht => ?_, ?_⟩
    · by_cases hj : j = i
      · subst hj
        simp at ht
      · rw [Pool.Config.set_threads_of_ne c hj] at ht
        exact h.rounds j t ht
    · rw [roundOf_set]
      exact h.leases.renew i rfl
  -- time passes
  | idle hidle =>
    obtain ⟨clock, -, rfl, -⟩ := hidle
    exact ⟨h.rounds, h.leases⟩

/-- Leased relays are held by one round. -/
theorem Working.oneSender (h : Working store c) : OneSender c := by
  obtain ⟨a, -, hleased⟩ := h.leases
  intro i j hij relay relay' hrelay hrelay'
  exact hleased.apart i j hij relay (List.mem_of_mem_head? hrelay) relay'
    (List.mem_of_mem_head? hrelay')

/-- In every run whose steps are in time, no two workers are ever trying the same relay. -/
theorem one_sender_in_time {s : Clocked σ} {a : Relays}
    {labels : List (Pool.Label Surroundings Job)} (hstart : store.Has s.store a)
    (hrun : Transition.Run
      (fun c label c' => Pool.Step (workers prim mediator store) c label c' ∧ InTime c label)
      (.empty s) labels c) : OneSender c := by
  have hworking : Working store c := by
    refine hrun.invariant (working_empty hstart) fun c label c' hc hstep => ?_
    exact hc.step hstep.1 hstep.2
  exact hworking.oneSender

end Workers

/-! ### Five slow relays -/

namespace LeaseExample

section

variable {σ : Type} {c : Pool.Config Surroundings Job (Clocked σ)} {i : ℕ} {r : Round}

/-- The round of a worker is at this point. -/
def Stands (c : Pool.Config Surroundings Job (Clocked σ)) (i : ℕ) (r : Round) : Prop :=
  ∃ calls, c.threads i = some ⟨.retry, calls, r.program⟩ ∧ round calls = r

/-- The round of a thread is the one where it stands. -/
theorem Stands.roundOf (h : Stands c i r) : roundOf c i = r := by
  obtain ⟨calls, hthread, hround⟩ := h
  simp [Dispatch.roundOf, hthread, hround]

variable (prim : Primitives) (mediator : Mediator) (store : RelayStore σ) {inner : σ}

/-- A worker whose thread is free can start a round. -/
theorem starts (hthread : c.threads i = none) :
    ∃ c', Pool.Step (workers prim mediator store) c (.start i .retry) c' ∧ Stands c' i .begun ∧
      c'.shared = c.shared.step i c.shared.store ∧ ∀ j, j ≠ i → c'.threads j = c.threads j :=
  ⟨_, .start hthread ⟨rfl, rfl⟩, ⟨[], Pool.Config.set_threads_self .., rfl⟩, rfl,
    fun _ hj => Pool.Config.set_threads_of_ne c hj _ _⟩

/-- A worker can make the next call of its round, whatever the store and the network answer. -/
theorem calls (h : Stands c i r) {op : Effect} {answer : Surroundings.Reply op}
    (hcall : r.call? = some op) (hanswer : WorkerAnswers store c.shared ⟨op, answer⟩ inner) :
    ∃ before c', Pool.Step (workers prim mediator store) c (.call i .retry before ⟨op, answer⟩) c' ∧
      Stands c' i (r.next ⟨op, answer⟩) ∧ c'.shared = c.shared.step i inner ∧
      ∀ j, j ≠ i → c'.threads j = c.threads j := by
  obtain ⟨calls, hthread, hround⟩ := h
  exact ⟨_, _, round_step hthread hcall ⟨inner, hanswer, rfl⟩,
    ⟨calls ++ [⟨op, answer⟩], Pool.Config.set_threads_self .., by rw [round_append, hround]⟩, rfl,
    fun _ hj => Pool.Config.set_threads_of_ne c hj _ _⟩

/-- No worker but `i` is late at this time. -/
def NoneLate (c : Pool.Config Surroundings Job (Clocked σ)) (i : ℕ) : Prop :=
  ∀ j, j ≠ i → (roundOf c j).held ≠ [] → c.shared.clock < (roundOf c j).leaseEnd

/-- A worker starts a round and leases relays, in time if no other is late. -/
theorem leases {leased : List PendingRelay} (hthread : c.threads i = none)
    (hdue : store.env c.shared.store
      ⟨.dueRelays c.shared.clock leaseSecs batch, .ok leased⟩ inner) :
    ∃ labels c', Transition.Run
        (fun d label d' => Pool.Step (workers prim mediator store) d label d' ∧
          (NoneLate c i → InTime d label)) c labels c' ∧
      Stands c' i (.trying c.shared.clock leased) ∧ c'.shared.store = inner ∧
      c'.shared.clock = c.shared.clock ∧ c'.shared.since i = c.shared.clock ∧
      ∀ j, j ≠ i → c'.threads j = c.threads j := by
  -- the worker starts, reads the clock and leases
  obtain ⟨c₁, hstart, hstands₁, hshared₁, hothers₁⟩ := starts prim mediator store hthread
  have hnow : WorkerAnswers store c₁.shared ⟨.now, c.shared.clock⟩ c.shared.store := by
    rw [hshared₁]
    exact ⟨rfl, rfl⟩
  obtain ⟨before₁, c₂, hread, hstands₂, hshared₂, hothers₂⟩ :=
    calls prim mediator store hstands₁ rfl hnow
  have hdue' : WorkerAnswers store c₂.shared
      ⟨.store (.dueRelays c.shared.clock leaseSecs batch), .ok leased⟩ inner := by
    rw [hshared₂]
    exact hdue
  obtain ⟨before₂, c₃, hlease, hstands₃, hshared₃, hothers₃⟩ :=
    calls prim mediator store hstands₂ rfl hdue'
  have hclock₂ : c₂.shared.clock = c.shared.clock := by
    rw [hshared₂, hshared₁]
    rfl
  refine ⟨_, c₃, .cons ⟨hstart, fun _ => ?_⟩ (.cons ⟨hread, fun _ => ?_⟩
    (.single ⟨hlease, fun hlate => ?_⟩)), hstands₃, ?_, ?_, ?_, fun j hj => ?_⟩
  · exact fun _ _ _ _ _ _ _ hlabel => nomatch hlabel
  · exact fun _ _ _ _ _ _ _ hlabel => nomatch hlabel
  -- the lease is the only call that can come too late
  · rintro _ _ _ _ _ _ _ hlabel j hj
    cases hlabel
    have hround : roundOf c₂ j = roundOf c j := by
      rw [roundOf, hothers₂ j hj, hothers₁ j hj, roundOf]
    rw [hround]
    exact hlate j hj
  · rw [hshared₃]
    rfl
  · rw [hshared₃, hclock₂.symm]
    rfl
  · rw [hshared₃, hshared₂, hshared₁]
    exact Function.update_self ..
  · rw [hothers₃ j hj, hothers₂ j hj, hothers₁ j hj]

/-- A worker on its own, posting a relay. -/
structure Alone (c : Pool.Config Surroundings Job (Clocked σ)) (now : ℕ)
    (relays : List PendingRelay) : Prop where
  stands : Stands c 0 (.trying now relays)
  only : ∀ j, j ≠ 0 → c.threads j = none
  since : c.shared.since 0 = c.shared.clock

/-- It delivers the relay as slowly as it can. -/
theorem delivers {now : ℕ} {relay : PendingRelay} {relays : List PendingRelay}
    (h : Alone c now (relay :: relays))
    (hfinish : store.env c.shared.store ⟨.finishRelay relay.id, .ok ()⟩ inner) :
    ∃ labels c', Transition.Run (Pool.Step (workers prim mediator store)) c labels c' ∧
      Alone c' now relays ∧ c'.shared.store = inner ∧
      c'.shared.clock = c.shared.clock + postTimeout := by
  -- the POST takes as long as it may
  let c₀ : Pool.Config Surroundings Job (Clocked σ) :=
    { c with shared := { c.shared with clock := c.shared.clock + postTimeout } }
  have hwait : Pool.Step (workers prim mediator store) c .idle c₀ := by
    refine .idle ⟨_, Nat.le_add_right _ _, rfl, fun i t ht _ => ?_⟩
    by_cases hi : i = 0
    · rw [hi, h.since]
    · rw [h.only i hi] at ht
      exact nomatch ht
  have hstands₀ : Stands c₀ 0 (.trying now (relay :: relays)) := h.stands
  have hposted : WorkerAnswers store c₀.shared ⟨.post relay.uri relay.message, .ok ()⟩
      c.shared.store := rfl
  obtain ⟨before₁, c₁, hpost, hstands₁, hshared₁, hothers₁⟩ :=
    calls prim mediator store hstands₀ rfl hposted
  have hfinish' : WorkerAnswers store c₁.shared ⟨.store (.finishRelay relay.id), .ok ()⟩ inner := by
    rw [hshared₁]
    exact hfinish
  obtain ⟨before₂, c₂, hsettle, hstands₂, hshared₂, hothers₂⟩ :=
    calls prim mediator store hstands₁ rfl hfinish'
  refine ⟨_, c₂, .cons hwait (.cons hpost (.single hsettle)), ⟨hstands₂,
    fun j hj => ?_, ?_⟩, ?_, ?_⟩
  · rw [hothers₂ j hj, hothers₁ j hj]
    exact h.only j hj
  · rw [hshared₂]
    simp [Clocked.step]
  · rw [hshared₂]
    rfl
  · rw [hshared₂, hshared₁]
    rfl

end

def prim : Primitives := Didcomm.Loopback.packages
  (fun _ => ⟨"", Didcomm.Message.new "" 0 "" .null⟩) Loopback.self ⟨"", "", "", 0⟩

/-- Federation is on. -/
def mediator : Mediator := Loopback.mediator
  { maxMessageBytes := 1000, queue := ⟨60, 10, 1000⟩, maxRecipientDids := 2,
    pushMinIntervalSecs := 0,
    recipientProof := false, mediationTtlSecs := 0 } true none

def relay (id : String) : PendingRelay := ⟨id, "https://o/didcomm", id, 0⟩

/-- The in-process store with these relays, due at these times. -/
def waiting (relays : List (ℕ × String)) : Store.Inner :=
  { Store.Inner.empty with relays := relays.map fun e => (e.1, relay e.2) }

/-- Five relays are due. -/
def start : Clocked Store.Inner :=
  ⟨waiting [(0, "1"), (0, "2"), (0, "3"), (0, "4"), (0, "5")], 0, fun _ => 0⟩

/-- The store of the example begins with the relays that wait in it. -/
theorem start_has : ∃ a, Store.Inner.relayStore.Has start.store a :=
  ⟨_, Store.Listed.of_sorted (by decide)⟩

/-- The first worker of the example leases five relays at once. -/
theorem leased : Store.MemoryStep start.store
    ⟨.dueRelays 0 leaseSecs batch, .ok [relay "1", relay "2", relay "3", relay "4", relay "5"]⟩
    (waiting [(60, "1"), (60, "2"), (60, "3"), (60, "4"), (60, "5")]) := ⟨[], .refl _, rfl⟩

/-- A worker is at the last of the relays it leased. -/
theorem slow :
    ∃ labels c, Transition.Run (Pool.Step (workers prim mediator Store.Inner.relayStore))
        (.empty start) labels c ∧
      Alone c 0 [relay "5"] ∧ c.shared.store = waiting [(60, "5")] ∧ c.shared.clock = 60 := by
  obtain ⟨labels₀, c₀, hrun₀, hstands, hstore₀, hclock₀, hsince, honly⟩ :=
    leases prim mediator Store.Inner.relayStore (i := 0) (c := .empty start) rfl leased
  replace hrun₀ := hrun₀.mono fun _ _ _ hstep => hstep.1
  -- five relays are leased, and four of them take fifteen seconds each
  have halone₀ : Alone c₀ 0 [relay "1", relay "2", relay "3", relay "4", relay "5"] :=
    ⟨hstands, honly, hsince.trans hclock₀.symm⟩
  have hfinish : ∀ {s t : Store.Inner} {id : String}, s.finishRelay id = t →
      Store.MemoryStep s ⟨.finishRelay id, .ok ()⟩ t := fun h =>
        ⟨_, .refl _, congrArg (Prod.mk _) h⟩
  obtain ⟨labels₁, c₁, hrun₁, halone₁, hstore₁, hclock₁⟩ := delivers prim mediator
    Store.Inner.relayStore halone₀ (by rw [hstore₀]; exact hfinish rfl)
  obtain ⟨labels₂, c₂, hrun₂, halone₂, hstore₂, hclock₂⟩ := delivers prim mediator
    Store.Inner.relayStore halone₁ (by rw [hstore₁]; exact hfinish rfl)
  obtain ⟨labels₃, c₃, hrun₃, halone₃, hstore₃, hclock₃⟩ := delivers prim mediator
    Store.Inner.relayStore halone₂ (by rw [hstore₂]; exact hfinish rfl)
  obtain ⟨labels₄, c₄, hrun₄, halone₄, hstore₄, hclock₄⟩ := delivers prim mediator
    Store.Inner.relayStore halone₃ (by rw [hstore₃]; exact hfinish rfl)
  refine ⟨_, c₄, hrun₀.append (hrun₁.append (hrun₂.append (hrun₃.append hrun₄))), halone₄, ?_, ?_⟩
  · rw [hstore₄]
    rfl
  · rw [hclock₄, hclock₃, hclock₂, hclock₁, hclock₀]
    rfl

end LeaseExample

/-- Five relays whose POSTs take as long as they may: when the first worker is at the last of them,
its leases end, and a second worker tries it as well. -/
theorem two_senders :
    ¬ ∀ (prim : Primitives) (mediator : Mediator) (s : Clocked Store.Inner) (a : Relays)
      (labels : List (Pool.Label Surroundings Job))
      (c : Pool.Config Surroundings Job (Clocked Store.Inner)),
      Store.Inner.relayStore.Has s.store a →
      Transition.Run (Pool.Step (workers prim mediator Store.Inner.relayStore))
      (.empty s) labels c → OneSender c := by
  intro h
  obtain ⟨labels, c, hrun, halone, hstore, hclock⟩ := LeaseExample.slow
  have hdue : Store.MemoryStep c.shared.store
      ⟨.dueRelays c.shared.clock leaseSecs batch, .ok [LeaseExample.relay "5"]⟩
      (LeaseExample.waiting [(120, "5")]) := by
    rw [hstore, hclock]
    exact ⟨[], .refl _, rfl⟩
  obtain ⟨labels', c', hrun', hstands, -, -, -, hothers⟩ := LeaseExample.leases LeaseExample.prim
    LeaseExample.mediator Store.Inner.relayStore (halone.only 1 Nat.one_ne_zero) hdue
  replace hrun' := hrun'.mono fun _ _ _ hstep => hstep.1
  obtain ⟨a, hhas⟩ := LeaseExample.start_has
  have hone := h _ _ _ _ _ _ hhas (hrun.append hrun')
  -- both rounds are at the fifth relay
  have hfirst : roundOf c' 0 = .trying 0 [LeaseExample.relay "5"] := by
    rw [roundOf, hothers 0 Nat.zero_ne_one]
    exact halone.stands.roundOf
  have hsecond := hstands.roundOf
  refine hone 0 1 Nat.zero_ne_one (LeaseExample.relay "5") (LeaseExample.relay "5") ?_ ?_ rfl
  · rw [hfirst]
    rfl
  · rw [hsecond]
    rfl

namespace LeaseExample

/-- One relay is due, and another one later. -/
def soon : Clocked Store.Inner := ⟨waiting [(0, "1"), (10, "2")], 0, fun _ => 0⟩

/-- While a worker posts the first relay, time may pass until the second one is due. -/
theorem passes {c : Pool.Config Surroundings Job (Clocked Store.Inner)} {clock : ℕ}
    (hclock : c.shared.clock ≤ clock) (honly : ∀ j, j ≠ 0 → c.threads j = none)
    (hlimit : clock ≤ c.shared.since 0 + postTimeout) :
    Pool.Step (workers prim mediator Store.Inner.relayStore) c .idle
      { c with shared := { c.shared with clock := clock } } := by
  refine .idle ⟨clock, hclock, rfl, fun i t ht _ => ?_⟩
  by_cases hi : i = 0
  · exact hi ▸ hlimit
  · rw [honly i hi] at ht
    cases ht

end LeaseExample

open LeaseExample in
/-- Ten seconds after a worker leased a relay, while it is still posting that, a second one leases
another. -/
theorem one_sender_in_time_leased : ∃ c : Pool.Config Surroundings Job (Clocked Store.Inner),
    (roundOf c 0).relay? = some (LeaseExample.relay "1") ∧
      (roundOf c 1).relay? = some (LeaseExample.relay "2") ∧ OneSender c := by
  obtain ⟨a, hhas⟩ : ∃ a, Store.Inner.relayStore.Has soon.store a :=
    ⟨_, Store.Listed.of_sorted (by decide)⟩
  have hfirst : Store.MemoryStep soon.store
      ⟨.dueRelays 0 leaseSecs batch, .ok [LeaseExample.relay "1"]⟩
      (waiting [(60, "1"), (10, "2")]) := ⟨[], .refl _, rfl⟩
  obtain ⟨labels₁, c₁, hrun₁, hstands₁, hstore₁, hclock₁, hsince₁, honly₁⟩ :=
    leases prim mediator Store.Inner.relayStore (i := 0) (c := .empty soon) rfl hfirst
  have hnone₁ : NoneLate (.empty soon) 0 := fun _ _ hheld => absurd rfl hheld
  -- the first worker is posting for ten seconds
  let c₂ : Pool.Config Surroundings Job (Clocked Store.Inner) :=
    { c₁ with shared := { c₁.shared with clock := 10 } }
  have hidle : Pool.Step (workers prim mediator Store.Inner.relayStore) c₁ .idle c₂ :=
    passes (by rw [hclock₁]; exact Nat.zero_le 10) honly₁ (by rw [hsince₁]; decide)
  have hstands₂ : Stands c₂ 0 (.trying 0 [LeaseExample.relay "1"]) := hstands₁
  have hsecond : Store.MemoryStep c₂.shared.store
      ⟨.dueRelays 10 leaseSecs batch, .ok [LeaseExample.relay "2"]⟩
      (waiting [(60, "1"), (70, "2")]) := by
    rw [show c₂.shared.store = waiting [(60, "1"), (10, "2")] from hstore₁]
    exact ⟨[], .refl _, rfl⟩
  obtain ⟨labels₃, c₃, hrun₃, hstands₃, -, -, -, hothers₃⟩ :=
    leases prim mediator Store.Inner.relayStore (i := 1) (c := c₂)
      (honly₁ 1 Nat.one_ne_zero) hsecond
  have hnone₃ : NoneLate c₂ 1 := by
    intro j hj hheld
    by_cases hj₀ : j = 0
    · subst hj₀
      rw [hstands₂.roundOf]
      exact (by decide : 10 < 0 + leaseSecs)
    · have hthread : c₂.threads j = none := honly₁ j hj₀
      rw [roundOf, hthread] at hheld
      exact absurd rfl hheld
  have hrun : Transition.Run (fun c label c' =>
      Pool.Step (workers prim mediator Store.Inner.relayStore) c label c' ∧ InTime c label)
      (.empty soon) _ c₃ :=
    (hrun₁.mono fun _ _ _ hstep => ⟨hstep.1, hstep.2 hnone₁⟩).append
      (.cons ⟨hidle, by rintro _ _ _ _ _ _ _ ⟨⟩⟩
        (hrun₃.mono fun _ _ _ hstep => ⟨hstep.1, hstep.2 hnone₃⟩))
  refine ⟨c₃, ?_, ?_, one_sender_in_time hhas hrun⟩
  · rw [show roundOf c₃ 0 = roundOf c₂ 0 by rw [roundOf, hothers₃ 0 Nat.zero_ne_one, roundOf],
      hstands₂.roundOf]
    rfl
  · rw [hstands₃.roundOf]
    rfl

end Dispatch
