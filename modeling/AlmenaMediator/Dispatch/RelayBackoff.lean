import AlmenaMediator.Dispatch.RelayKept

/-!
# Backoff between the attempts of a relay

Deliveries and one worker on one store, while time passes second by second: no POST takes longer
than its timeout, and the worker starts a round in every second it has none under way. A round reads
the clock once, and every relay it tries and has to put off is put off from that time on, however
long the POSTs took. As long as no POST of the worker fails in a later second than the one its round
read, every retry waits as long as `backoff` says after the attempt before it failed
(`backoff_kept`); one slow POST is enough for the next retry to come too early (`backoff_cut`).
-/

namespace Dispatch

open Didcomm (Primitives)
open Store (PendingRelay Relays RelayStore RelayStep)

/-- A store, the time, and what is needed to tell how long a relay has waited. -/
structure Timed (σ : Type) where
  store : σ
  /-- Epoch seconds. -/
  clock : ℕ
  /-- When each thread made its last step. -/
  since : ℕ → ℕ
  /-- When the last POST of each thread ended. -/
  posted : ℕ → ℕ
  /-- When the attempt after which a relay was stored had failed, by relay id. -/
  failed : String → ℕ
  /-- The same for the copies that the worker leased. -/
  leased : String → ℕ

namespace Timed

variable {σ : Type}

/-- The state after a step of a thread. -/
def step (s : Timed σ) (i : ℕ) : Timed σ := { s with since := Function.update s.since i s.clock }

/-- The state after a call of a thread, with this store. -/
def after (s : Timed σ) (i : ℕ) (c : Call Surroundings) (store : σ) : Timed σ :=
  let s := { s.step i with store := store }
  match c with
  | ⟨.post _ _, _⟩ => { s with posted := Function.update s.posted i s.clock }
  | ⟨.store (.scheduleRelay relay _ _), .ok true⟩ =>
    { s with failed := Function.update s.failed relay.id (s.posted i) }
  | ⟨.store (.dueRelays _ _ _), .ok _⟩ => { s with leased := s.failed }
  | _ => s

end Timed

/-- The clock is read as it stands. -/
def AtClock {σ : Type} (s : Timed σ) : Call Surroundings → Prop
  | ⟨.now, now⟩ => now = s.clock
  | _ => True

/-- Deliveries and one worker, which is thread 0, on one store. Each second passes once the worker
has done something in it, and no POST takes longer than its timeout. -/
def backingOff (prim : Primitives) (mediator : Mediator) {σ : Type} (store : RelayStore σ) :
    Pool.System Surroundings Job (Timed σ) where
  program := Job.program prim mediator
  start i job s t := t = s.step i ∧
    if i = 0 then job = .retry else ∃ uri message, job = .deliver uri message
  env i s c t := AtClock s c ∧ ∃ inner, around store.env s.store c inner ∧ t = s.after i c inner
  idle c t := t = { c.shared with clock := c.shared.clock + 1 } ∧
    (∀ i thread, c.threads i = some thread → Posting thread →
      c.shared.clock < c.shared.since i + postTimeout) ∧
    (c.threads 0 = none → c.shared.since 0 = c.shared.clock)

/-- The worker is trying no relay before the time to wait since the attempt before it failed is
over. -/
def BacksOff {σ : Type} (c : Pool.Config Surroundings Job (Timed σ)) : Prop :=
  ∀ now relay relays wait, roundOf c 0 = .trying now (relay :: relays) →
    backoff[relay.retries]? = some wait → c.shared.leased relay.id + wait ≤ c.shared.since 0

/-- Where a POST of the worker fails, not being the last attempt, it is still the second that its
round read. -/
def Prompt {σ : Type} (c : Pool.Config Surroundings Job (Timed σ))
    (label : Pool.Label Surroundings Job) : Prop :=
  ∀ before uri message error now relay relays,
    label = .call 0 .retry before ⟨.post uri message, .error error⟩ →
    roundOf c 0 = .trying now (relay :: relays) → relay.retries < 3 → c.shared.clock = now

/-! ## What is kept -/

section Kept

variable {σ : Type} {prim : Primitives} {mediator : Mediator} {store : RelayStore σ}

/-- A relay that is tried at `at_` after an attempt that failed at `failed` has waited long
enough. -/
def Waited (failed : ℕ) (relay : PendingRelay) (at_ : ℕ) : Prop :=
  ∀ wait, backoff[relay.retries]? = some wait → failed + wait ≤ at_

/-- The worker's round is on time: what it leased has waited, and an attempt of its that failed
ended in the second the round read. -/
def Round.OnTime (s : Timed σ) : Round → Prop
  | .read now => now ≤ s.clock
  | .trying now relays => now ≤ s.since 0 ∧ ∀ relay ∈ relays, Waited (s.leased relay.id) relay now
  | .tried now relay posted relays => now ≤ s.since 0 ∧
      (∀ relay ∈ relays, Waited (s.leased relay.id) relay now) ∧
      ∀ error, posted = .error error → relay.retries < 3 → s.posted 0 = now
  | _ => True

/-- A delivery whose POST failed reads the clock after that. -/
def Delivery.OnTime (s : Timed σ) (i : ℕ) : Delivery → Prop
  | .failed => s.posted i ≤ s.clock
  | .read now => s.posted i ≤ now
  | _ => True

/-- Everything is on time. -/
structure OnTime (v : View) (s : Timed σ) : Prop where
  since : ∀ i, s.since i ≤ s.clock
  entries : ∀ id due relay, v.relays id = some (due, relay) → Waited (s.failed id) relay due
  round : v.round.OnTime s
  deliveries : ∀ i uri message d, v.deliveries i = some (uri, message, d) → d.OnTime s i

namespace Timed

variable {s : Timed σ} {i j : ℕ} {k : Call Surroundings} {inner : σ}

/-- After a step the store is the one that the step left. -/
@[simp] theorem after_store : (s.after i k inner).store = inner := by
  unfold after
  split <;> rfl

/-- A step of a thread takes no time; time passes in steps of its own. -/
@[simp] theorem after_clock : (s.after i k inner).clock = s.clock := by
  unfold after
  split <;> rfl

/-- After a step the thread has stood where it is since the time of the step. -/
@[simp] theorem after_since : (s.after i k inner).since = Function.update s.since i s.clock := by
  unfold after
  split <;> rfl

/-- A step of one thread leaves the times of the other threads' POSTs. -/
theorem after_posted_of_ne (h : j ≠ i) : (s.after i k inner).posted j = s.posted j := by
  unfold after
  split <;> first | rfl | exact Function.update_of_ne h _ _

/-- A step moves the time since which each thread stands onward, and not past the clock. -/
theorem since_step_le (h : ∀ i, s.since i ≤ s.clock) (i j : ℕ) :
    s.since j ≤ Function.update s.since i s.clock j ∧
      Function.update s.since i s.clock j ≤ s.clock := by
  by_cases hj : j = i
  · rw [hj, Function.update_self]
    exact ⟨h i, le_rfl⟩
  · rw [Function.update_of_ne hj]
    exact ⟨le_rfl, h j⟩

end Timed

/-- A delivery stays on time as time goes on, while it makes no POST itself. -/
theorem Delivery.OnTime.frame {s t : Timed σ} {i : ℕ} {d : Delivery} (h : d.OnTime s i)
    (hposted : t.posted i = s.posted i) (hclock : s.clock ≤ t.clock) : d.OnTime t i := by
  cases d with
  | failed =>
    have hle : s.posted i ≤ s.clock := h
    exact (hposted.trans_le hle).trans hclock
  | read now => exact hposted.trans_le h
  | _ => trivial

/-- A round stays on time as time goes on, while its worker makes no POST and nothing is leased. -/
theorem Round.OnTime.frame {s t : Timed σ} {r : Round} (h : r.OnTime s)
    (hclock : s.clock ≤ t.clock) (hsince : s.since 0 ≤ t.since 0)
    (hposted : t.posted 0 = s.posted 0) (hleased : t.leased = s.leased) : r.OnTime t := by
  cases r with
  | read now => exact Nat.le_trans h hclock
  | trying now relays =>
    refine ⟨h.1.trans hsince, ?_⟩
    rw [hleased]
    exact h.2
  | tried now relay posted relays =>
    refine ⟨h.1.trans hsince, ?_, ?_⟩
    · rw [hleased]
      exact h.2.1
    · rw [hposted]
      exact h.2.2
  | _ => trivial

section Steps

variable {v : View} {s : Timed σ} {k : Call Surroundings} {a : Relays} {inner : σ}

/-- A thread starts. -/
theorem OnTime.step (h : OnTime v s) (i : ℕ) : OnTime v (s.step i) where
  since j := (Timed.since_step_le h.since i j).2
  entries := h.entries
  round := h.round.frame le_rfl (Timed.since_step_le h.since i 0).1 rfl rfl
  deliveries j uri message d hd := (h.deliveries j uri message d hd).frame rfl le_rfl

/-- A second passes. -/
theorem OnTime.tick (h : OnTime v s) : OnTime v { s with clock := s.clock + 1 } where
  since j := (h.since j).trans (Nat.le_succ _)
  entries := h.entries
  round := h.round.frame (Nat.le_succ _) le_rfl rfl rfl
  deliveries j uri message d hd := (h.deliveries j uri message d hd).frame rfl (Nat.le_succ _)

/-- A relay that is put waits from when the attempt before it failed. -/
theorem waited_put {relay : PendingRelay} {due cap : ℕ} {done : Bool} {failed : String → ℕ}
    {at_ : ℕ} (h : ∀ id due relay, v.relays id = some (due, relay) → Waited (failed id) relay due)
    (hput : Agenda.Step PendingRelay.id v.relays (.put relay due cap done) a)
    (hwaited : Waited at_ relay due) (id : String) (due' : ℕ) (relay' : PendingRelay)
    (hentry : a id = some (due', relay')) :
    Waited (if done then Function.update failed relay.id at_ id else failed id) relay' due' := by
  cases hput with
  | put =>
    by_cases hid : id = relay.id
    · subst hid
      rw [Function.update_self] at hentry
      obtain ⟨rfl, rfl⟩ := Prod.mk.inj (Option.some.inj hentry)
      simpa using hwaited
    · rw [Function.update_of_ne hid] at hentry
      simpa [Function.update_of_ne hid] using h id due' relay' hentry
  | full => exact h id due' relay' hentry

/-- A call of a delivery. -/
theorem OnTime.deliveryCall {i : ℕ} {uri message : String} {d d' : Delivery} (h : OnTime v s)
    (hi : i ≠ 0) (hd : v.deliveries i = some (uri, message, d)) (hclock : AtClock s k)
    (hmoves : DeliveryMoves prim uri message v.relays d k a d') :
    OnTime { v with
      relays := a
      deliveries := Function.update v.deliveries i (some (uri, message, d')) }
        (s.after i k inner) := by
  have hon := h.deliveries i uri message d hd
  have hsince := Timed.since_step_le h.since i
  -- what the call leaves as it is
  have hother (hon' : d'.OnTime (s.after i k inner) i) (j : ℕ)
    (uri' message' : String) (e : Delivery)
      (he : Function.update v.deliveries i (some (uri, message, d')) j = some (uri', message', e)) :
      e.OnTime (s.after i k inner) j := by
    by_cases hj : j = i
    · subst hj
      rw [Function.update_self] at he
      obtain ⟨-, hrest⟩ := Prod.mk.inj (Option.some.inj he)
      obtain ⟨-, rfl⟩ := Prod.mk.inj hrest
      exact hon'
    · rw [Function.update_of_ne hj] at he
      exact (h.deliveries j uri' message' e he).frame (Timed.after_posted_of_ne hj)
        (by rw [Timed.after_clock])
  have hround (hleased : (s.after i k inner).leased = s.leased) :
    v.round.OnTime (s.after i k inner) :=
    h.round.frame (by rw [Timed.after_clock]) (by rw [Timed.after_since]; exact (hsince 0).1)
      (Timed.after_posted_of_ne hi.symm) hleased
  have hclocks (j : ℕ) : (s.after i k inner).since j ≤ (s.after i k inner).clock := by
    rw [Timed.after_since, Timed.after_clock]
    exact (hsince j).2
  cases hmoves with
  | delivered => exact ⟨hclocks, h.entries, hround rfl, hother trivial⟩
  | failed =>
    refine ⟨hclocks, h.entries, hround rfl, hother ?_⟩
    change Function.update s.posted i s.clock i ≤ s.clock
    rw [Function.update_self]
  | now =>
    refine ⟨hclocks, h.entries, hround rfl, hother ?_⟩
    have hnow : _ = s.clock := hclock
    have hle : s.posted i ≤ s.clock := hon
    exact hle.trans_eq hnow.symm
  | @stores now stored _ hput =>
    -- the first retry is due five seconds after the clock was read
    have hwaited : Waited (s.posted i) (newRelay prim uri message) (now + backoff.headD 0) := by
      rintro wait ⟨⟩
      exact Nat.add_le_add_right hon _
    have hentries := waited_put h.entries hput hwaited
    cases stored with
    | true =>
      refine ⟨hclocks, fun id due relay he => ?_, hround rfl, hother trivial⟩
      exact hentries id due relay he
    | false => exact ⟨hclocks, hentries, hround rfl, hother trivial⟩

/-- A call of the worker. -/
theorem OnTime.roundCall {r : Round} (h : OnTime v s) (hzero : v.deliveries 0 = none)
    (hsane : Sane prim v.relays v.round) (hcall : v.round.call? = some k.op) (hclock : AtClock s k)
    (hmoves : RoundMoves v.relays v.round k a r)
    (hprompt : ∀ uri message error now relay relays, k = ⟨.post uri message, .error error⟩ →
      v.round = .trying now (relay :: relays) → relay.retries < 3 → s.clock = now) :
    OnTime { v with relays := a, round := r } (s.after 0 k inner) := by
  have hsince := Timed.since_step_le h.since 0
  have hon := h.round
  have hclocks (j : ℕ) : (s.after 0 k inner).since j ≤ (s.after 0 k inner).clock := by
    rw [Timed.after_since, Timed.after_clock]
    exact (hsince j).2
  have hzero' : (s.after 0 k inner).since 0 = s.clock := by
    rw [Timed.after_since, Function.update_self]
  have hdeliveries (i : ℕ) (uri message : String) (d : Delivery)
      (hd : v.deliveries i = some (uri, message, d)) : d.OnTime (s.after 0 k inner) i := by
    have hi : i ≠ 0 := by
      rintro rfl
      rw [hzero] at hd
      nomatch hd
    exact (h.deliveries i uri message d hd).frame (Timed.after_posted_of_ne hi)
      (by rw [Timed.after_clock])
  generalize hbefore : v.round = before at hmoves hon hcall hprompt
  cases hmoves with
  | now =>
    have hnow : _ = s.clock := hclock
    exact ⟨hclocks, h.entries, hnow.le, hdeliveries⟩
  | @lease now relays _ htake =>
    -- what is leased was due, and what is put off is put off
    refine ⟨hclocks, fun id due relay he => ?_, ⟨?_, fun relay hrelay => ?_⟩, hdeliveries⟩
    · obtain ⟨due', hdue', hle⟩ := htake.later (Nat.le_add_right _ _) he
      exact fun wait hwait => (h.entries id due' relay hdue' wait hwait).trans hle
    · rw [hzero']
      exact hon
    · obtain ⟨id, due, hle, hentry, -⟩ := htake.taken hrelay
      obtain rfl := hsane.keyed id due relay hentry
      exact fun wait hwait => (h.entries _ due relay hentry wait hwait).trans hle
  | leaseFailed => exact ⟨hclocks, h.entries, trivial, hdeliveries⟩
  | @post now relay relays posted =>
    have hleased := hon.2
    refine ⟨hclocks, h.entries, ⟨?_, fun relay' hrelay' => ?_, ?_⟩, hdeliveries⟩
    · rw [hzero']
      exact hon.1.trans (h.since 0)
    · exact hleased relay' (List.mem_cons_of_mem _ hrelay')
    · rintro error rfl hretries
      change Function.update s.posted 0 s.clock 0 = now
      rw [Function.update_self]
      exact hprompt _ _ _ _ _ _ rfl rfl hretries
  | @finish now relay relays posted _ =>
    refine ⟨hclocks, fun id due relay' he => ?_, ⟨?_, hon.2.1⟩, hdeliveries⟩
    · by_cases hid : id = relay.id
      · subst hid
        dsimp only at he
        rw [Function.update_self] at he
        nomatch he
      · dsimp only at he
        rw [Function.update_of_ne hid] at he
        exact h.entries id due relay' he
    · rw [hzero']
      exact hon.1.trans (h.since 0)
  | @again now due relay relays error stored _ hretries hput =>
    -- the relay is put off from the time the round read, which is when its POST failed
    have hwaited : Waited (s.posted 0) { relay with retries := relay.retries + 1 } due := by
      intro wait hwait
      have hsettle : Round.settleOp now relay (.error error) =
          .scheduleRelay { relay with retries := relay.retries + 1 } due maxPending :=
        Effect.store.inj (Option.some.inj hcall)
      simp only [Round.settleOp, hwait] at hsettle
      obtain ⟨-, hdue, -⟩ := Store.Op.scheduleRelay.inj hsettle
      rw [hon.2.2 error rfl hretries, hdue]
    have hentries := waited_put h.entries hput hwaited
    have htrying : (Round.trying now relays).OnTime
        (s.after 0 ⟨.store (.scheduleRelay { relay with retries := relay.retries + 1 } due
          maxPending), .ok stored⟩ inner) := by
      refine ⟨?_, ?_⟩
      · rw [hzero']
        exact hon.1.trans (h.since 0)
      · cases stored <;> exact hon.2.1
    cases stored with
    | true => exact ⟨hclocks, fun id due' relay' he =>
        hentries id due' relay' he, htrying, hdeliveries⟩
    | false => exact ⟨hclocks, hentries, htrying, hdeliveries⟩

end Steps

/-! ## Runs -/

section Steps

variable {v v' : View} {s t : Timed σ} {label : Pool.Label Surroundings Job}

/-- What a step does to the time. -/
def Passes (s : Timed σ) : Pool.Label Surroundings Job → Timed σ → Prop
  | .start i _, t => t = s.step i
  | .call i _ _ k, t => AtClock s k ∧ ∃ inner, t = s.after i k inner
  | .stop _ _, t => t = s
  | .idle, t => t = { s with clock := s.clock + 1 }

/-- A delivery starts, or ends. -/
theorem OnTime.setDelivery (h : OnTime v s) (i : ℕ) {x : Option (String × String × Delivery)}
    (hx : ∀ uri message d, x = some (uri, message, d) → d.OnTime s i) :
    OnTime { v with deliveries := Function.update v.deliveries i x } s := by
  refine ⟨h.since, h.entries, h.round, fun j uri message d hd => ?_⟩
  by_cases hj : j = i
  · subst hj
    exact hx uri message d (by simpa using hd)
  · exact h.deliveries j uri message d (by simpa [hj] using hd)

/-- What happens keeps everything on time. -/
theorem OnTime.moves (h : OnTime v s) (hzero : v.deliveries 0 = none)
    (hsane : Sane prim v.relays v.round) (hmoves : Moves prim v label v')
    (hpasses : Passes s label t)
    (hcall : ∀ before k, label = .call 0 .retry before k → v.round.call? = some k.op)
    (hprompt : ∀ before uri message error now relay relays,
      label = .call 0 .retry before ⟨.post uri message, .error error⟩ →
      v.round = .trying now (relay :: relays) → relay.retries < 3 → s.clock = now) :
      OnTime v' t := by
  -- the worker's round and a delivery each move their own part, and time stands still
  cases hmoves with
  | startRound =>
    obtain rfl := hpasses
    exact ⟨(h.step 0).since, h.entries, trivial, (h.step 0).deliveries⟩
  | stopRound =>
    obtain rfl := hpasses
    exact ⟨h.since, h.entries, trivial, h.deliveries⟩
  | round hmoves =>
    obtain ⟨hclock, inner, rfl⟩ := hpasses
    exact h.roundCall hzero hsane (hcall _ _ rfl) hclock hmoves fun uri
      message error now relay relays
      hk => hprompt _ uri message error now relay relays (by rw [hk])
  | start =>
    obtain rfl := hpasses
    refine (h.step _).setDelivery _ ?_
    rintro _ _ _ ⟨⟩
    trivial
  | stop =>
    obtain rfl := hpasses
    exact h.setDelivery _ nofun
  | delivery hd hmoves =>
    obtain ⟨hclock, inner, rfl⟩ := hpasses
    refine h.deliveryCall ?_ hd hclock hmoves
    rintro rfl
    rw [hzero] at hd
    nomatch hd

end Steps

variable {c c' : Pool.Config Surroundings Job (Timed σ)} {label : Pool.Label Surroundings Job}

/-- The pool without the time. -/
def untimed (c : Pool.Config Surroundings Job (Timed σ)) : Pool.Config Surroundings Job σ :=
  ⟨c.threads, c.shared.store⟩

/-- The threads run a round of the worker and deliveries, and are on time. -/
def Keeping (prim : Primitives) (store : RelayStore σ)
    (c : Pool.Config Surroundings Job (Timed σ)) : Prop :=
  Runs prim (untimed c) ∧ ∃ a, store.Has c.shared.store a ∧ Sane prim a (roundOf c 0) ∧
    OnTime (view (untimed c) a) c.shared

/-- The worker's thread is no delivery. -/
theorem view_deliveries_zero {c : Pool.Config Surroundings Job σ} (h : Runs prim c) (a : Relays) :
    (view c a).deliveries 0 = none := by
  rcases hthread : c.threads 0 with _ | t
  · simp [view, hthread]
  · simp [view, hthread, deliveryOf, (h.worker t hthread).1]

/-- A step but the passing of a second, without the time. -/
theorem untimed_step (hstep : Pool.Step (backingOff prim mediator store) c label c')
    (hlabel : label ≠ .idle) : Pool.Step (relaying prim mediator store)
    (untimed c) label (untimed c') := by
  cases hstep with
  | start hnone hstart =>
    obtain ⟨rfl, hjob⟩ := hstart
    exact .start hnone ⟨rfl, hjob⟩
  | call hthread henv =>
    obtain ⟨-, inner, hanswer, rfl⟩ := henv
    simp only [untimed, Pool.Config.set, Timed.after_store]
    exact .call (c := untimed c) hthread hanswer
  | stop hthread => exact .stop hthread
  | idle => exact absurd rfl hlabel

/-- Every step keeps everything on time, if the worker's POSTs fail at once. -/
theorem Keeping.step (h : Keeping prim store c)
    (hstep : Pool.Step (backingOff prim mediator store) c label c') (hprompt : Prompt c label) :
    Keeping prim store c' := by
  obtain ⟨hruns, a, hhas, hsane, hon⟩ := h
  -- time may pass in an idle step only, and the round it is kept for is unchanged then
  by_cases hidle : label = .idle
  · subst hidle
    cases hstep with
    | idle hidle =>
      obtain ⟨rfl, -, -⟩ := hidle
      exact ⟨hruns, a, hhas, hsane, hon.tick⟩
  obtain ⟨hruns', a', hhas', hmoves⟩ := hruns.step hhas (untimed_step hstep hidle)
  refine ⟨hruns', a', hhas', hmoves.sane hsane, ?_⟩
  refine hon.moves (view_deliveries_zero hruns a) hsane hmoves ?_ ?_ hprompt
  · cases hstep with
    | start _ hstart => exact hstart.1
    | call _ henv =>
      obtain ⟨hclock, inner, -, ht⟩ := henv
      exact ⟨hclock, inner, ht⟩
    | stop => exact rfl
    | idle => exact absurd rfl hidle
  · rintro before k rfl
    cases hstep with
    | @call _ _ _ op rest answer _ hthread _ =>
      obtain ⟨-, hrest⟩ := hruns.worker _ hthread
      -- the op a worker is at is the one its round calls next
      have hround : (view (untimed c) a).round = round before := by
        simp [view, roundOf, untimed, hthread]
      rw [hround]
      exact (Round.program_next hrest.symm answer).1

/-- A state without threads keeps the waits of the relays in its store. -/
theorem keeping_empty {s : Timed σ} (hhas : store.Has s.store Agenda.empty)
    (hsince : ∀ i, s.since i ≤ s.clock) : Keeping prim store (.empty s) := by
  refine ⟨runs_empty s.store, Agenda.empty, hhas, ⟨store.keyed hhas, nofun, ?_, List.nodup_nil⟩,
    hsince, nofun, trivial, nofun⟩
  exact fun _ hmem => absurd hmem List.not_mem_nil

/-- In a run from a store without relays in which no POST of the worker fails in a later second than
its round read, every retry waits as long as `backoff` says since the attempt before it failed. -/
theorem backoff_kept {s : Timed σ} {labels : List (Pool.Label Surroundings Job)}
    (hhas : store.Has s.store Agenda.empty) (hsince : ∀ i, s.since i ≤ s.clock)
    (hrun : Transition.Run
      (fun c label c' => Pool.Step (backingOff prim mediator store) c label c' ∧ Prompt c label)
      (.empty s) labels c) : BacksOff c := by
  have hkeeping : Keeping prim store c := by
    refine hrun.invariant (keeping_empty hhas hsince) fun c label c' hc hstep => ?_
    exact hc.step hstep.1 hstep.2
  obtain ⟨-, a, -, -, hon⟩ := hkeeping
  intro now relay relays wait hround hwait
  have hround' : (roundOf c 0).OnTime c.shared := hon.round
  rw [hround] at hround'
  exact (hround'.2 relay List.mem_cons_self wait hwait).trans hround'.1

end Kept

/-! ### A slow POST -/

namespace BackoffExample

open Store (Inner)

/-- The pool over the in-process store. -/
abbrev pool : Pool.System Surroundings Job (Timed Inner) :=
  backingOff LeaseExample.prim LeaseExample.mediator Inner.relayStore

/-- A step whose POST, if it is one of the worker that fails, fails at once. -/
def PromptStep (c : Pool.Config Surroundings Job (Timed Inner))
    (label : Pool.Label Surroundings Job) (c' : Pool.Config Surroundings Job (Timed Inner)) :
    Prop :=
  Pool.Step pool c label c' ∧ Prompt c label

/-- Only the worker is under way. -/
def working (s : Timed Inner) (calls : List (Call Surroundings)) (rest : Task Unit) :
    Pool.Config Surroundings Job (Timed Inner) :=
  ⟨Function.update (fun _ => none) 0 (some ⟨.retry, calls, rest⟩), s⟩

/-- A step that is no POST of the worker is prompt. -/
theorem prompt_of_ne {c : Pool.Config Surroundings Job (Timed Inner)}
    {label : Pool.Label Surroundings Job}
    (h : ∀ before uri message answer, label ≠ .call 0 .retry before ⟨.post uri message, answer⟩) :
    Prompt c label := fun _ _ _ _ _ _ _ heq => absurd heq (h _ _ _ _)

/-- A call of the worker. -/
theorem calls (s : Timed Inner) (before : List (Call Surroundings)) (r : Round) (op : Effect)
    (answer : Surroundings.Reply op) {inner : Inner} (hcall : r.call? = some op)
    (hclock : AtClock s ⟨op, answer⟩)
    (hanswer : around Store.MemoryStep s.store ⟨op, answer⟩ inner) :
    Pool.Step pool (working s before r.program) (.call 0 .retry before ⟨op, answer⟩)
      (working (s.after 0 ⟨op, answer⟩ inner) (before ++ [⟨op, answer⟩])
        (r.next ⟨op, answer⟩).program) := by
  have hthread : (working s before r.program).threads 0 = some ⟨.retry, before, r.program⟩ :=
    rfl
  have hstep : Pool.Step pool _ _ _ := round_step hthread hcall ⟨hclock, inner, hanswer, rfl⟩
  simpa only [working, Pool.Config.set, Function.update_idem] using hstep

/-- A round begins, and leases what is due. -/
theorem begins {s : Timed Inner} {relays : List PendingRelay} {inner : Inner}
    (hclock : s.clock < maxClock)
    (hdue : Store.MemoryStep s.store ⟨.dueRelays s.clock leaseSecs batch, .ok relays⟩ inner) :
    ∃ labels before t, Transition.Run PromptStep (.empty s) labels
        (working t before (Round.trying s.clock relays).program) ∧
          round before = .trying s.clock relays ∧ t.store = inner ∧ t.clock = s.clock ∧
            t.since 0 = s.clock ∧ t.failed = s.failed ∧ t.leased = s.failed := by
  have hstart : Pool.Step pool (.empty s) (.start 0 .retry)
    (working (s.step 0) [] Round.begun.program) :=
    .start rfl ⟨rfl, rfl⟩
  have hnow := calls (s.step 0) [] .begun .now s.clock rfl rfl ⟨hclock, rfl⟩
  have hlease := calls ((s.step 0).after 0 ⟨.now, s.clock⟩ s.store)
    [⟨.now, s.clock⟩] (.read s.clock)
    (.store (.dueRelays s.clock leaseSecs batch)) (.ok relays) rfl trivial hdue
  have hprompt : ∀ {c label}, (∀ before uri message answer,
      label ≠ .call 0 .retry before ⟨.post uri message, answer⟩) → Prompt c label := prompt_of_ne
  refine ⟨_, _, _, .cons ⟨hstart, hprompt fun _ _ _ _ h => nomatch h⟩
    (.cons ⟨hnow, hprompt fun _ _ _ _ h => nomatch h⟩
      (.single ⟨hlease, hprompt fun _ _ _ _ h => nomatch h⟩)), rfl, rfl, rfl, ?_, rfl, rfl⟩
  rw [Timed.after_since, Function.update_self]
  rfl

/-- The in-process store leases nothing while nothing is due. -/
theorem dueRelays_none {inner : Inner} {now : ℕ} (h : ∀ e ∈ inner.relays, now < e.1) :
    Store.MemoryStep inner ⟨.dueRelays now leaseSecs batch, .ok []⟩ inner := by
  have hnone : inner.relays.filter (fun e => e.1 ≤ now) = [] :=
    List.filter_eq_nil_iff.mpr fun e he => by simpa using h e he
  refine ⟨inner.seen, .refl _, ?_⟩
  change (_, { inner with relays := _ }) = (_, inner)
  simp [hnone]

/-- A round with nothing left ends. -/
theorem ends {s : Timed Inner} {before : List (Call Surroundings)} {now : ℕ} :
    PromptStep (working s before (Round.trying now []).program) (.stop 0 .retry) (.empty s) := by
  have hstep : Pool.Step pool (working s before (.done ())) (.stop 0 .retry) _ :=
    .stop rfl
  refine ⟨?_, prompt_of_ne fun _ _ _ _ h => nomatch h⟩
  have hempty : Function.update (fun _ => none) 0 none =
      (fun _ => none : ℕ → Option (Pool.Thread Surroundings Job)) := Function.update_eq_self 0 _
  simp only [working, Pool.Config.set, Function.update_idem, hempty] at hstep
  exact hstep

/-- In each second in which nothing is due the worker looks for something. -/
theorem ticks (n : ℕ) {s : Timed Inner} (hclock : s.clock + n ≤ maxClock)
    (hdue : ∀ e ∈ s.store.relays, s.clock + n ≤ e.1) :
    ∃ labels t, Transition.Run PromptStep (.empty s) labels (.empty t) ∧ t.store = s.store ∧
      t.clock = s.clock + n ∧ t.failed = s.failed := by
  -- in each second a worker looks, finds nothing due, and time passes
  induction n with
  | zero => exact ⟨[], s, .nil, rfl, rfl, rfl⟩
  | succ n ih =>
    obtain ⟨labels₁, s₁, hrun₁, hstore₁, hclock₁, hfailed₁⟩ := ih (by omega) fun e he => by
      have := hdue e he
      omega
    have hnone : ∀ e ∈ s₁.store.relays, s₁.clock < e.1 := fun e he => by
      have := hdue e (hstore₁ ▸ he)
      omega
    obtain ⟨labels₂, before, s₂, hrun₂, -, hstore₂, hclock₂, hsince₂, hfailed₂, -⟩ :=
      begins (by omega) (dueRelays_none hnone)
    have hidle : PromptStep (.empty s₂) .idle (.empty { s₂ with clock := s₂.clock + 1 }) := by
      refine ⟨.idle ⟨rfl, (fun _ _ hthread => nomatch hthread), fun _ => ?_⟩,
        prompt_of_ne fun _ _ _ _ h => nomatch h⟩
      exact hsince₂.trans hclock₂.symm
    refine ⟨_, _, hrun₁.append (hrun₂.append (.cons ends (.single hidle))),
      hstore₂.trans hstore₁, ?_, hfailed₂.trans hfailed₁⟩
    change s₂.clock + 1 = _
    omega

/-- A POST of the worker takes up to fifteen seconds. -/
theorem waits (n : ℕ) (s : Timed Inner) (before : List (Call Surroundings)) (now : ℕ)
    (relay : PendingRelay) (relays : List PendingRelay)
    (hlimit : s.clock + n ≤ s.since 0 + postTimeout) : ∃ labels, Transition.Run (Pool.Step pool)
      (working s before (Round.trying now (relay :: relays)).program) labels
      (working { s with clock := s.clock + n } before
        (Round.trying now (relay :: relays)).program) := by
  induction n with
  | zero => exact ⟨[], .nil⟩
  | succ n ih =>
    obtain ⟨labels, hrun⟩ := ih (by omega)
    refine ⟨_, hrun.snoc (.idle ⟨rfl, fun i thread hthread _ => ?_, fun hnone => ?_⟩)⟩
    · by_cases hi : i = 0
      · subst hi
        change s.clock + n < s.since 0 + postTimeout
        omega
      · change Function.update (fun _ => none) 0 _ i = _ at hthread
        rw [Function.update_of_ne hi] at hthread
        nomatch hthread
    · nomatch hnone

/-- The store with this relay alone. -/
def only (due : ℕ) (relay : PendingRelay) : Inner := { Inner.empty with relays := [(due, relay)] }

/-- Nothing is stored yet. -/
def start : Timed Inner where
  store := .empty
  clock := 0
  since _ := 0
  posted _ := 0
  failed _ := 0
  leased _ := 0

/-- The store of the example begins with the empty agenda. -/
theorem start_has : Inner.relayStore.Has start.store Agenda.empty := Store.Listed.empty

/-- What a delivery stores. -/
def fresh : PendingRelay := newRelay LeaseExample.prim "https://o/didcomm" "m"

/-- The calls of a delivery whose POST fails. -/
def refused : List (Call Surroundings) :=
  [⟨.post "https://o/didcomm" "m", .error "refused"⟩, ⟨.now, (0 : ℕ)⟩,
    ⟨.store (.scheduleRelay fresh 5 maxPending), .ok true⟩]

/-- It stores its relay, which is due after five seconds. -/
theorem delivered : ∃ labels s, Transition.Run PromptStep (.empty start) labels (.empty s) ∧
    s.store = only 5 fresh ∧ s.clock = 0 ∧ s.failed "" = 0 := by
  have hexec : ∃ t, Program.Executes (pool.env 1) (pool.program (.deliver "https://o/didcomm" "m"))
      (start.step 1) refused () t ∧ t.store = only 5 fresh ∧ t.clock = 0 ∧ t.failed "" = 0 := by
    have hstore : Store.MemoryStep Inner.empty ⟨.scheduleRelay fresh 5 maxPending, .ok true⟩
        (only 5 fresh) := ⟨[], .refl _, rfl⟩
    exact ⟨_, .call ⟨trivial, Inner.empty, rfl,
      rfl⟩ (.call ⟨rfl, Inner.empty, ⟨by decide, rfl⟩, rfl⟩
      (.call ⟨trivial, _, hstore, rfl⟩ .done)), rfl, rfl, rfl⟩
  obtain ⟨t, hexec, ht⟩ := hexec
  have hrun := Pool.run_of_executes (S := pool) 1 (.deliver "https://o/didcomm" "m")
    ⟨rfl, _, _, rfl⟩ hexec
  refine ⟨_, t, hrun.and_labels fun label hlabel c => prompt_of_ne ?_, ht⟩
  rintro before uri message answer rfl
  simp [Pool.finishing, refused] at hlabel

/-- The worker leases the relay when it is due. -/
theorem retried : ∃ labels before s, Transition.Run PromptStep (.empty start) labels
      (working s before (Round.trying 5 [fresh]).program) ∧ round before = .trying 5 [fresh] ∧
    s.store = only 65 fresh ∧ s.clock = 5 ∧ s.since 0 = 5 ∧ s.failed "" = 0 ∧ s.leased "" = 0 := by
  obtain ⟨labels₁, s₁, hrun₁, hstore₁, hclock₁, hfailed₁⟩ := delivered
  obtain ⟨labels₂, s₂, hrun₂, hstore₂, hclock₂, hfailed₂⟩ := ticks 5 (s := s₁)
    (by rw [hclock₁]; decide) (by rw [hstore₁, hclock₁]; decide)
  have hfive : s₂.clock = 5 := by omega
  have hdue : Store.MemoryStep s₂.store ⟨.dueRelays s₂.clock leaseSecs batch, .ok [fresh]⟩
      (only 65 fresh) := by
    rw [hstore₂, hstore₁, hfive]
    exact ⟨[], .refl _, rfl⟩
  obtain ⟨labels₃, before, s₃, hrun₃, hround, hstore₃, hclock₃, hsince₃, hfailed₃, hleased₃⟩ :=
    begins (by rw [hfive]; decide) hdue
  rw [hfive] at hrun₃ hround
  refine ⟨_, before, s₃, hrun₁.append (hrun₂.append hrun₃), hround, hstore₃, by omega,
    by omega, ?_, ?_⟩
  · rw [hfailed₃, hfailed₂, hfailed₁]
  · rw [hleased₃, hfailed₂, hfailed₁]

/-- The relay after a retry that failed. -/
def again : PendingRelay := { fresh with retries := 1 }

/-- Its POST fails, and the relay is due half a minute after the round read the clock; promptly, if
that was in the same second. -/
theorem fails {s : Timed Inner} {before : List (Call Surroundings)}
    (hround : round before = .trying 5 [fresh]) (hstore : s.store = only 65 fresh) :
    ∃ labels t, Transition.Run
        (fun c label c' => Pool.Step pool c label c' ∧ (s.clock = 5 → Prompt c label))
        (working s before (Round.trying 5 [fresh]).program) labels (.empty t) ∧
      t.store = only 35 again ∧ t.clock = s.clock ∧ t.failed "" = s.clock := by
  let s₁ : Timed Inner := s.after 0 ⟨.post fresh.uri fresh.message, .error "refused"⟩ s.store
  have hpost := calls s before (.trying 5 [fresh]) (.post fresh.uri fresh.message)
    (.error "refused") rfl trivial rfl
  -- the POST fails in the second its round began
  have hprompt : s.clock = 5 →
      Prompt (working s before (Round.trying 5 [fresh]).program)
        (.call 0 .retry before ⟨.post fresh.uri fresh.message, .error "refused"⟩) := by
    intro hclock _ _ _ _ now relay relays _ hthread _
    have htrying : round before = .trying now (relay :: relays) := by
      simpa [roundOf, working] using hthread
    rw [hround] at htrying
    obtain ⟨rfl, -⟩ := Round.trying.inj htrying
    exact hclock
  -- the retry is scheduled from the start of the round, after the first wait
  have hschedule : Store.MemoryStep s₁.store ⟨.scheduleRelay again 35 maxPending, .ok true⟩
      (only 35 again) := by
    change Store.MemoryStep s.store _ _
    rw [hstore]
    exact ⟨[], .refl _, rfl⟩
  have hsettle := calls s₁ (before ++ [⟨.post fresh.uri fresh.message, .error "refused"⟩])
    (.tried 5 fresh (.error "refused") []) (.store (.scheduleRelay again 35 maxPending)) (.ok true)
    rfl trivial hschedule
  refine ⟨_, _, .cons ⟨hpost, hprompt⟩ (.cons ⟨hsettle, fun _ => ?_⟩
    (.single ⟨ends.1, fun _ => ends.2⟩)), rfl, rfl, ?_⟩
  · exact prompt_of_ne fun _ _ _ _ h => by cases h
  · change Function.update s₁.failed "" (Function.update s.posted 0 s.clock 0) "" = s.clock
    rw [Function.update_self, Function.update_self]

/-- The worker leases it again when it is due. -/
theorem leasesAgain {s : Timed Inner} (hstore : s.store = only 35 again) (hclock : s.clock ≤ 35) :
    ∃ labels before t, Transition.Run PromptStep (.empty s) labels
        (working t before (Round.trying 35 [again]).program) ∧
      round before = .trying 35 [again] ∧ t.since 0 = 35 ∧ t.leased "" = s.failed "" := by
  obtain ⟨wait, hwait⟩ := Nat.exists_eq_add_of_le hclock
  obtain ⟨labels₁, s₁, hrun₁, hstore₁, hclock₁, hfailed₁⟩ := ticks wait (s := s)
    (by rw [← hwait]; decide) (by rw [hstore, ← hwait]; decide)
  rw [← hwait] at hclock₁
  have hdue : Store.MemoryStep s₁.store ⟨.dueRelays s₁.clock leaseSecs batch, .ok [again]⟩
      (only 95 again) := by
    rw [hstore₁, hstore, hclock₁]
    exact ⟨[], .refl _, rfl⟩
  obtain ⟨labels₂, before, t, hrun₂, hround, -, -, hsince, -, hleased⟩ :=
    begins (by rw [hclock₁]; decide) hdue
  rw [hclock₁] at hrun₂ hround
  exact ⟨_, before, t, hrun₁.append hrun₂, hround, hsince.trans hclock₁, by rw [hleased, hfailed₁]⟩

/-- A POST of fifteen seconds that fails: the relay is due fifteen seconds later. -/
theorem slow : ∃ labels s, Transition.Run (Pool.Step pool) (.empty start) labels (.empty s) ∧
    s.store = only 35 again ∧ s.clock = 20 ∧ s.failed "" = 20 := by
  obtain ⟨labels₁, before, s₁, hrun₁, hround, hstore₁, hclock₁, hsince₁, -, -⟩ := retried
  obtain ⟨labels₂, hrun₂⟩ := waits 15 s₁ before 5 fresh [] (by rw [hclock₁, hsince₁]; decide)
  obtain ⟨labels₃, s₃, hrun₃, hstore₃, hclock₃, hfailed₃⟩ :=
    fails (s := { s₁ with clock := s₁.clock + 15 }) hround hstore₁
  replace hrun₁ := hrun₁.mono fun _ _ _ hstep => hstep.1
  replace hrun₃ := hrun₃.mono fun _ _ _ hstep => hstep.1
  have hclock : s₁.clock + 15 = 20 := by rw [hclock₁]
  exact ⟨_, s₃, hrun₁.append (hrun₂.append hrun₃), hstore₃, hclock₃.trans hclock,
    hfailed₃.trans hclock⟩

/-- A POST that fails at once: the relay is due half a minute later. -/
theorem prompt : ∃ labels s, Transition.Run PromptStep (.empty start) labels (.empty s) ∧
    s.store = only 35 again ∧ s.clock = 5 ∧ s.failed "" = 5 := by
  obtain ⟨labels₁, before, s₁, hrun₁, hround, hstore₁, hclock₁, -⟩ := retried
  obtain ⟨labels₂, s₂, hrun₂, hstore₂, hclock₂, hfailed₂⟩ := fails hround hstore₁
  have hprompt : Transition.Run PromptStep (working s₁ before (Round.trying 5 [fresh]).program)
      labels₂ (.empty s₂) := hrun₂.mono fun _ _ _ hstep => ⟨hstep.1, hstep.2 hclock₁⟩
  exact ⟨_, s₂, hrun₁.append hprompt, hstore₂, hclock₂.trans hclock₁, hfailed₂.trans hclock₁⟩

end BackoffExample

open BackoffExample in
/-- A POST that takes fifteen seconds: the relay is tried again fifteen seconds after that, not
thirty. -/
theorem backoff_cut :
    ¬ ∀ (prim : Primitives) (mediator : Mediator) (s : Timed Store.Inner)
      (labels : List (Pool.Label Surroundings Job))
      (c : Pool.Config Surroundings Job (Timed Store.Inner)),
        Store.Inner.relayStore.Has s.store Agenda.empty → (∀ i, s.since i ≤ s.clock) →
      Transition.Run (Pool.Step (backingOff prim mediator Store.Inner.relayStore))
      (.empty s) labels c → BacksOff c := by
  intro h
  obtain ⟨labels₁, s₁, hrun₁, hstore₁, hclock₁, hfailed₁⟩ := slow
  obtain ⟨labels₂, before, s₂, hrun₂, hround, hsince₂, hleased₂⟩ :=
    leasesAgain hstore₁ (by rw [hclock₁]; decide)
  -- the POST fails fifteen seconds into the round, and the retry is due too early
  have hrun := hrun₁.append (hrun₂.mono fun _ _ _ hstep => hstep.1)
  have htoo := h _ _ _ _ _ start_has (fun _ => le_rfl) hrun 35 again [] 30
    (by simpa [roundOf, working] using hround) rfl
  change s₂.leased "" + 30 ≤ s₂.since 0 at htoo
  rw [hleased₂, hfailed₁, hsince₂] at htoo
  exact absurd htoo (by decide)

open BackoffExample in
/-- The worker tries a relay five seconds after its delivery failed, and again half a minute after
that failed too. -/
theorem backoff_kept_retried : ∃ c : Pool.Config Surroundings Job (Timed Store.Inner),
    roundOf c 0 = .trying 35 [again] ∧ c.shared.leased "" = 5 ∧ BacksOff c := by
  obtain ⟨labels₁, s₁, hrun₁, hstore₁, hclock₁, hfailed₁⟩ := prompt
  obtain ⟨labels₂, before, s₂, hrun₂, hround, -, hleased₂⟩ :=
    leasesAgain hstore₁ (by rw [hclock₁]; decide)
  refine ⟨_, ?_, hleased₂.trans hfailed₁, backoff_kept start_has (fun _ => le_rfl)
    (hrun₁.append hrun₂)⟩
  simpa [roundOf, working] using hround

end Dispatch
