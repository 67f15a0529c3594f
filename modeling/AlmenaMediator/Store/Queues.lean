import AlmenaMediator.Store.Mailbox
import AlmenaMediator.Store.Redis.ByteCounter

/-!
# Queues of a store

What a sender and a wallet rely on, whichever store there is: a queued message is in the queue of
its mediation, a summary counts what is there, and a message stays until a call acknowledges it,
removes its mediation or finds it expired. Both stores are such a `QueueStore`.
-/

namespace Store

/-- The method first drops what expired of the queue of `m`, at the time and with the TTL given. -/
def Op.Sweeps (m : String) (now ttlSecs : ℕ) : Op → Prop
  | enqueue m' _ _ now' limits => m' = m ∧ now' = now ∧ limits.ttlSecs = ttlSecs
  | summary m' _ now' ttl | peek m' _ _ now' ttl => m' = m ∧ now' = now ∧ ttl = ttlSecs
  | _ => False

/-- A store with queues. -/
structure QueueStore (σ : Type) where
  /-- The store's methods. -/
  env : Program.Environment StoreCall σ
  /-- The ids in the queue of a mediation. -/
  queue : σ → String → List String
  /-- A call acknowledges a message of a mediation, removes the mediation, or comes when the message
  expired. -/
  Ends : σ → Call StoreCall → σ → String → String → Prop
  added : ∀ {s t m recipient message now limits id},
    env s ⟨.enqueue m recipient message now limits, .ok (some id)⟩ t → id ∈ queue t m
  counted : ∀ {s t m now ttlSecs summary},
    env s ⟨.summary m none now ttlSecs, .ok summary⟩ t → summary.count = (queue t m).length
  stays : ∀ {s t c m id}, env s c t → id ∈ queue s m → id ∈ queue t m ∨ Ends s c t m id

/-! ## The in-process store -/

namespace Inner

variable {inner inner' : Inner} {m : String}

/-- The ids in the queue of a mediation. -/
def queuedIn (inner : Inner) (m : String) : List String := (inner.queues m).map Queued.id

/-- A call discards a message, or sweeps the queue when the message is older than the TTL. -/
def Ends (inner : Inner) (c : Call StoreCall) (m id : String) : Prop :=
  discards m id c ∨ ∃ now ttlSecs, c.op.Sweeps m now ttlSecs ∧
    ∃ q ∈ inner.queues m, q.id = id ∧ q.received < now - ttlSecs

/-- The messages of a queue are counted one by one. -/
theorem foldl_count (queue : List Queued) (summary : QueueSummary) :
    (queue.foldl count summary).count = summary.count + queue.length := by
  induction queue generalizing summary with
  | nil => rfl
  | cons q rest ih =>
    rw [List.foldl_cons, ih, List.length_cons]
    change summary.count + 1 + rest.length = _
    omega

/-- Expiring the queue of a mediation drops its expired entries. -/
theorem expire_self (inner : Inner) (m : String) (now ttlSecs : ℕ) :
    (inner.expire m now ttlSecs).queues m = unexpired now ttlSecs (inner.queues m) :=
  Function.update_self ..

/-- Expiring the queue of one mediation leaves the other queues as they were. -/
theorem expire_of_ne (inner : Inner) {m m' : String} (hm : m ≠ m') (now ttlSecs : ℕ) :
    (inner.expire m' now ttlSecs).queues m = inner.queues m :=
  Function.update_of_ne hm ..

/-- What a sweep drops is older than the TTL. -/
theorem mem_expire {q : Queued} (hq : q ∈ inner.queues m) (m' : String) (now ttlSecs : ℕ) :
    q ∈ (inner.expire m' now ttlSecs).queues m ∨ m' = m ∧ q.received < now - ttlSecs := by
  by_cases hm : m = m'
  · subst hm
    rcases Nat.lt_or_ge q.received (now - ttlSecs) with hold | hyoung
    · exact .inr ⟨rfl, hold⟩
    · left
      rw [expire_self, unexpired, List.mem_filter]
      exact ⟨hq, by simpa using hyoung⟩
  · left
    rwa [expire_of_ne inner hm]

/-- A message stays in its queue until a call ends it. -/
theorem stays {c : Call StoreCall} {q : Queued} (hstep : MemoryStep inner c inner')
    (hq : q ∈ inner.queues m) : q ∈ inner'.queues m ∨ inner.Ends c m q.id := by
  by_cases htouches : c.op.Touches .queues
  -- a call that does not touch the queues keeps them
  swap
  · obtain ⟨hqueues, -⟩ := hstep.sameArea htouches
    exact .inl (hqueues ▸ hq)
  obtain ⟨order, -, hstep⟩ := hstep
  obtain ⟨op, reply⟩ := c
  obtain ⟨rfl, rfl⟩ := hstep.eq
  -- a sweep of `m'` at `now` is all that happens to what is in the queue
  have hswept : ∀ m' now ttlSecs, op.Sweeps m' now ttlSecs →
      (∀ p ∈ (inner.expire m' now ttlSecs).queues m, p ∈ (memory order op inner).2.queues m) →
      q ∈ (memory order op inner).2.queues m ∨
        inner.Ends ⟨op, (memory order op inner).1⟩ m q.id := by
    intro m' now ttlSecs hsweeps hkept
    rcases mem_expire hq m' now ttlSecs with hq' | ⟨rfl, hold⟩
    · exact .inl (hkept q hq')
    · exact .inr (.inr ⟨now, ttlSecs, hsweeps, q, hq, rfl, hold⟩)
  cases op with
  | enqueue m' recipient message now limits =>
    refine hswept m' now limits.ttlSecs ⟨rfl, rfl, rfl⟩ fun p hp => ?_
    obtain ⟨-, ⟨-, hqueues⟩ | ⟨-, hqueues⟩⟩ := inner.enqueue_cases m' recipient message now limits
    · exact hqueues ▸ hp
    · change p ∈ (inner.enqueue m' recipient message now limits).2.queues m
      rw [hqueues]
      by_cases hm : m = m'
      · subst hm
        rw [expire_self] at hp
        rw [Function.update_self]
        exact List.mem_append_left _ hp
      · rw [expire_of_ne inner hm] at hp
        rwa [Function.update_of_ne hm]
  | summary m' recipient now ttlSecs => exact hswept m' now ttlSecs ⟨rfl, rfl, rfl⟩ fun _ hp => hp
  | peek m' recipient limit now ttlSecs =>
    exact hswept m' now ttlSecs ⟨rfl, rfl, rfl⟩ fun _ hp => hp
  | remove m' ids =>
    by_cases hm : m = m'
    · subst hm
      by_cases hid : q.id ∈ ids
      · exact .inr (.inl (by simpa [discards, memory] using hid))
      · left
        change q ∈ Function.update inner.queues m _ m
        rw [Function.update_self, List.mem_filter]
        exact ⟨hq, by simpa using hid⟩
    · left
      change q ∈ Function.update inner.queues m' _ m
      rwa [Function.update_of_ne hm]
  | removeIdleMediations cutoff limit =>
    by_cases hm : m ∈ (inner.removeIdleMediations order cutoff limit).1
    · exact .inr (.inl (by simpa [discards, memory] using hm))
    · left
      change q ∈ ((inner.removeIdleMediations order cutoff limit).1.foldl
        removeMediation inner).queues m
      rw [foldl_removeMediation_queues, if_neg hm]
      exact hq
  | _ => exact htouches.elim

/-- `MemoryStore`. -/
def queueStore : QueueStore Inner where
  env := MemoryStep
  queue := queuedIn
  Ends inner c _ m id := inner.Ends c m id
  added {inner inner' m recipient message now limits id} hstep := by
    obtain ⟨order, -, hstep⟩ := hstep
    obtain ⟨hreply, rfl⟩ := hstep.eq
    obtain ⟨-, ⟨hrefused, -⟩ | ⟨hadded, hqueues⟩⟩ :=
      inner.enqueue_cases m recipient message now limits
    · have hnone : some id = none := (Except.ok.inj hreply).trans hrefused
      exact nomatch hnone
    · obtain rfl := Option.some_inj.mp ((Except.ok.inj hreply).trans hadded)
      change _ ∈ ((inner.enqueue m recipient message now limits).2.queues m).map Queued.id
      rw [hqueues, Function.update_self]
      simp
  counted {inner inner' m now ttlSecs summary} hstep := by
    obtain ⟨order, -, hstep⟩ := hstep
    obtain ⟨hreply, rfl⟩ := hstep.eq
    obtain rfl := Except.ok.inj hreply
    have hall : matching none ((inner.expire m now ttlSecs).queues m) =
        (inner.expire m now ttlSecs).queues m := by simp [matching]
    change (List.foldl count _ _).count = (((inner.expire m now ttlSecs).queues
      m).map Queued.id).length
    rw [hall, foldl_count, List.length_map]
    exact Nat.zero_add _
  stays {inner inner' c m id} hstep hid := by
    obtain ⟨q, hq, rfl⟩ := List.mem_map.mp hid
    rcases stays hstep hq with hstay | hends
    · exact .inl (List.mem_map_of_mem hstay)
    · exact .inr hends

end Inner

end Store
