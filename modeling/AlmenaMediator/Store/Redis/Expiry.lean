import AlmenaMediator.Store.Queues
import AlmenaMediator.Store.Redis.Queues

/-!
# Expiry in both stores

`RedisStore` drops the entries of a stream below an id built from the time and the TTL,
`MemoryStore` the messages received before a second. They drop the same messages and the byte
counter loses the sizes of what is dropped, as long as the TTL is below the time; from there on the
id is `0-0`, below which Redis has no interval, and every queue operation fails.

## Main results

* `Covered.step`: the counter of a queue never falls below the sizes of its entries;
* `expiry_agrees_iff`: the trim succeeds and agrees with the in-process store exactly when the TTL
  is below the time.
-/

namespace Store.Redis

open Script

variable {maxBytes owed : ℕ} {db db' : Db} {m : String}

/-! ## Counters that cover their queues -/

/-- The counter of a queue is at least the sizes of its entries, and expires with it. -/
def Covered (db : Db) (m : String) : Prop := ∃ maxBytes owed, Tally maxBytes owed db m

/-- Whether the counter covers the stream depends on the stream and the counter of the mediation
only. -/
theorem Covered.congr (h : Covered db m) (hqueue : db'.queue m = db.queue m)
    (hbytes : db'.bytes m = db.bytes m) : Covered db' m := by
  obtain ⟨maxBytes, owed, htally⟩ := h
  exact ⟨maxBytes, owed, htally.congr hqueue hbytes⟩

/-- The counters of the empty database cover its streams. -/
theorem Covered.empty (clock : ℕ) (m : String) : Covered (Db.empty clock) m := by
  refine ⟨0, 0, ?_⟩
  constructor <;> simp [Db.empty, Db.entries, Db.counter, sizes]

/-- Other mediations are as they were, as far as `same` says, and `m` is as it should be. -/
def ChangedAt (ok : Db → String → Prop) (same : Db → Db → String → Prop) (m : String)
    (db t : Db) : Prop :=
  (∀ m' ≠ m, same db t m') ∧ ok t m

/-- Where one mediation changed and is as it should be, all are, if they were. -/
theorem ChangedAt.all {ok : Db → String → Prop} {same : Db → Db → String → Prop} {t : Db}
    (h : ChangedAt ok same m db t) (hcongr : ∀ m', ok db m' → same db t m' → ok t m')
    (hdb : ∀ m, ok db m) : ∀ m, ok t m := by
  intro m'
  by_cases hm : m' = m
  · rw [hm]
    exact h.2
  · exact hcongr m' (hdb m') (h.1 m' hm)

/-- Other queues are as they were, and the counter of `m` covers its queue. -/
def CoveredAt : String → Db → Db → Prop :=
  ChangedAt Covered fun db t m' => t.queue m' = db.queue m' ∧ t.bytes m' = db.bytes m'

/-- A change at one mediation after which its counter covers its stream keeps every stream covered.
-/
theorem CoveredAt.covered {t : Db} (h : CoveredAt m db t) (hdb : ∀ m, Covered db m) :
    ∀ m, Covered t m :=
  h.all (fun _ hcovered hsame => hcovered.congr hsame.1 hsame.2) hdb

/-- TRIM leaves a counter that covers the stream, whether it ends or aborts. -/
theorem Tally.trim_covered (h : Tally maxBytes owed db m) (minId : StreamId) :
    (Redis.trim m minId).Meets (fun _ => CoveredAt m db) (CoveredAt m db) db := by
  refine (h.trim minId).mono (fun _ t ht => ?_) fun t ht => ?_
  · obtain ⟨-, -, hothers, htally, -⟩ := ht
    exact ⟨hothers, _, _, htally⟩
  · rw [ht.2]
    exact ⟨fun _ _ => ⟨rfl, rfl⟩, _, _, h⟩

/-- `ENQUEUE` counts what it adds, unless the TTL makes it abort. -/
theorem Tally.enqueue_covered (h : Tally maxBytes owed db m) {minId : StreamId}
    {maxMessages max size ttl : ℕ} (recipient body : String)
    (httl : Fits db m minId maxMessages max size → db.clock + ttl * 1000 ≤ maxExpiry) :
    (enqueue m minId maxMessages max recipient size body ttl).Meets
      (fun _ => CoveredAt m db) (CoveredAt m db) db := by
  simp only [enqueue, meets_bind, meets_read, meets_ite, meets_pure]
  refine (h.trim minId).mono (fun _ t ht => ?_) fun t ht => ?_
  -- TRIM aborted and changed nothing
  swap
  · rw [ht.2]
    exact ⟨fun _ _ => ⟨rfl, rfl⟩, _, _, h⟩
  obtain ⟨-, ⟨hclock, -⟩, hothers, htally, hentries⟩ := ht
  have hcounter := htally.counter
  split
  · exact ⟨hothers, _, _, htally⟩
  split
  · exact ⟨hothers, _, _, htally⟩
  · -- the counter is no less than the entries, so that they fit as well
    have hroom : sizes (t.entries m) + size ≤ max := by omega
    have hfits : Fits db m minId maxMessages max size :=
      ⟨by rw [← hentries]; omega, hentries ▸ hroom⟩
    have hmax : Tally max owed t m := { htally with bound := by omega }
    refine (hmax.addEntry hroom (by rw [hclock]; exact httl hfits)).mono (fun _ u hu => ?_)
      fun _ hfalse => hfalse.elim
    refine ⟨fun m' hm => ?_, _, _, hu.2⟩
    exact ⟨(hu.1 m' hm).1.trans (hothers m' hm).1, (hu.1 m' hm).2.trans (hothers m' hm).2⟩

/-- `REMOVE` takes off the counter no more than what it deletes. -/
theorem Tally.remove_covered (h : Tally maxBytes owed db m) (ids : List String) :
    (remove m ids).Meets (fun _ => CoveredAt m db) (CoveredAt m db) db := by
  simp only [remove, meets_bind, meets_pure]
  have hnone : Tally maxBytes (owed + 0) db m := h
  refine (removeLoop_owes hnone ids 0).mono (fun r t ht => ?_) fun t ht => ?_
  · obtain ⟨hbytes, hqueue, htally⟩ := ht
    refine (uncount_meets htally).mono (fun _ u hu => ?_) fun _ hfalse => hfalse.elim
    obtain ⟨⟨hqueue', -, -⟩, hbytes', htally'⟩ := hu
    exact ⟨fun m' hm => ⟨by rw [hqueue', hqueue m' hm], by
      rw [hbytes' m' hm, hbytes]⟩, _, _, htally'⟩
  · obtain ⟨-, hbytes, hqueue, owed', htally⟩ := ht
    exact ⟨fun m' hm => ⟨hqueue m' hm, by rw [hbytes]⟩, _, _, htally⟩

/-- No `ENQUEUE` of a message that fits has a TTL that Redis rejects. -/
def TtlAccepted (db : Db) : Option (Call ServerCall) → Prop
  | some ⟨.enqueue m minId maxMessages maxBytes _ size _ ttl, _⟩ =>
    Fits db m minId maxMessages maxBytes size → db.clock + ttl * 1000 ≤ maxExpiry
  | _ => True

/-- A step of the server with no such `ENQUEUE`. -/
def AcceptedStep (db : Db) (label : Option (Call ServerCall)) (db' : Db) : Prop :=
  ServerStep db label db' ∧ TtlAccepted db label

/-- Counters go on covering their queues. -/
theorem Covered.step {label : Option (Call ServerCall)} (hstep : AcceptedStep db label db')
    (h : ∀ m, Covered db m) : ∀ m, Covered db' m := by
  obtain ⟨hstep, haccepted⟩ := hstep
  cases hstep with
  | time ms =>
    intro m
    obtain ⟨maxBytes, owed, htally⟩ := h m
    exact (htally.advance ms).elim (fun h => ⟨_, _, h⟩) fun h => ⟨_, _, h⟩
  | @request _ c handled =>
    obtain ⟨op, reply⟩ := c
    obtain ⟨rfl, rfl⟩ := Program.Handled.eq handled
    -- a request that does not touch the queues leaves stream and counter
    by_cases htouches : op.Touches .queues
    · cases op with
      | enqueue m minId maxMessages max recipient size body ttl =>
        obtain ⟨maxBytes, owed, htally⟩ := h m
        exact (htally.enqueue_covered recipient body haccepted).final.covered h
      | trim m minId =>
        obtain ⟨maxBytes, owed, htally⟩ := h m
        exact (htally.trim_covered minId).final.covered h
      | remove m ids =>
        obtain ⟨maxBytes, owed, htally⟩ := h m
        exact (htally.remove_covered ids).final.covered h
      | removeMediation m' cutoff =>
        intro m
        obtain ⟨maxBytes, owed, htally⟩ := h m
        exact (htally.removeMediation m' cutoff).elim (fun h => ⟨_, _, h⟩) fun h => ⟨_, _, h⟩
      | _ => exact htouches.elim
    · obtain ⟨hqueue, hbytes, -⟩ := server_sameArea htouches db
      exact fun m => (h m).congr (congrFun hqueue m) (congrFun hbytes m)

/-! ## What expires -/

/-- TRIM below the first of all ids is an error, since an exclusive bound below it is none. -/
theorem trim_zero (m : String) (db : Db) :
    (trim m ⟨0, 0⟩).exec db = (.error "invalid end ID for the interval", db) := rfl

/-- The id built from the time and the TTL is `0-0` exactly when the TTL is at least the time. -/
theorem minId_eq_zero {now ttlSecs : ℕ} : minId now ttlSecs = ⟨0, 0⟩ ↔ now ≤ ttlSecs := by
  simp only [minId, StreamId.mk.injEq, and_true]
  omega

/-- Entries below that id are the ones received before the TTL. -/
theorem lt_minId (e : Entry) (now ttlSecs : ℕ) :
    e.id.lt (minId now ttlSecs) = true ↔ receivedAt e < now - ttlSecs := by
  rw [StreamId.lt_iff, receivedAt, StreamId.text, idMillis_queueId]
  simp only [minId, Nat.not_lt_zero, and_false, or_false]
  omega

/-- The messages of a queue as the in-process store keeps them, given their bodies. -/
def queuedList (body : Entry → String) (entries : List Entry) : List Queued :=
  entries.map fun e => queuedOf e (body e)

/-- The entries at or after the least id are those whose time has not run out. -/
theorem unexpired_queuedList (body : Entry → String) (entries : List Entry) (now ttlSecs : ℕ) :
    Inner.unexpired now ttlSecs (queuedList body entries) =
      queuedList body (entries.filter fun e => !e.id.lt (minId now ttlSecs)) := by
  have hkeeps (e : Entry) : (now - ttlSecs ≤ (queuedOf e (body e)).received) =
      ((!e.id.lt (minId now ttlSecs)) = true) := by
    have hlt := lt_minId e now ttlSecs
    rw [Bool.not_eq_true', ← Bool.not_eq_true, hlt, Nat.not_lt]
    rfl
  rw [Inner.unexpired, queuedList, List.filter_map, queuedList]
  congr 1
  refine List.filter_congr fun e _ => ?_
  rw [Function.comp_apply]
  simp only [hkeeps, Bool.decide_eq_true]

/-- The trim of a queue succeeds and drops the messages that `MemoryStore` drops, and only those,
and their sizes go off the byte counter; other queues stay. -/
structure Expires (m : String) (now ttlSecs : ℕ) (db db' : Db) : Prop where
  trimmed : (trim m (minId now ttlSecs)).exec db = (.ok (), db')
  entries : db'.entries m = (db.entries m).filter fun e => now - ttlSecs ≤ receivedAt e
  counter : db'.counter m = db.counter m -
    sizes ((db.entries m).filter fun e => receivedAt e < now - ttlSecs)
  others : ∀ m' ≠ m, db'.queue m' = db.queue m' ∧ db'.bytes m' = db.bytes m'
  /-- `MemoryStore`, on the same messages. -/
  memory : ∀ (inner : Inner) (body : Entry → String),
    inner.queues m = queuedList body (db.entries m) →
    (inner.expire m now ttlSecs).queues m = queuedList body (db'.entries m)
  /-- Every queue operation goes on from there. -/
  operations : ∀ op : Op, op.Sweeps m now ttlSecs → redis op db = redis op db'

/-- Keeping entries that all meet the test changes nothing. -/
theorem Db.keepEntries_eq_self {p : Entry → Bool} (h : ∀ e ∈ db.entries m, p e = true) :
    db.keepEntries m p = db := by
  have hqueue : (db.queue m).map (fun v : Volatile Stream =>
      { v with value := { v.value with entries := v.value.entries.filter p } }) = db.queue m := by
    cases hq : db.queue m with
    | none => rfl
    | some v =>
      have hentries : db.entries m = v.value.entries := by simp [Db.entries, hq]
      rw [Option.map_some, List.filter_eq_self.mpr (hentries ▸ h)]
  rw [Db.keepEntries, hqueue, Function.update_eq_self]

/-- Counting never fails, and writes one counter. -/
theorem uncount_ok (m : String) (freed : ℕ) (db : Db) :
    ∃ db', (uncount m freed).exec db = (.ok (), db') ∧ db'.queue = db.queue ∧ db'.body = db.body ∧
      db'.clock = db.clock ∧ ∀ m' ≠ m, db'.bytes m' = db.bytes m' := by
  simp only [uncount, incrBytes, zeroBytes, exec_ite, exec_bind, exec_read, exec_write, exec_pure]
  split
  · split
    · exact ⟨_, rfl, rfl, rfl, rfl, fun m' hm => by simp [hm]⟩
    · exact ⟨_, rfl, rfl, rfl, rfl, fun m' hm => Function.update_of_ne hm _ _⟩
  · exact ⟨_, rfl, rfl, rfl, rfl, fun _ _ => rfl⟩

/-- Above `0-0` a trim succeeds; it drops entries but no bodies. -/
theorem trim_ok (db : Db) (m : String) {minId : StreamId} (h : minId ≠ ⟨0, 0⟩) :
    ∃ db', (trim m minId).exec db = (.ok (), db') ∧
      db'.queue = (db.keepEntries m fun e => !e.id.lt minId).queue ∧ db'.body = db.body ∧
      db'.clock = db.clock := by
  simp only [trim, xrangeBefore, xtrim, h, ↓reduceIte, exec_bind, exec_read, exec_write]
  obtain ⟨db', hexec, hqueue, hbody, hclock, -⟩ := uncount_ok m
    (sizes ((db.entries m).filter fun e => e.id.lt minId)) (db.keepEntries m
      fun e => !e.id.lt minId)
  exact ⟨db', hexec, hqueue, hbody, hclock⟩

/-- The entries a trim leaves. -/
theorem entries_of_trim {minId : StreamId} (h : (trim m minId).exec db = (.ok (), db')) :
    minId ≠ ⟨0, 0⟩ ∧ db'.entries m = ((db.entries m).filter fun e => !e.id.lt minId) ∧
      db'.body = db.body := by
  by_cases hzero : minId = ⟨0, 0⟩
  · rw [hzero, trim_zero] at h
    nomatch (Prod.mk.inj h).1
  obtain ⟨t, ht, hqueue, hbody, -⟩ := trim_ok db m hzero
  obtain rfl := (Prod.mk.inj (h.symm.trans ht)).2
  refine ⟨hzero, ?_, hbody⟩
  rw [Db.entries, hqueue]
  exact Db.entries_keepEntries db m _

/-- Trimming a trimmed queue changes nothing. -/
theorem trim_again {minId : StreamId} (h : (trim m minId).exec db = (.ok (), db')) :
    (trim m minId).exec db' = (.ok (), db') := by
  obtain ⟨hzero, hentries, -⟩ := entries_of_trim h
  have hyoung : ∀ e ∈ db'.entries m, (!e.id.lt minId) = true := by
    intro e he
    rw [hentries] at he
    exact (List.mem_filter.mp he).2
  have hnone : (db'.entries m).filter (fun e => e.id.lt minId) = [] :=
    List.filter_eq_nil_iff.mpr fun e he => by simpa using hyoung e he
  simp only [trim, xrangeBefore, xtrim, hzero, ↓reduceIte, exec_bind, exec_read, exec_write, hnone,
    Db.keepEntries_eq_self hyoung, sizes, List.map_nil, List.sum_nil, uncount,
      Nat.lt_irrefl, exec_pure]

/-- The operations that sweep a queue do so first. -/
theorem redis_sweeps {op : Op} {now ttlSecs : ℕ} (hop : op.Sweeps m now ttlSecs)
    (h : (trim m (minId now ttlSecs)).exec db = (.ok (), db')) : redis op db = redis op db' := by
  have hagain := trim_again h
  -- trimming once more changes nothing, so both begin alike
  have hfor (recipient : Option String) : (entriesFor m recipient now ttlSecs).run.run server db =
      (entriesFor m recipient now ttlSecs).run.run server db' := by
    have hserver : server (.trim m (minId now ttlSecs)) db =
      server (.trim m (minId now ttlSecs)) db' :=
      h.trans hagain.symm
    rw [run_entriesFor, run_entriesFor, hserver]
  cases op with
  | enqueue m' recipient message now' limits =>
    obtain ⟨rfl, rfl, rfl⟩ := hop
    change (Redis.enqueue _ _ _ _ _ _ _ _).exec db = (Redis.enqueue _ _ _ _ _ _ _ _).exec db'
    rw [Redis.enqueue, exec_bind_ok h, exec_bind_ok hagain]
  | summary m' recipient now' ttlSecs' =>
    obtain ⟨rfl, rfl, rfl⟩ := hop
    change (entriesFor .. >>= _).run.run server db = (entriesFor .. >>= _).run.run server db'
    rw [run_bind, run_bind, hfor]
  | peek m' recipient limit now' ttlSecs' =>
    obtain ⟨rfl, rfl, rfl⟩ := hop
    change (peek ..).run.run server db = (peek ..).run.run server db'
    rw [peek, run_bind, run_bind, hfor]
  | _ => exact absurd hop id

/-- On a counter in step TRIM drops exactly the expired entries of a mediation whose time to live is
below `now`. -/
theorem Tally.expires (h : Tally maxBytes owed db m) {now ttlSecs : ℕ} (hlt : ttlSecs < now) :
    ∃ db', Expires m now ttlSecs db db' := by
  have hmeets := h.trim (minId now ttlSecs)
  rw [Meets] at hmeets
  rcases hexec : (Redis.trim m (minId now ttlSecs)).exec db with ⟨error | _, db'⟩
  · -- the id is not `0-0`
    rw [hexec] at hmeets
    have := minId_eq_zero.mp hmeets.1
    omega
  rw [hexec] at hmeets
  obtain ⟨-, -, hothers, htally, hentries⟩ := hmeets
  -- what TRIM keeps by id is what has not run out by time
  have hkept : (db.entries m).filter (fun e => !e.id.lt (minId now ttlSecs)) =
      (db.entries m).filter fun e => now - ttlSecs ≤ receivedAt e :=
    List.filter_congr fun e _ => by
      have := lt_minId e now ttlSecs
      rw [Bool.eq_iff_iff, Bool.not_eq_true', ← Bool.not_eq_true, this, Nat.not_lt,
        decide_eq_true_eq]
  refine ⟨db', hexec, hentries.trans hkept, ?_, hothers, fun inner body hinner => ?_,
    fun op hop => redis_sweeps hop hexec⟩
  · have hbefore := h.counter
    have hafter := htally.counter
    have hsizes := sizes_filter (db.entries m) fun e => now - ttlSecs ≤ receivedAt e
    have hdropped : (db.entries m).filter (fun e => !decide (now - ttlSecs ≤ receivedAt e)) =
        (db.entries m).filter fun e => receivedAt e < now - ttlSecs :=
      List.filter_congr fun e _ => by rw [← decide_not, decide_eq_decide, Nat.not_le]
    rw [hdropped] at hsizes
    rw [hentries, hkept] at hafter
    omega
  · rw [Inner.expire_self, hinner, unexpired_queuedList, hentries]

/-- In every state the server reaches, the trim of a queue succeeds, drops the messages that
`MemoryStore` drops and takes their sizes off the byte counter exactly when the TTL is below the
time; `ENQUEUE`s whose TTL Redis rejects, which leave an entry uncounted, apart. -/
theorem expiry_agrees_iff {clock : ℕ} {labels : List (Option (Call ServerCall))}
    (hrun : Transition.Run AcceptedStep (Db.empty clock) labels db) (m : String) (now ttlSecs : ℕ) :
    (∃ db', Expires m now ttlSecs db db') ↔ ttlSecs < now := by
  have hcovered : ∀ m, Covered db m :=
    hrun.invariant (Covered.empty clock) fun _ _ _ h hstep => Covered.step hstep h
  constructor
  · rintro ⟨db', hexpires⟩
    by_contra hge
    have htrimmed := hexpires.trimmed
    rw [minId_eq_zero.mpr (Nat.not_lt.mp hge), trim_zero] at htrimmed
    nomatch (Prod.mk.inj htrimmed).1
  · obtain ⟨maxBytes, owed, htally⟩ := hcovered m
    exact htally.expires

/-- A message is queued, and an hour later it is past its TTL of a minute. -/
theorem expiry_agrees_iff_queued :
    let queued := (server (.enqueue "did:example:m" ⟨940000, 0⟩ 10 10 "did:example:m" 5 "hello" 60)
      (Db.empty 1000000)).2
    ∃ db', Expires "did:example:m" 4600 60 queued db' := by
  intro queued
  have hqueue : AcceptedStep (Db.empty 1000000) (some ⟨.enqueue "did:example:m" ⟨940000, 0⟩ 10 10
      "did:example:m" 5 "hello" 60, (server (.enqueue "did:example:m" ⟨940000, 0⟩ 10 10
      "did:example:m" 5 "hello" 60) (Db.empty 1000000)).1⟩) queued :=
    ⟨.request (Program.handled _ _ _), fun _ => by decide⟩
  exact (expiry_agrees_iff (.single hqueue) _ _ _).mpr (by decide)

/-- With a TTL as long as the time since the epoch the trim of any queue fails. -/
theorem expiry_fails : ¬ ∀ (db : Db) (m : String) (now ttlSecs : ℕ), 0 < ttlSecs →
    db.clock / 1000 = now → ∃ db', Expires m now ttlSecs db db' := by
  intro h
  obtain ⟨db', hexpires⟩ := h (Db.empty 1700000000000) "did:example:m" 1700000000 2000000000
    (by decide) (by decide)
  have htrimmed := hexpires.trimmed
  rw [minId_eq_zero.mpr (by decide), trim_zero] at htrimmed
  nomatch (Prod.mk.inj htrimmed).1

end Store.Redis
