import AlmenaMediator.Dispatch.Receive
import AlmenaMediator.Store.Redis.Idle

/-!
# The cleanup of idle mediations

`remove_idle` goes on batch after batch until one is not full, while other tasks and other clients
use the store. It ends (`removeIdleLoop_sweeps`): each full batch leaves fewer idle mediations, and
wallets that are active after the cutoff make none idle. In the in-process store none is left then.
On Redis a mediation that a wallet wakes between being listed and being removed makes a full listing
look like the last one; when the server refuses no removal, none is left either.
-/

namespace Dispatch

open Program (Executes Interfered Implemented)

variable {σ : Type}

/-- The mediations that calls removed as idle. -/
def removedBy (calls : List (Call Surroundings)) : List String := calls.flatMap fun c =>
  match c with
  | ⟨.store (.removeIdleMediations _ _), .ok removed⟩ => removed
  | _ => []

/-- What two rows of calls removed is what each removed. -/
theorem removedBy_append (calls calls' : List (Call Surroundings)) :
    removedBy (calls ++ calls') = removedBy calls ++ removedBy calls' := List.flatMap_append

/-- A store in which a removal is a batch of a sweep over the idle mediations. -/
structure Sweeps (cutoff : ℕ) (idle : σ → Finset String) (inv done : σ → Prop)
    (env : Program.Environment Store.StoreCall σ) : Prop where
  batch : ∀ {s t reply}, inv s → env s ⟨.removeIdleMediations cutoff cleanupBatch, reply⟩ t →
    ∃ removed, reply = .ok removed ∧ inv t ∧ Sweep.Batch (idle s) removed (idle t) ∧
      (removed.length < cleanupBatch → done t)

section Loop

variable {cutoff batches : ℕ} {idle : σ → Finset String} {inv done : σ → Prop}
  {env : Program.Environment Store.StoreCall σ} {s t : σ} {calls : List (Call Surroundings)}
  {result : Except Store.StoreError ℕ}

/-- The loop ends within the batches that the idle mediations fill, and counts what it removed. -/
theorem removeIdleLoop_sweeps (hsweeps : Sweeps cutoff idle inv done env) (hinv : inv s)
    (hroom : (idle s).card < cleanupBatch * batches)
    (h : Executes (around env) (removeIdleLoop cutoff batches).run s calls result t) :
    result = .ok (removedBy calls).length ∧ Sweep.Batch (idle s) (removedBy calls)
    (idle t) ∧ done t := by
  induction batches generalizing s t calls result with
  | zero => exact absurd hroom (by simp)
  | succ batches ih =>
    rw [removeIdleLoop] at h
    rcases h.exceptT_bind_inv with ⟨e, hcall, -⟩ | ⟨calls₁, calls₂, removed, u, rfl, hcall, hrest⟩
    · obtain ⟨-, hstep⟩ := hcall.request_inv
      obtain ⟨removed, herror, -⟩ := hsweeps.batch hinv hstep
      cases herror
    obtain ⟨rfl, hstep⟩ := hcall.request_inv
    obtain ⟨removed, hanswer, huinv, hbatch, hdone⟩ := hsweeps.batch hinv hstep
    obtain rfl := Except.ok.inj hanswer
    have htook : removedBy [⟨.store (.removeIdleMediations cutoff cleanupBatch), .ok removed⟩] =
      removed :=
      List.append_nil _
    -- a batch that is not full ends the loop; a full one leaves less than the other batches hold
    by_cases hfull : removed.length < cleanupBatch
    · rw [if_pos hfull] at hrest
      obtain ⟨rfl, rfl, rfl⟩ := hrest.done_inv
      rw [List.append_nil, htook]
      exact ⟨rfl, hbatch, hdone hfull⟩
    · rw [if_neg hfull] at hrest
      have hless : (idle u).card < cleanupBatch * batches := by
        have hcard := hbatch.card_add_le
        rw [Nat.mul_succ] at hroom
        omega
      rcases hrest.exceptT_bind_inv with ⟨e, hfail, -⟩ | ⟨calls₃, calls₄,
        total, v, rfl, hloop, hsum⟩
      · obtain ⟨herror, -⟩ := ih huinv hless hfail
        cases herror
      obtain ⟨htotal, hrest, hdone⟩ := ih huinv hless hloop
      obtain rfl := Except.ok.inj htotal
      obtain ⟨rfl, rfl, rfl⟩ := hsum.done_inv
      rw [List.append_nil, removedBy_append, htook]
      exact ⟨by rw [List.length_append], hbatch.append hrest, hdone⟩

end Loop

/-! ## The in-process store -/

section InProcess

open Store (Inner MemoryStep MemoryReachable)

/-- Other tasks use the store; wallets are active after the cutoff only. -/
def othersUse (cutoff : ℕ) (inner inner' : Inner) : Prop :=
  ∃ c, MemoryStep inner c inner' ∧ c.op.Fresh cutoff

/-- The in-process store, with other tasks on it. -/
abbrev shared (cutoff : ℕ) : Program.Environment Store.StoreCall Inner :=
  Interfered (othersUse cutoff) MemoryStep

variable {inner inner' : Inner} {cutoff : ℕ}

/-- The records stay single and no mediation becomes idle while others use the store. -/
theorem othersUse_kept (honce : inner.SeenOnce)
    (h : Relation.ReflTransGen (othersUse cutoff) inner inner') :
    inner'.SeenOnce ∧ inner'.idle cutoff ⊆ inner.idle cutoff := by
  refine Program.kept_until (fun t => t.SeenOnce ∧ t.idle cutoff ⊆ inner.idle cutoff) ?_ h
    ⟨honce, subset_rfl⟩
  rintro u v ⟨honce, hsub⟩ ⟨c, hstep, hfresh⟩
  exact ⟨honce.step hstep, (Inner.idle_subset hstep hfresh).trans hsub⟩

/-- A removal with room left over leaves none, and it never fails. -/
theorem shared_sweeps (cutoff : ℕ) :
    Sweeps cutoff (Inner.idle cutoff) Inner.SeenOnce (fun inner => inner.idle cutoff = ∅)
    (shared cutoff) := by
  constructor
  rintro s t reply honce ⟨u, hothers, hstep⟩
  obtain ⟨huonce, hsub⟩ := othersUse_kept honce hothers
  obtain ⟨removed, rfl⟩ : ∃ removed, reply = .ok removed := by
    obtain ⟨order, -, hmemory⟩ := hstep
    obtain ⟨rfl, -⟩ := hmemory.eq
    exact ⟨_, rfl⟩
  obtain ⟨hbatch, -⟩ := Inner.removal_batch huonce hstep
  exact ⟨removed, rfl, huonce.step hstep, hbatch.mono hsub, Inner.removal_done huonce hstep⟩

/-- On the in-process store a cleanup ends within the batches that the idle mediations fill,
whatever other tasks do meanwhile, as long as wallets are only active after the cutoff: it has
removed mediations that were idle, each once, and none is idle after it. -/
theorem cleanup_in_process {max ttlSecs now batches : ℕ} {inner inner' after : Inner}
    {calls : List (Call Surroundings)} {result : Except Store.StoreError ℕ}
    (hreach : MemoryReachable max inner)
    (hroom : (inner.idle (now - ttlSecs)).card < cleanupBatch * batches)
    (h : Executes (around (shared (now - ttlSecs))) (removeIdle ttlSecs now batches).run
      inner calls result inner')
      (hafter : Relation.ReflTransGen (othersUse (now - ttlSecs)) inner' after) :
    result = .ok (removedBy calls).length ∧ (removedBy calls).Nodup ∧
      (∀ m ∈ removedBy calls, m ∈ inner.idle (now - ttlSecs)) ∧ after.idle (now - ttlSecs) = ∅ := by
  obtain ⟨hresult, hbatch, hdone⟩ := removeIdleLoop_sweeps
    (shared_sweeps (now - ttlSecs)) hreach.seenOnce hroom h
  refine ⟨hresult, hbatch.nodup, hbatch.was, ?_⟩
  -- afterwards other clients make no mediation idle
  have hkept : ∀ u v : Inner, u.idle (now - ttlSecs) = ∅ → othersUse (now - ttlSecs) u v →
      v.idle (now - ttlSecs) = ∅ := by
    rintro u v hnone ⟨c, hstep, hfresh⟩
    exact Finset.subset_empty.mp (hnone ▸ Inner.idle_subset hstep hfresh)
  exact Program.kept_until (fun t => t.idle (now - ttlSecs) = ∅) hkept hafter hdone

/-- A mediation granted at ten; at a hundred another one is granted before the cleanup removes the
first. -/
theorem cleanup_in_process_one :
    let before := Inner.empty.grantMediation "m" 10
    let between := before.grantMediation "w" 100
    (between.removeMediation "m").idle 20 = ∅ := by
  intro before between
  have hreach : MemoryReachable 1 before :=
    ⟨[⟨.grantMediation "m" 10, .ok ()⟩], .single ⟨[], .refl _, rfl⟩, by simp [Store.AddsUpTo]⟩
  have hfresh : (Store.Op.grantMediation "w" 100).Fresh 20 := Nat.lt_of_sub_pos (by decide)
  have hother : othersUse 20 before between :=
    ⟨⟨.grantMediation "w" 100, .ok ()⟩, ⟨before.seen, .refl _, rfl⟩, hfresh⟩
  have hremoval : MemoryStep between ⟨.removeIdleMediations 20 cleanupBatch, .ok ["m"]⟩
      (between.removeMediation "m") := ⟨between.seen, .refl _, rfl⟩
  have hcall : around (shared 20) before ⟨.store (.removeIdleMediations 20 cleanupBatch), .ok ["m"]⟩
      (between.removeMediation "m") := ⟨between, .single hother, hremoval⟩
  have hexecutes : Executes (around (shared (100 - 80))) (removeIdle 80 100 1).run before
      [⟨.store (.removeIdleMediations 20 cleanupBatch), .ok ["m"]⟩] (.ok 1)
        (between.removeMediation "m") :=
    .call hcall .done
  exact (cleanup_in_process hreach (by decide) hexecutes .refl).2.2.2

end InProcess

/-! ## The Redis store -/

section OnServer

open Store.Redis (Db ServerCall ServerReachable Others Refuses busy)

/-- The methods of `RedisStore`, other clients coming between their requests, with the answers the
server gives. -/
abbrev served (cutoff : ℕ) (answers : Call ServerCall → Prop) :
    Program.Environment Store.StoreCall Db :=
  Implemented (fun op => (Store.Redis.method op).run) fun s c t => busy cutoff s c t ∧ answers c

variable {answers : Call ServerCall → Prop}

/-- A removal is a batch; with no removal refused and with room left over, it leaves none. -/
theorem served_sweeps (cutoff : ℕ) (answers : Call ServerCall → Prop) :
    Sweeps cutoff (Db.idle cutoff) Db.SeenOnce
      (fun db => (∀ c, answers c → ¬ Refuses c) → db.idle cutoff = ∅) (served cutoff answers) := by
  constructor
  rintro s t reply honce ⟨requests, hmethod⟩
  obtain ⟨hmethod, hanswers⟩ := hmethod.and_inv
  obtain ⟨removed, rfl, htonce, hbatch, -, hdone⟩ :=
    Store.Redis.removal_batch (by decide) honce hmethod
  exact ⟨removed, rfl, htonce, hbatch, fun hroom hrefuses =>
    hdone (fun c hc => hrefuses c (hanswers c hc)) hroom⟩

/-- On Redis a cleanup ends within the batches that the idle mediations fill, whatever other clients
do between its requests, as long as wallets are only active after the cutoff: it has removed
mediations that were idle, each once. If the server refused it no removal, none is idle after it. -/
theorem cleanup_on_server {max ttlSecs now batches : ℕ} {db db' after : Db}
    {calls : List (Call Surroundings)} {result : Except Store.StoreError ℕ}
    (hreach : ServerReachable max db)
    (hroom : (db.idle (now - ttlSecs)).card < cleanupBatch * batches)
    (h : Executes (around (served (now - ttlSecs) answers))
      (removeIdle ttlSecs now batches).run db calls result db')
      (hafter : Relation.ReflTransGen (Others (now - ttlSecs)) db' after) :
      result = .ok (removedBy calls).length ∧ (removedBy calls).Nodup ∧
        (∀ m ∈ removedBy calls, m ∈ db.idle (now - ttlSecs)) ∧
          ((∀ c, answers c → ¬ Refuses c) → after.idle (now - ttlSecs) = ∅) := by
  obtain ⟨hresult, hbatch, hdone⟩ :=
    removeIdleLoop_sweeps (served_sweeps (now - ttlSecs) answers) hreach.seenOnce hroom h
  refine ⟨hresult, hbatch.nodup, hbatch.was, fun hrefuses => ?_⟩
  -- afterwards other clients make no mediation idle
  have hkept : ∀ u v : Db, u.idle (now - ttlSecs) = ∅ → Others (now - ttlSecs) u v →
      v.idle (now - ttlSecs) = ∅ := by
    rintro u v hnone ⟨label, hstep, hfresh⟩
    exact Finset.subset_empty.mp (hnone ▸ Db.idle_subset hstep hfresh)
  exact Program.kept_until (fun t => t.idle (now - ttlSecs) = ∅) hkept hafter (hdone hrefuses)

/-- A mediation granted at ten; a cleanup at a hundred lists it, and another one is granted before
its script. -/
theorem cleanup_on_server_one :
    let before := ((Store.Redis.grant "m" 10).exec (Db.empty 0)).2
    let between := ((Store.Redis.grant "w" 100).exec before).2
    ((Store.Redis.removeMediation "m" 20).exec between).2.idle 20 = ∅ := by
  intro before between
  have hreach : ServerReachable 1 before :=
    ⟨0, [some ⟨.grant "m" 10, .ok ()⟩], .single (.request rfl),
      by simp [Store.Redis.StepAddsUpTo, Store.Redis.AddsUpTo]⟩
  have hfresh : Db.Fresh 20 (some ⟨.grant "w" 100, .ok ()⟩) := Nat.lt_of_sub_pos (by decide)
  -- in between another client makes its own mediation active
  have hother : Others 20 before between := ⟨some ⟨.grant "w" 100, .ok ()⟩, .request rfl, hfresh⟩
  have hlisted : busy 20 before ⟨.seenBy 20 cleanupBatch, .ok ["m"]⟩ before :=
    Program.interfered rfl
  have hremoved : busy 20 before ⟨.removeMediation "m" 20, .ok (1 : ℕ)⟩
      ((Store.Redis.removeMediation "m" 20).exec between).2 := ⟨between, .single hother, rfl⟩
  have hmethod : served 20 (fun c => ¬ Refuses c) before
      ⟨.removeIdleMediations 20 cleanupBatch, .ok ["m"]⟩
      ((Store.Redis.removeMediation "m" 20).exec between).2 :=
    ⟨[⟨.seenBy 20 cleanupBatch, .ok ["m"]⟩, ⟨.removeMediation "m" 20, .ok (1 : ℕ)⟩],
      .call ⟨hlisted, id⟩ (.call ⟨hremoved, by simp [Refuses]⟩ .done)⟩
  have hexecutes : Executes (around (served (100 - 80) fun c => ¬ Refuses c))
      (removeIdle 80 100 1).run before [⟨.store (.removeIdleMediations 20 cleanupBatch), .ok ["m"]⟩]
      (.ok 1) ((Store.Redis.removeMediation "m" 20).exec between).2 := .call hmethod .done
  exact (cleanup_on_server hreach (by decide) hexecutes .refl).2.2.2 fun _ h => h

end OnServer

end Dispatch
