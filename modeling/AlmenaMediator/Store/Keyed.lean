import AlmenaMediator.Store.Memory
import AlmenaMediator.Store.Redis.Store

/-!
# What belongs to a mediation

What a mediation has in a store falls into six parts. A method writes some parts of one mediation,
and only the cleanup writes to mediations it was not told to; both stores keep to that.
-/

namespace Store

/-- A part of what a mediation has in a store. -/
inductive Part
  | grant
  | lastActive
  /-- Its set of recipient DIDs, and which DIDs it owns. -/
  | recipients
  | queue
  | devices
  | pushMarker
  deriving DecidableEq, Repr

/-- Whether a method may write a part of what `m` has. -/
def Op.Writes (part : Part) (m : String) : Op → Prop
  | .grantMediation mediation _ => mediation = m ∧ (part = .grant ∨ part = .lastActive)
  | .touchMediation mediation _ => mediation = m ∧ part = .lastActive
  | .removeIdleMediations _ _ => True
  | .addRecipient mediation _ _ | .removeRecipient mediation _ => mediation = m ∧ part = .recipients
  | .enqueue mediation _ _ _ _ | .summary mediation _ _ _ | .peek mediation _ _ _ _
  | .remove mediation _ => mediation = m ∧ part = .queue
  | .setDevice mediation _ _ | .removeDevice mediation _ _ => mediation = m ∧ part = .devices
  | .claimPush mediation _ _ | .releasePush mediation _ _ => mediation = m ∧ part = .pushMarker
  | _ => False

/-- A store in which a method writes only what belongs to the mediations it may write to. -/
structure Keyed (σ : Type) where
  /-- The store's methods. -/
  env : Program.Environment StoreCall σ
  /-- The mediation that registered a DID. -/
  owner : σ → String → Option String
  /-- A part of what a mediation has is the same in two states. -/
  Same : Part → String → σ → σ → Prop
  refl : ∀ part m s, Same part m s s
  trans : ∀ {part m s t u}, Same part m s t → Same part m t u → Same part m s u
  owner_of_same : ∀ {m s t}, Same .recipients m s t → ∀ did,
    owner t did = some m ↔ owner s did = some m
  /-- `mediation_of` answers the owner. -/
  mediationOf : ∀ {s t did answer}, env s ⟨.mediationOf did, .ok answer⟩ t → answer = owner s did
  same : ∀ {part m s t c}, env s c t → ¬ c.op.Writes part m → Same part m s t

/-! ## The in-process store -/

namespace Inner

/-- A part of what `m` has is the same. -/
def Same (part : Part) (m : String) (s t : Inner) : Prop :=
  match part with
  | .grant => t.mediations m = s.mediations m
  | .lastActive => (t.seen.filter fun e => e.1 == m) = s.seen.filter fun e => e.1 == m
  | .recipients => t.recipients m = s.recipients m ∧
    ∀ did, t.owners did = some m ↔ s.owners did = some m
  | .queue => t.queues m = s.queues m
  | .devices => t.devices m = s.devices m
  | .pushMarker => t.pushSent m = s.pushSent m

/-- A state agrees with itself on every part of every mediation. -/
theorem Same.refl (part : Part) (m : String) (s : Inner) : Same part m s s := by
  cases part <;> simp [Same]

/-- Agreement on a part of a mediation composes over an intermediate state. -/
theorem Same.trans {part : Part} {m : String} {s t u : Inner} (h : Same part m s t)
    (h' : Same part m t u) : Same part m s u := by
  cases part <;> simp_all [Same]

variable (s : Inner) {part : Part} {m mediation : String}

/-- The contacts with other mediations stay when one is recorded. -/
theorem filter_see (h : mediation ≠ m) (now : ℕ) :
    ((s.see mediation now).seen.filter fun e => e.1 == m) = s.seen.filter fun e => e.1 == m := by
  simp only [see, List.filter_cons, beq_eq_false_iff_ne.mpr h, Bool.false_eq_true, ↓reduceIte,
    List.filter_filter]
  refine List.filter_congr fun e _ => ?_
  by_cases he : e.1 = m
  · simp [he, h.symm]
  · simp [he]

/-- An entry of one mediation is written, which belongs to a part of what the mediation has. -/
inductive WritesEntry (mediation : String) (s : Inner) : Part → Inner → Prop
  | granted : WritesEntry mediation s .grant
      { s with mediations := Function.update s.mediations mediation true }
  | seen (now : ℕ) : WritesEntry mediation s .lastActive (s.see mediation now)
  | queue (queue : List Queued) (seq : ℕ) : WritesEntry mediation s .queue
      { s with seq := seq, queues := Function.update s.queues mediation queue }
  | devices (devices : Service → Option Device) : WritesEntry mediation s .devices
      { s with devices := Function.update s.devices mediation devices }
  | pushSent (marker : Option (ℕ × ℕ)) : WritesEntry mediation s .pushMarker
      { s with pushSent := Function.update s.pushSent mediation marker }

variable {s}

/-- Writing an entry of one mediation leaves its other parts, and what other mediations have. -/
theorem WritesEntry.same {target : Part} {t : Inner} (hwrites : s.WritesEntry mediation target t)
    (h : ¬ (mediation = m ∧ part = target)) : s.Same part m t := by
  by_cases hpart : part = target
  · -- the part is another mediation's
    subst hpart
    have hne : m ≠ mediation := fun hm => h ⟨hm.symm, rfl⟩
    cases hwrites <;> simp [Same, hne, filter_see s hne.symm]
  · cases hwrites <;> cases part <;> simp_all [Same, see]

variable (s)

/-- Adding a recipient to one mediation leaves the recipients of the others and every other part as
they were. -/
theorem same_addRecipient (recipient : String) (max : ℕ)
    (h : ¬ (mediation = m ∧ part = .recipients)) :
    Same part m s (s.addRecipient mediation recipient max).2 := by
  unfold addRecipient
  cases howner : s.owners recipient with
  | some owner => exact Same.refl part m s
  | none =>
    dsimp only
    split
    · exact Same.refl part m s
    · cases part with
      | recipients =>
        have hne : mediation ≠ m := fun hm => h ⟨hm, rfl⟩
        refine ⟨by simp [Function.update_of_ne hne.symm], fun did => ?_⟩
        by_cases hdid : did = recipient
        · subst hdid
          simp [howner, hne]
        · simp [hdid]
      | _ => simp [Same]

/-- Removing a recipient of one mediation leaves the recipients of the others and every other part
as they were. -/
theorem same_removeRecipient (recipient : String) (h : ¬ (mediation = m ∧ part = .recipients)) :
    Same part m s (s.removeRecipient mediation recipient).2 := by
  unfold removeRecipient
  cases howner : s.owners recipient with
  | none => exact Same.refl part m s
  | some owner =>
    dsimp only
    split
    · exact Same.refl part m s
    · rename_i hmine
      obtain rfl : owner = mediation := not_not.mp hmine
      cases part with
      | recipients =>
        have hne : owner ≠ m := fun hm => h ⟨hm, rfl⟩
        refine ⟨by simp [Function.update_of_ne hne.symm], fun did => ?_⟩
        by_cases hdid : did = recipient
        · subst hdid
          simp [howner, hne]
        · simp [hdid]
      | _ => simp [Same]

end Inner

/-- A method writes only the parts it may. -/
theorem MemoryStep.same {part : Part} {m : String} {s t : Inner} {c : Call StoreCall}
    (hstep : MemoryStep s c t) (h : ¬ c.op.Writes part m) : s.Same part m t := by
  obtain ⟨order, -, hstep⟩ := hstep
  obtain ⟨op, reply⟩ := c
  obtain ⟨rfl, rfl⟩ := hstep.eq
  cases op with
  | grantMediation mediation now =>
    -- the grant is written first and the contact after it
    have hgranted : s.WritesEntry mediation .grant _ := .granted
    exact (hgranted.same fun hm => h ⟨hm.1, .inl hm.2⟩).trans
      ((Inner.WritesEntry.seen now).same fun hm => h ⟨hm.1, .inr hm.2⟩)
  | touchMediation mediation now =>
    simp only [memory, Inner.touchMediation]
    split
    · exact (Inner.WritesEntry.seen now).same h
    · exact Inner.Same.refl part m s
  -- removing idle mediations may write any part of any mediation
  | removeIdleMediations cutoff limit => exact absurd trivial h
  | addRecipient mediation recipient max => exact s.same_addRecipient recipient max h
  | removeRecipient mediation recipient => exact s.same_removeRecipient recipient h
  | enqueue mediation recipient message now limits =>
    obtain ⟨queue, heq⟩ := s.enqueue_effect mediation recipient message now limits
    simp only [memory, heq]
    exact (Inner.WritesEntry.queue queue _).same h
  | summary mediation recipient now ttlSecs => exact (Inner.WritesEntry.queue _ _).same h
  | peek mediation recipient limit now ttlSecs => exact (Inner.WritesEntry.queue _ _).same h
  | remove mediation ids => exact (Inner.WritesEntry.queue _ _).same h
  | scheduleRelay relay due maxPending =>
    obtain ⟨relays, heq⟩ := s.scheduleRelay_effect relay due maxPending
    simp only [memory, heq]
    cases part <;> simp [Inner.Same]
  | setDevice mediation service device => exact (Inner.WritesEntry.devices _).same h
  | removeDevice mediation service token =>
    obtain ⟨devices, heq⟩ := s.removeDevice_effect mediation service token
    simp only [memory, heq]
    exact (Inner.WritesEntry.devices devices).same h
  | claimPush mediation now holdSecs =>
    obtain ⟨marker, heq⟩ := s.claimPush_effect mediation now holdSecs
    simp only [memory, heq]
    exact (Inner.WritesEntry.pushSent marker).same h
  | releasePush mediation now minIntervalSecs =>
    obtain ⟨marker, heq⟩ := s.releasePush_effect mediation now minIntervalSecs
    simp only [memory, heq]
    exact (Inner.WritesEntry.pushSent marker).same h
  | _ => cases part <;> simp [Inner.Same, memory, Inner.hit, Inner.dueRelays, Inner.finishRelay]

/-- The in-process store. -/
def memoryKeyed : Keyed Inner where
  env := MemoryStep
  owner := Inner.owners
  Same part m s t := s.Same part m t
  refl := Inner.Same.refl
  trans := Inner.Same.trans
  owner_of_same h := h.2
  mediationOf := by
    rintro s t did answer ⟨order, -, hstep⟩
    obtain ⟨hreply, -⟩ := hstep.eq
    simpa [memory] using hreply
  same := MemoryStep.same

/-! ## The Redis store -/

namespace Redis

open Script

/-- A part of what `m` has is the same. -/
def Db.Same (part : Part) (m : String) (s t : Db) : Prop :=
  match part with
  | .grant => t.granted m = s.granted m
  | .lastActive => (t.seen.filter fun e => e.2 == m) = s.seen.filter fun e => e.2 == m
  | .recipients => t.recipients m = s.recipients m ∧
    ∀ did, t.owner did = some m ↔ s.owner did = some m
  | .queue => t.queue m = s.queue m ∧ t.body m = s.body m ∧ t.bytes m = s.bytes m
  | .devices => t.devices m = s.devices m
  | .pushMarker => t.pushSent m = s.pushSent m

/-- A database agrees with itself on every part of every mediation. -/
theorem Db.Same.refl (part : Part) (m : String) (s : Db) : Same part m s s := by
  cases part <;> simp [Same]

/-- Agreement of databases on a part of a mediation composes over an intermediate database. -/
theorem Db.Same.trans {part : Part} {m : String} {s t u : Db} (h : Same part m s t)
    (h' : Same part m t u) : Same part m s u := by
  cases part <;> simp_all [Same]

/-- Adding a member leaves the others. -/
theorem filter_zadd {m mediation : String} (h : mediation ≠ m) (now : ℕ) (set : ZSet) :
    ((zadd now mediation set).filter fun e => e.2 == m) = set.filter fun e => e.2 == m := by
  have hothers : ((set.filter fun e => e.2 != mediation).filter fun e => e.2 == m) =
      set.filter fun e => e.2 == m := by
    rw [List.filter_filter]
    refine List.filter_congr fun e _ => ?_
    by_cases he : e.2 = m
    · simp [he, h.symm]
    · simp [he]
  rw [zadd, List.orderedInsert_eq_take_drop, List.filter_append,
    List.filter_cons_of_neg (by simpa using h),
    ← List.filter_append, List.takeWhile_append_dropWhile, hothers]

section Writes

variable {part : Part} {m mediation : String} {s : Db}

/-- A key of one mediation is written, which belongs to a part of what the mediation has. -/
inductive Db.WritesKey (mediation : String) (db : Db) : Part → Db → Prop
  | granted (v : Option ℕ) : WritesKey mediation db .grant
      { db with granted := Function.update db.granted mediation v }
  | seen (now : ℕ) : WritesKey mediation db .lastActive
      { db with seen := zadd now mediation db.seen }
  | queue (v : Option (Volatile Stream)) : WritesKey mediation db .queue
      { db with queue := Function.update db.queue mediation v }
  | body (v : String → Option (Volatile String)) : WritesKey mediation db .queue
      { db with body := Function.update db.body mediation v }
  | bytes (v : Option (Volatile ℤ)) : WritesKey mediation db .queue
      { db with bytes := Function.update db.bytes mediation v }
  | devices (v : Service → Option Device) : WritesKey mediation db .devices
      { db with devices := Function.update db.devices mediation v }
  | pushSent (v : Option (Volatile ℕ)) : WritesKey mediation db .pushMarker
      { db with pushSent := Function.update db.pushSent mediation v }

/-- Writing a key of one mediation leaves its other parts, and what other mediations have. -/
theorem Db.Same.writesKey {target : Part} {db db' : Db} (hdb : s.Same part m db)
    (h : ¬ (mediation = m ∧ part = target)) (hwrites : db.WritesKey mediation target db') :
    s.Same part m db' := by
  apply hdb.trans
  by_cases hpart : part = target
  · -- the part is another mediation's
    subst hpart
    have hne : m ≠ mediation := fun hm => h ⟨hm.symm, rfl⟩
    cases hwrites <;> simp [Db.Same, hne, filter_zadd hne.symm]
  · cases hwrites <;> cases part <;> simp_all [Db.Same]

/-- The script that adds a recipient to one mediation keeps the agreement on any part that is not
its recipients. -/
theorem keeps_same_addRecipient (h : ¬ (mediation = m ∧ part = .recipients)) (recipient : String)
    (max : ℕ) : Keeps (s.Same part m) (addRecipient mediation recipient max) := by
  intro db hdb
  rw [exec_addRecipient]
  split
  · exact hdb
  split
  · exact hdb
  rename_i htaken
  split
  · exact hdb
  cases part with
  | recipients =>
    have hne : mediation ≠ m := fun hm => h ⟨hm, rfl⟩
    -- the DID was free, so no other mediation loses it
    have hfree : db.owner recipient = none := by simpa using htaken
    refine ⟨by simpa [Function.update_of_ne hne.symm] using hdb.1, fun did => ?_⟩
    rw [← hdb.2 did]
    by_cases hdid : did = recipient
    · subst hdid
      simp [hfree, hne]
    · simp [hdid]
  | _ => exact hdb

/-- The script that removes a recipient of one mediation keeps the agreement on any part that is not
its recipients. -/
theorem keeps_same_removeRecipient (h : ¬ (mediation = m ∧ part = .recipients))
    (recipient : String) : Keeps (s.Same part m) (removeRecipient mediation recipient) := by
  intro db hdb
  rw [exec_removeRecipient]
  split_ifs with hnone htheirs
  · exact hdb
  · exact hdb
  · cases part with
    | recipients =>
      have hne : mediation ≠ m := fun hm => h ⟨hm, rfl⟩
      refine ⟨by simpa [Function.update_of_ne hne.symm] using hdb.1, fun did => ?_⟩
      rw [← hdb.2 did]
      by_cases hdid : did = recipient
      · subst hdid
        simp [not_not.mp htheirs, hne]
      · simp [hdid]
    | _ => exact hdb

/-- The trim of one mediation's queue keeps the agreement on any part that is not its queue. -/
theorem keeps_same_trim (h : ¬ (mediation = m ∧ part = .queue)) (minId : StreamId) :
    Keeps (s.Same part m) (trim mediation minId) :=
  keeps_trim (fun _ _ hdb => hdb.writesKey h (.queue _))
    (fun _ _ hdb => hdb.writesKey h (.bytes _)) minId

/-- Removing entries of one mediation's queue keeps the agreement on any part that is not its
queue. -/
theorem keeps_same_remove (h : ¬ (mediation = m ∧ part = .queue)) (ids : List String) :
    Keeps (s.Same part m) (remove mediation ids) :=
  keeps_remove (fun _ _ hdb => hdb.writesKey h (.queue _))
    (fun _ _ hdb => hdb.writesKey h (.bytes _)) (fun _ _ hdb => hdb.writesKey h (.body _)) ids

/-- A request that a method sends writes only the parts the method may. -/
theorem keeps_same_script {op : Op} {request : Request} (hsends : Sends op request)
    (h : ¬ op.Writes part m) : Keeps (s.Same part m) request.script := by
  cases op with
  | removeIdleMediations => exact absurd trivial h
  | grantMediation mediation now =>
    obtain rfl : request = .grant mediation now := hsends
    intro db hdb
    -- the grant is written first and the contact after it
    have hgranted := hdb.writesKey (fun hm => h ⟨hm.1, .inl hm.2⟩)
      (.granted (some ((db.granted mediation).getD now)))
    exact hgranted.writesKey (fun hm => h ⟨hm.1, .inr hm.2⟩) (.seen now)
  | touchMediation mediation now =>
    obtain rfl : request = .touch mediation now := hsends
    exact keeps_touch fun db hdb => hdb.writesKey h (.seen now)
  | addRecipient mediation recipient max =>
    obtain rfl : request = .addRecipient mediation recipient max := hsends
    exact keeps_same_addRecipient h recipient max
  | removeRecipient mediation recipient =>
    obtain rfl : request = .removeRecipient mediation recipient := hsends
    exact keeps_same_removeRecipient h recipient
  | enqueue mediation recipient message now limits =>
    cases hsends
    exact keeps_enqueue (fun _ _ hdb => hdb.writesKey h (.queue _))
      (fun _ _ hdb => hdb.writesKey h (.bytes _)) (fun _ _ hdb => hdb.writesKey h (.body _))
      _ _ _ _ _ _ _
  | summary mediation recipient now ttlSecs =>
    rcases hsends with rfl | rfl
    · exact keeps_same_trim h _
    · exact keeps_read _
  | peek mediation recipient limit now ttlSecs =>
    rcases hsends with rfl | rfl | ⟨ids, rfl⟩ | ⟨ids, rfl⟩
    · exact keeps_same_trim h _
    · exact keeps_read _
    · exact keeps_read _
    · exact keeps_same_remove h _
  | remove mediation ids =>
    cases hsends
    exact keeps_same_remove h _
  | setDevice mediation service device =>
    cases hsends
    exact keeps_write fun _ hdb => hdb.writesKey h (.devices _)
  | removeDevice mediation service token =>
    cases hsends
    exact keeps_removeDevice (fun _ _ hdb => hdb.writesKey h (.devices _)) _ _
  | claimPush mediation now holdSecs =>
    cases hsends
    exact keeps_claimPush (fun _ _ hdb => hdb.writesKey h (.pushSent _)) _ _
  | releasePush mediation now minIntervalSecs =>
    cases hsends
    exact keeps_releasePush (fun _ _ hdb => hdb.writesKey h (.pushSent _)) _ _
  -- the rate limits and the relays belong to no mediation
  | hit key windowSecs now =>
    cases hsends
    exact keeps_hit (fun db rate hdb => by cases part <;> exact hdb) _ _ _
  | scheduleRelay relay due maxPending =>
    cases hsends
    exact keeps_scheduleRelay (fun db items hdb => by cases part <;> exact hdb)
      (fun db due hdb => by cases part <;> exact hdb) _ _ _
  | dueRelays now leaseSecs limit =>
    cases hsends
    exact keeps_dueRelays (fun db due hdb => by cases part <;> exact hdb) _ _ _
  | finishRelay id =>
    cases hsends
    exact keeps_write fun db hdb => by cases part <;> exact hdb
  | _ =>
    cases hsends
    exact keeps_read _

/-- So do any number of them. -/
theorem run_same {op : Op} {labels : List (Option (Call ServerCall))} {t : Db}
    (hrun : Transition.Run ServerStep s labels t)
    (hsends : ∀ label ∈ labels, ∃ request, label = some request ∧ Sends op request.op)
    (h : ¬ op.Writes part m) : s.Same part m t := by
  induction hrun with
  | nil => exact Db.Same.refl part m s
  | snoc _ hstep ih =>
    rw [List.forall_mem_append] at hsends
    obtain ⟨request, rfl, hsent⟩ := hsends.2 _ (List.mem_singleton_self _)
    cases hstep with
    | @request _ c handled =>
      obtain ⟨-, rfl⟩ := Program.Handled.eq handled
      exact keeps_same_script hsent h _ (ih hsends.1)

end Writes

/-- A method writes only the parts it may. -/
theorem redis_same {part : Part} {m : String} {s t : Db} {c : Call StoreCall}
    (hstep : Program.Handled redis s c t) (h : ¬ c.op.Writes part m) : s.Same part m t := by
  obtain ⟨requests, hrun, hsends⟩ := redis_requests hstep
  refine run_same hrun (fun label hlabel => ?_) h
  obtain ⟨request, hmem, rfl⟩ := List.mem_map.mp hlabel
  exact ⟨request, rfl, hsends request hmem⟩

/-- The Redis store, when no other client comes in the middle of a method. -/
def keyed : Keyed Db where
  env := Program.Handled redis
  owner := Db.owner
  Same part m s t := s.Same part m t
  refl := Db.Same.refl
  trans := Db.Same.trans
  owner_of_same h := h.2
  mediationOf := by
    intro s t did answer hstep
    exact Except.ok.inj hstep.eq.1
  same := redis_same

end Redis

end Store
