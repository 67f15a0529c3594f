import AlmenaMediator.Store.Queues

/-!
# Queues in Redis

`RedisStore` as a `QueueStore`. An entry leaves its stream when `REMOVE` is given an id that Redis
reads as the entry's, when `XTRIM` finds it older than the TTL, when its mediation is removed, when
its body is gone and `peek` comes across it, or with the whole stream when the key expires.
-/

namespace Store.Redis

open Script

/-! ## Methods as runs -/

/-- A method goes on with the result of its first part, or ends with its error. -/
theorem run_bind {α β : Type} (x : Method α) (f : α → Method β) (db : Db) :
    (x >>= f).run.run server db = match x.run.run server db with
      | (.ok a, db') => (f a).run.run server db'
      | (.error e, db') => (.error e, db') := by
  rw [ExceptT.run_bind, Program.run_bind]
  rcases x.run.run server db with ⟨a | a, db'⟩ <;> rfl

/-- A request alone is answered by the server. -/
theorem run_send (r : Request) (db : Db) : (send r).run.run server db = server r db := rfl

/-- The entries are read after the trim. -/
theorem run_entriesFor (m : String) (recipient : Option String) (now ttlSecs : ℕ) (db : Db) :
    (entriesFor m recipient now ttlSecs).run.run server db =
      match server (.trim m (minId now ttlSecs)) db with
      | (.ok _, db') =>
        (.ok ((db'.entries m).filter fun e => recipient.all fun r => e.recipient == r), db')
      | (.error e, db') => (.error e, db') := by
  rw [entriesFor, run_bind, run_send]
  rcases server (.trim m (minId now ttlSecs)) db with ⟨error | _, db'⟩ <;> rfl

/-- A mediation that was seen meanwhile is passed over, and another one is removed first. -/
theorem run_removeMediations_cons (cutoff : ℕ) (first : String) (rest : List String) (db : Db) :
    (server (.removeMediation first cutoff) db = (.ok (0 : ℕ), db) ∧
      (removeMediations cutoff (first :: rest)).run.run server db =
        (removeMediations cutoff rest).run.run server db) ∨
    (∃ db₁, server (.removeMediation first cutoff) db = (.ok (1 : ℕ), db₁) ∧
      ∀ removed db₂, (removeMediations cutoff rest).run.run server db₁ = (.ok removed, db₂) →
        (removeMediations cutoff (first :: rest)).run.run server db =
          (.ok (first :: removed), db₂)) := by
  have hfirst := exec_removeMediation first cutoff db
  change (_ ∧ server (.removeMediation first cutoff) db = _) ∨
    (_ ∧ ∃ _, server (.removeMediation first cutoff) db = _) at hfirst
  rw [removeMediations, run_bind, run_send]
  -- either the script refuses and nothing changes, or it deletes and answers one
  rcases hfirst with ⟨-, hkept⟩ | ⟨-, body, hgone⟩
  · refine .inl ⟨hkept, ?_⟩
    rw [hkept]
    dsimp only
    rw [run_bind]
    rcases (removeMediations cutoff rest).run.run server db with ⟨error | removed, db₂⟩ <;> rfl
  · refine .inr ⟨_, hgone, fun removed db₂ hrun => ?_⟩
    rw [hgone]
    dsimp only
    rw [run_bind, hrun]
    rfl

/-- The mediations removed lose what they have, and the others keep their grants and queues. -/
theorem run_removeMediations (cutoff : ℕ) (idle : List String) (db : Db) :
    ∃ removed db', (removeMediations cutoff idle).run.run server db = (.ok removed, db') ∧
      ∀ m, m ∉ removed → db'.queue m = db.queue m ∧ db'.granted m = db.granted m := by
  induction idle generalizing db with
  | nil => exact ⟨[], db, rfl, fun _ _ => ⟨rfl, rfl⟩⟩
  | cons first rest ih =>
    -- the script answers 0 where the mediation was active after all
    rcases run_removeMediations_cons cutoff first rest db with ⟨-, hrun⟩ | ⟨db₁, hgone, hrun⟩
    · rw [hrun]
      exact ih db
    · obtain ⟨removed, db₂, hrest, hkept⟩ := ih db₁
      refine ⟨first :: removed, db₂, hrun removed db₂ hrest, fun m hm => ?_⟩
      rw [List.mem_cons, not_or] at hm
      obtain ⟨hqueue, hgranted⟩ := hkept m hm.2
      rw [hqueue, hgranted]
      rcases exec_removeMediation first cutoff db with ⟨-, heq⟩ | ⟨-, body, heq⟩
      · exact nomatch (Prod.mk.inj (heq.symm.trans hgone)).1
      · obtain rfl := (Prod.mk.inj (heq.symm.trans hgone)).2
        exact ⟨Function.update_of_ne hm.1 _ _, Function.update_of_ne hm.1 _ _⟩

/-- The cleanup reads the idle mediations and removes them one by one. -/
theorem redis_removeIdleMediations (cutoff limit : ℕ) (db : Db) :
    redis (.removeIdleMediations cutoff limit) db =
      if maxLimit < limit then (.error "value is not an integer or out of range", db)
      else (removeMediations cutoff (zrange cutoff limit db.seen)).run.run server db := by
  have hmethod : redis (.removeIdleMediations cutoff limit) db =
      (send (.seenBy cutoff limit) >>= removeMediations cutoff).run.run server db := rfl
  have hseen : server (.seenBy cutoff limit) db = (zrangeLimit Db.seen cutoff limit).exec db := rfl
  rw [hmethod, run_bind, run_send, hseen, zrangeLimit, exec_ite]
  by_cases hlimit : maxLimit < limit
  · rw [if_pos hlimit, if_pos hlimit]
    rfl
  · rw [if_neg hlimit, if_neg hlimit]
    rfl

/-! ## What requests leave in a stream -/

section Entries

variable {db : Db} {m : String} {e : Entry}

/-- An entry that meets the test is still there after the others are deleted. -/
theorem mem_entries_keepEntries {m' : String} {p : Entry → Bool} (he : e ∈ db.entries m)
    (hp : m' = m → p e) : e ∈ (db.keepEntries m' p).entries m := by
  by_cases hm : m' = m
  · subst hm
    rw [Db.entries_keepEntries, List.mem_filter]
    exact ⟨he, hp rfl⟩
  · rwa [Db.entries, Db.queue_keepEntries db m' p (Ne.symm hm)]

/-- A request does not take the entry out of the stream of `m`. -/
def Spares (m : String) (e : Entry) : Request → Prop
  | .enqueue m' minId _ _ _ _ _ _ | .trim m' minId => m' = m → ¬ e.id.lt minId
  | .remove m' ids => m' = m → ∀ id ∈ ids, StreamId.parse id ≠ some e.id
  | .removeMediation m' _ => m' ≠ m
  | _ => True

/-- TRIM keeps every entry that is not below the least id. -/
theorem keeps_trim_entry {m' : String} {minId : StreamId} (h : m' = m → ¬ e.id.lt minId) :
    Keeps (fun db => e ∈ db.entries m) (trim m' minId) := by
  refine keeps_bind (keeps_ite (keeps_abort _) (keeps_read _)) fun _ => keeps_bind (keeps_write ?_)
    fun _ => keeps_uncount (fun _ _ hdb => hdb) _
  intro db he
  exact mem_entries_keepEntries he fun hm => by simpa using h hm

/-- The stream with one more entry still has those it had. -/
theorem keeps_addEntry_entry (m' recipient : String) (size : ℕ) (body : String) (ttl : ℕ) :
    Keeps (fun db => e ∈ db.entries m) (addEntry m' recipient size body ttl) := by
  refine keeps_bind ?_ fun id => keeps_bind ?_ fun _ =>
    keeps_bind (keeps_incrBytes (fun _ _ hdb => hdb) _) fun _ => keeps_bind ?_ fun _ =>
    keeps_bind ?_ fun _ => keeps_pure _
  · -- `XADD` writes the stream it read
    intro db he
    simp only [xadd, exec_bind, exec_read, exec_write, exec_pure]
    by_cases hm : m = m'
    · subst hm
      simp only [Db.entries, Function.update_self, Option.map_some, Option.getD_some] at he ⊢
      refine List.mem_append_left _ ?_
      cases hq : db.queue m <;> simp_all
    · simpa only [Db.entries, Function.update_of_ne hm] using he
  · exact keeps_bind (keeps_deadlineIn ttl) fun _ => keeps_write fun _ hdb => hdb
  · refine keeps_bind (keeps_deadlineIn ttl) fun _ => keeps_write fun db he => ?_
    by_cases hm : m = m'
    · subst hm
      simp only [Db.entries, Function.update_self] at he ⊢
      cases hq : db.queue m <;> simp_all
    · simpa only [Db.entries, Function.update_of_ne hm] using he
  · exact keeps_bind (keeps_deadlineIn ttl) fun _ => keeps_write fun _ hdb => hdb

/-- The loop of REMOVE keeps every entry whose id is not among the ids it is given. -/
theorem keeps_removeLoop_entry {m' : String} {ids : List String}
    (h : m' = m → ∀ id ∈ ids, StreamId.parse id ≠ some e.id) (removed freed : ℕ) :
    Keeps (fun db => e ∈ db.entries m) (removeLoop m' ids removed freed) := by
  induction ids generalizing removed freed with
  | nil => exact keeps_pure _
  | cons id rest ih =>
    have hrest : ∀ removed freed,
        Keeps (fun db => e ∈ db.entries m) (removeLoop m' rest removed freed) :=
      ih fun hm id' hid' => h hm id' (List.mem_cons_of_mem _ hid')
    intro db he
    cases hsid : StreamId.parse id with
    | none =>
      simp only [removeLoop, xrangeId, hsid, exec_bind, exec_abort]
      exact he
    | some sid =>
      cases hfind : (db.entries m').find? fun x => x.id == sid with
      | none =>
        simp only [removeLoop, xrangeId, hsid, exec_bind, exec_read, hfind, delBody, exec_write]
        exact hrest _ _ _ he
      | some x =>
        have hx : x.id = sid := by simpa using List.find?_some hfind
        simp only [removeLoop, xrangeId, hsid, exec_bind, exec_read, hfind,
          xdel, exec_write, exec_pure, delBody]
        refine hrest _ _ _ ?_
        refine mem_entries_keepEntries he fun hm => ?_
        -- what is deleted has the id that was asked for, which is not the entry's
        have hne := h hm id List.mem_cons_self
        rw [hsid, ← hx] at hne
        simpa using fun heq : e.id = x.id => hne (by rw [heq])

/-- A request that spares an entry leaves it in the stream. -/
theorem keeps_entry {request : Request} (h : Spares m e request) :
    Keeps (fun db => e ∈ db.entries m) request.script := by
  -- a request that does not touch the queues keeps every entry
  by_cases htouches : request.Touches .queues
  · cases request with
    | enqueue m' minId maxMessages maxBytes recipient size body ttl =>
      exact keeps_bind (keeps_trim_entry h) fun _ => keeps_bind (keeps_read _) fun _ =>
        keeps_ite (keeps_pure _) (keeps_bind (keeps_read _) fun _ => keeps_ite (keeps_pure _)
          (keeps_bind (keeps_addEntry_entry m' recipient size body ttl) fun _ => keeps_pure _))
    | trim m' minId => exact keeps_trim_entry h
    | remove m' ids =>
      exact keeps_bind (keeps_removeLoop_entry h 0 0) fun _ =>
        keeps_bind (keeps_uncount (fun _ _ hdb => hdb) _) fun _ => keeps_pure _
    | removeMediation m' cutoff =>
      intro db he
      rcases exec_removeMediation m' cutoff db with ⟨-, heq⟩ | ⟨-, body, heq⟩
      · change e ∈ ((removeMediation m' cutoff).exec db).2.entries m
        rwa [heq]
      · change e ∈ ((removeMediation m' cutoff).exec db).2.entries m
        rw [heq]
        simpa only [Db.entries, Function.update_of_ne (Ne.symm h)] using he
    | _ => exact htouches.elim
  · intro db he
    obtain ⟨hqueue, -⟩ := server_sameArea htouches db
    change e ∈ Db.entries (server request db).2 m
    rwa [Db.entries, hqueue]

/-- An id that Redis writes is read as no other. -/
theorem StreamId.eq_of_parse_text {id id' : StreamId}
    (h : parse id.text = some id') : id = id' := by
  have hparse : parse id.text = (parseU64 (Nat.toDigits 10 id.ms)).bind fun ms =>
      (parseU64 (Nat.toDigits 10 id.seq)).bind fun seq => some ⟨ms, seq⟩ := by
    simp [parse, text, splitOnce_queueId]
  have hread : ∀ {n k : ℕ}, parseU64 (Nat.toDigits 10 n) = some k → n = k := by
    intro n k hk
    rw [parseU64, decimal_toDigits, Option.filter_eq_some_iff] at hk
    exact Option.some_inj.mp hk.1
  rw [hparse] at h
  obtain ⟨ms, hms, h⟩ := Option.bind_eq_some_iff.mp h
  obtain ⟨seq, hseq, h⟩ := Option.bind_eq_some_iff.mp h
  rw [← Option.some_inj.mp h, ← hread hms, ← hread hseq]

/-- Requests that spare an entry leave it in the stream, however many. -/
theorem mem_entries_run {α : Type} {x : Method α}
    (hx : x.run.Ensures (fun _ _ => True) (Spares m e) fun _ => True) (he : e ∈ db.entries m) :
    e ∈ Db.entries (x.run.run server db).2 m := by
  refine (hx.sound (fun db => e ∈ db.entries m) ?_ he (Program.run_executes server _ db)).2.1
  intro s c t hs hspares hstep
  refine ⟨trivial, ?_⟩
  have hkeeps := keeps_entry hspares s hs
  have ht : (c.op.script.exec s).2 = t := congrArg Prod.snd hstep
  rwa [ht] at hkeeps

/-- No method of the Redis store turns the server's clock. -/
theorem clock_run {α : Type} (x : Method α)
    (db : Db) : (x.run.run server db).2.clock = db.clock := by
  have hx : x.run.Ensures (fun _ _ => True) (fun _ => True) fun _ => True := by
    generalize x.run = p
    induction p with
    | done a => trivial
    | call op next ih => exact ⟨trivial, fun r _ => ih r⟩
  refine (hx.sound (fun t => t.clock = db.clock) ?_ rfl (Program.run_executes server _ db)).2.1
  intro s c t hs _ hstep
  have ht : (server c.op s).2 = t := congrArg Prod.snd hstep
  have hclock : (server c.op s).2.clock = s.clock := server_sameArea c.op.not_touches_clock s
  exact ⟨trivial, ht ▸ hclock.trans hs⟩

/-- Entries next to what was read for each. -/
theorem zip_map_self (entries : List Entry) (g : Entry → Option String) :
    entries.zip (entries.map g) = entries.map fun e => (e, g e) := by
  simpa using List.zip_map' (f := fun e : Entry => e) (g := g) (l := entries)

/-- A `peek` removes entries without a body, and those older than the TTL. -/
theorem mem_entries_peek {m' : String} {now ttlSecs : ℕ} (recipient : Option String) (limit : ℕ)
    (hyoung : m' = m → ¬ e.id.lt (minId now ttlSecs)) (hbody : m' = m → db.body m e.id.text ≠ none)
    (he : e ∈ db.entries m) :
    e ∈ Db.entries ((peek m' recipient limit now ttlSecs).run.run server db).2 m := by
  have htrimmed : (entriesFor m' recipient now ttlSecs).run.Ensures (fun _ _ => True)
      (Spares m e) fun _ => True := by
    refine entriesFor_sends.mono (fun _ _ h => h) (fun r hr => ?_) fun _ h => h
    rcases hr with rfl | rfl
    · exact hyoung
    · trivial
  have hstays := mem_entries_run htrimmed he
  -- the bodies are those from before the trim
  have hbodies : ((entriesFor m' recipient now ttlSecs).run.run server db).2.body = db.body := by
    refine (entriesFor_sends.sound (fun t => t.body = db.body) ?_ rfl
      (Program.run_executes server _ db)).2.1
    rintro s ⟨op, reply⟩ t hs hop hstep
    have ht : (op.script.exec s).2 = t := congrArg Prod.snd hstep
    refine ⟨trivial, ?_⟩
    rcases hop with hop | hop
    · obtain rfl : op = _ := hop
      have hkeeps : Keeps (fun t => t.body = db.body) (trim m' (minId now ttlSecs)) :=
        keeps_trim (fun _ _ h => h) (fun _ _ h => h) _
      exact ht ▸ hkeeps s hs
    · obtain rfl : op = _ := hop
      exact ht ▸ hs
  rw [peek, run_bind]
  rcases hrun : (entriesFor m' recipient now ttlSecs).run.run server db with ⟨error | entries, db₁⟩
  · rwa [hrun] at hstays
  · rw [hrun] at hstays hbodies
    dsimp only at hstays hbodies ⊢
    generalize entries.take limit = entries
    split
    · exact hstays
    · have hread : server (.bodies m' (entries.map fun x => x.id.text)) db₁ = (.ok ((entries.map
          fun x => x.id.text).map fun id => (db₁.body m' id).map Volatile.value), db₁) := rfl
      rw [run_bind, run_send, hread]
      dsimp only
      refine mem_entries_run ?_ hstays
      split
      · rw [Program.ensures_exceptT_bind]
        refine (removeIds_sends _ _).mono (fun _ _ h => h) (fun r hr => ?_) fun result _ => ?_
        · obtain rfl : r = _ := hr
          rintro rfl id hid hparse
          obtain ⟨⟨x, body⟩, hx, horphan⟩ := List.mem_filterMap.mp (List.mem_of_mem_filter hid)
          rw [List.map_map, zip_map_self] at hx
          obtain ⟨y, -, hy⟩ := List.mem_map.mp hx
          obtain ⟨rfl, rfl⟩ := Prod.mk.inj hy
          simp only [Function.comp_apply, Option.isNone_map, Option.ite_none_right_eq_some,
            Option.isNone_iff_eq_none, Option.some_inj] at horphan
          obtain ⟨hgone, rfl⟩ := horphan
          rw [StreamId.eq_of_parse_text hparse, hbodies] at hgone
          exact hbody rfl hgone
        · cases result <;> trivial
      · trivial

end Entries

/-! ## The store -/

namespace Db

/-- The ids in the queue of a mediation. -/
def queuedIn (db : Db) (m : String) : List String := (db.entries m).map fun e => e.id.text

/-- What takes an entry out of the stream of `m`, when the server's time is `clock` by then. -/
inductive EntryEnds (db : Db) (clock : ℕ) (m : String) (e : Entry) : Call StoreCall → Prop
  /-- The call acknowledges it. -/
  | acknowledged {c : Call StoreCall} {ids : List String} {id : String} (hop : c.op = .remove m ids)
      (hid : id ∈ ids) (hparse : StreamId.parse id = some e.id) : EntryEnds db clock m e c
  /-- The call removes its mediation. -/
  | removed {cutoff limit : ℕ} {removed : List String} (hm : m ∈ removed) :
      EntryEnds db clock m e ⟨.removeIdleMediations cutoff limit, .ok removed⟩
  /-- It is older than the TTL of the call. -/
  | expired {c : Call StoreCall} {now ttlSecs : ℕ} (hop : c.op.Sweeps m now ttlSecs)
      (hold : e.id.lt (minId now ttlSecs)) : EntryEnds db clock m e c
  /-- The stream has expired. -/
  | streamExpired {c : Call StoreCall} {v : Volatile Stream} (hqueue : db.queue m = some v)
      (hdead : v.alive clock = false) : EntryEnds db clock m e c
  /-- The call reads the messages, and the body of this one has expired. -/
  | bodyExpired {c : Call StoreCall} {recipient : Option String} {limit now ttlSecs : ℕ}
      (hop : c.op = .peek m recipient limit now ttlSecs)
      (hdead : (db.body m e.id.text).filter (Volatile.alive clock) = none) :
        EntryEnds db clock m e c

/-- An entry stays in its stream until something ends it. -/
theorem stays {db db' : Db} {c : Call StoreCall} {m : String} {e : Entry}
    (hstep : RedisStep db c db')
    (he : e ∈ db.entries m) : e ∈ db'.entries m ∨ EntryEnds db db'.clock m e c := by
  obtain ⟨ms, hhandled⟩ := hstep
  obtain ⟨op, reply⟩ := c
  obtain ⟨hreply, rfl⟩ := hhandled.eq
  have hclock : (redis op (db.advance ms)).2.clock = db.clock + ms := clock_run (method op) _
  rw [hclock]
  cases hqueue : db.queue m with
  | none =>
    rw [Db.entries, hqueue] at he
    exact absurd he List.not_mem_nil
  | some v =>
  by_cases halive : v.alive (db.clock + ms)
  swap
  · exact .inr (.streamExpired hqueue (Bool.eq_false_iff.mpr halive))
  have hentries : e ∈ (db.advance ms).entries m := by
    have hsame : (db.advance ms).queue m = db.queue m := by
      change (db.queue m).filter (Volatile.alive (db.clock + ms)) = db.queue m
      rw [hqueue, Option.filter_some, if_pos halive]
    rwa [Db.entries, hsame]
  -- the requests of most methods spare the entry, unless the call is one that ends it
  by_cases hends : EntryEnds db (db.clock + ms) m e ⟨op, reply⟩
  · exact .inr hends
  left
  have hspared : (∀ r, Sends op r → Spares m e r) → e ∈ Db.entries (redis op (db.advance ms)).2 m :=
    fun hspares => mem_entries_run ((method_sends op).mono (fun _ _ h => h) hspares
      fun _ h => h) hentries
  cases op with
  | enqueue m' recipient message now limits =>
    refine hspared fun r hr => ?_
    obtain rfl : r = _ := hr
    rintro rfl hold
    exact hends (.expired ⟨rfl, rfl, rfl⟩ hold)
  | summary m' recipient now ttlSecs =>
    refine hspared fun r hr => ?_
    rcases hr with rfl | rfl
    · rintro rfl hold
      exact hends (.expired ⟨rfl, rfl, rfl⟩ hold)
    · trivial
  | remove m' ids =>
    refine hspared fun r hr => ?_
    obtain rfl : r = _ := hr
    rintro rfl id hid hparse
    exact hends (.acknowledged rfl (List.mem_of_mem_filter hid) hparse)
  | peek m' recipient limit now ttlSecs =>
    refine mem_entries_peek recipient limit ?_ ?_ hentries
    · rintro rfl hold
      exact hends (.expired ⟨rfl, rfl, rfl⟩ hold)
    · rintro rfl hgone
      exact hends (.bodyExpired rfl hgone)
  | removeIdleMediations cutoff limit =>
    rw [redis_removeIdleMediations] at hreply ⊢
    split at hreply
    · rwa [if_pos ‹_›]
    · rw [if_neg ‹_›]
      obtain ⟨removed, db₂, hrun, hkept⟩ :=
        run_removeMediations cutoff (zrange cutoff limit (db.advance ms).seen) (db.advance ms)
      rw [hrun] at hreply ⊢
      obtain rfl : reply = _ := hreply
      have hm : m ∉ removed := fun hm => hends (.removed hm)
      rwa [Db.entries, (hkept m hm).1]
  | _ =>
    refine hspared fun r hr => ?_
    obtain rfl : r = _ := hr
    trivial

/-- The id that `ENQUEUE` returns is in the stream. -/
theorem added (db : Db) (m : String) (minId : StreamId) (maxMessages maxBytes : ℕ)
    (recipient : String) (size : ℕ) (body : String) (ttl : ℕ) :
    (enqueue m minId maxMessages maxBytes recipient size body ttl).Meets
      (fun result db' => ∀ id, result = some id → id ∈ db'.queuedIn m) (fun _ => True) db := by
  rw [enqueue, meets_bind]
  -- whatever the trim left, the new entry is added behind it
  refine meets_of_forall (fun _ trimmed => ?_) fun _ => trivial
  simp only [meets_bind, meets_read, meets_ite, meets_pure]
  split
  · exact fun id hnone => absurd hnone.symm (Option.some_ne_none id)
  split
  · exact fun id hnone => absurd hnone.symm (Option.some_ne_none id)
  simp only [addEntry, xadd, setBody, incrBytes, expireQueue, expireBytes, deadlineIn, meets_bind,
    meets_read, meets_write, meets_pure, meets_ite, meets_abort]
  split_ifs
  rintro id hid
  obtain rfl := Option.some_inj.mp hid
  simp [queuedIn, Db.entries]

/-- Entries are counted one by one. -/
theorem foldl_countEntry (entries : List Entry) (summary : QueueSummary) :
    (entries.foldl countEntry summary).count = summary.count + entries.length := by
  induction entries generalizing summary with
  | nil => rfl
  | cons e rest ih =>
    rw [List.foldl_cons, ih, List.length_cons]
    change summary.count + 1 + rest.length = _
    omega

/-- A summary counts the entries it leaves. -/
theorem counted {db db' : Db} {m : String} {now ttlSecs : ℕ} {summary : QueueSummary}
    (h : redis (.summary m none now ttlSecs) db = (.ok summary, db')) :
    summary.count = (db'.entries m).length := by
  have hmethod : redis (.summary m none now ttlSecs) db =
    (entriesFor m none now ttlSecs >>= fun entries =>
      pure (entries.foldl countEntry ⟨0, none, none, 0⟩)).run.run server db := rfl
  rw [hmethod, run_bind, run_entriesFor] at h
  rcases htrim : server (.trim m (minId now ttlSecs)) db with ⟨error | _, trimmed⟩
  · rw [htrim] at h
    cases h
  · rw [htrim] at h
    cases h
    rw [foldl_countEntry]
    simp

end Db

/-- `RedisStore`. -/
def queueStore : QueueStore Db where
  env := RedisStep
  queue := Db.queuedIn
  Ends db c db' m id := ∃ e ∈ db.entries m, e.id.text = id ∧ db.EntryEnds db'.clock m e c
  added {db db' m recipient message now limits id} hstep := by
    obtain ⟨ms, hhandled⟩ := hstep
    have hadded := Db.added (db.advance ms) m (minId now limits.ttlSecs) limits.maxMessages
      limits.maxBytes recipient message.utf8ByteSize message (max limits.ttlSecs 1)
    have hexec : (enqueue m (minId now limits.ttlSecs) limits.maxMessages limits.maxBytes recipient
      message.utf8ByteSize message (max limits.ttlSecs 1)).exec
        (db.advance ms) = (.ok (some id), db') :=
      hhandled
    rw [Script.Meets, hexec] at hadded
    exact hadded id rfl
  counted hstep := by
    obtain ⟨ms, hhandled⟩ := hstep
    rw [Db.counted hhandled, Db.queuedIn, List.length_map]
  stays hstep hid := by
    obtain ⟨e, he, rfl⟩ := List.mem_map.mp hid
    rcases Db.stays hstep he with hstay | hends
    · exact .inl (List.mem_map_of_mem hstay)
    · exact .inr ⟨e, he, rfl, hends⟩

end Store.Redis
