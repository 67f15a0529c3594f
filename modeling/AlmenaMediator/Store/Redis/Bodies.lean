import AlmenaMediator.Store.Redis.Expiry

/-!
# Entries and bodies

A queued message is a stream entry and a body, two keys that expire and are deleted apart. `summary`
counts entries; `peek` delivers bodies, of the first entries it finds; `REMOVE` deletes the entry
that an id names and the body whose key the id spells.

## Main results

* `agrees_iff`: `peek` and `summary` see the same messages exactly when every entry has its body.
-/

namespace Store.Redis

open Script

variable {db db' : Db} {m : String}

/-! ## Status and delivery -/

/-- The entries for `recipient`, or all, that are within the TTL. -/
def waiting (db : Db) (m : String) (recipient : Option String) (now ttlSecs : ℕ) : List Entry :=
  ((db.entries m).filter fun e => now - ttlSecs ≤ receivedAt e).filter fun e =>
    recipient.all fun r => e.recipient == r

/-- The message of an entry, if its body is still stored. -/
def storedMessage (db : Db) (m : String) (e : Entry) : Option Queued :=
  (db.body m e.id.text).map fun body => queuedOf e body.value

/-- The messages for `recipient`, or all, whose bodies are still stored, oldest first. -/
def deliverable (db : Db) (m : String) (recipient : Option String)
    (now ttlSecs : ℕ) : List Queued :=
  (waiting db m recipient now ttlSecs).filterMap (storedMessage db m)

/-- `peek` returns the oldest messages that can be delivered, `summary` counts all of them. -/
structure Agrees (db : Db) (m : String) (recipient : Option String)
    (limit now ttlSecs : ℕ) : Prop where
  peek : (redis (.peek m recipient limit now ttlSecs) db).1 =
    .ok ((deliverable db m recipient now ttlSecs).take limit)
  summary : ∃ summary : QueueSummary,
    (redis (.summary m recipient now ttlSecs) db).1 = .ok summary ∧
    summary.count = (deliverable db m recipient now ttlSecs).length

/-- An entry is at or after the least id exactly when it was received within the time to live. -/
theorem not_lt_minId (e : Entry) (now ttlSecs : ℕ) :
    (!e.id.lt (minId now ttlSecs)) = decide (now - ttlSecs ≤ receivedAt e) := by
  have hlt := lt_minId e now ttlSecs
  rw [Bool.eq_iff_iff, Bool.not_eq_true', ← Bool.not_eq_true, hlt, Nat.not_lt, decide_eq_true_eq]

/-- Without a trim there are no entries. -/
theorem run_entriesFor_zero (db : Db) (m : String) (recipient : Option String) {now ttlSecs : ℕ}
    (h : now ≤ ttlSecs) : (entriesFor m recipient now ttlSecs).run.run server db =
      (.error "invalid end ID for the interval", db) := by
  have htrim : server (.trim m (minId now ttlSecs)) db =
      (.error "invalid end ID for the interval", db) := by
    rw [minId_eq_zero.mpr h]
    rfl
  rw [run_entriesFor, htrim]

/-- The entries that `summary` and `peek` go over. -/
theorem run_entriesFor_ok (db : Db) (m : String) (recipient : Option String) {now ttlSecs : ℕ}
    (h : ttlSecs < now) : ∃ db', (trim m (minId now ttlSecs)).exec db = (.ok (), db') ∧
      (entriesFor m recipient now ttlSecs).run.run server db =
        (.ok (waiting db m recipient now ttlSecs), db') ∧ db'.body = db.body := by
  have hzero : minId now ttlSecs ≠ ⟨0, 0⟩ := fun heq => by
    have := minId_eq_zero.mp heq
    omega
  obtain ⟨db', htrim, -, hbody, -⟩ := trim_ok db m hzero
  have hserver : server (.trim m (minId now ttlSecs)) db = (.ok (), db') := htrim
  refine ⟨db', htrim, ?_, hbody⟩
  rw [run_entriesFor, hserver]
  dsimp only
  rw [(entries_of_trim htrim).2.1, waiting]
  simp only [not_lt_minId]

/-- `summary` counts the entries that wait for the recipient. -/
theorem run_summary (db : Db) (m : String) (recipient : Option String) {now ttlSecs : ℕ}
    (h : ttlSecs < now) : ∃ summary : QueueSummary,
      (redis (.summary m recipient now ttlSecs) db).1 = .ok summary ∧
        summary.count = (waiting db m recipient now ttlSecs).length := by
  have hmethod : redis (.summary m recipient now ttlSecs) db =
      (entriesFor m recipient now ttlSecs >>= fun entries =>
        pure (entries.foldl countEntry ⟨0, none, none, 0⟩)).run.run server db := rfl
  obtain ⟨db', -, hentries, -⟩ := run_entriesFor_ok db m recipient h
  rw [hmethod, run_bind, hentries]
  exact ⟨_, rfl, by rw [Db.foldl_countEntry, Nat.zero_add]⟩

/-- Where everything is found, the first finds are the finds among the first. -/
theorem filterMap_take {α β : Type} {f : α → Option β} {xs : List α} (h : ∀ x ∈ xs, (f x).isSome)
    (n : ℕ) : (xs.take n).filterMap f = (xs.filterMap f).take n := by
  induction xs generalizing n with
  | nil => simp
  | cons x xs ih =>
    obtain ⟨hx, hxs⟩ := List.forall_mem_cons.mp h
    obtain ⟨y, hy⟩ := Option.isSome_iff_exists.mp hx
    cases n with
    | zero => rfl
    | succ n =>
      rw [List.take_succ_cons, List.filterMap_cons_some hy, List.filterMap_cons_some hy,
        List.take_succ_cons, ih hxs]

/-- With all bodies there, all that waits can be delivered. -/
theorem deliverable_length {recipient : Option String} {now ttlSecs : ℕ}
    (hbodies : ∀ e ∈ waiting db m recipient now ttlSecs, (db.body m e.id.text).isSome) :
    (deliverable db m recipient now ttlSecs).length = (waiting db m recipient now ttlSecs).length :=
  List.filterMap_length_eq_length.mpr fun e he => by simpa [storedMessage] using hbodies e he

/-- Where no body is missing, there is nothing to remove. -/
theorem filterMap_orphans {db : Db} {m : String} {entries : List Entry}
    (hstored : ∀ e ∈ entries, (storedMessage db m e).isSome) :
    (entries.map fun e => (e, ((fun id => (db.body m id).map Volatile.value) ∘
      fun e => e.id.text) e)).filterMap (fun (e, body) =>
        if body.isNone then some e.id.text else none) = ([] : List String) := by
  rw [List.filterMap_map, List.filterMap_eq_nil_iff]
  intro e he
  have hsome : (db.body m e.id.text).isSome := by simpa [storedMessage] using hstored e he
  obtain ⟨body, hbody⟩ := Option.isSome_iff_exists.mp hsome
  simp [hbody]

/-- `peek` hands out the first of the deliverable messages up to the limit, where every waiting
entry has a body. -/
theorem run_peek (db : Db) (m : String) (recipient : Option String) (limit : ℕ) {now ttlSecs : ℕ}
    (h : ttlSecs < now)
    (hbodies : ∀ e ∈ waiting db m recipient now ttlSecs, (db.body m e.id.text).isSome) :
    (redis (.peek m recipient limit now ttlSecs) db).1 =
      .ok ((deliverable db m recipient now ttlSecs).take limit) := by
  have hstored : ∀ e ∈ waiting db m recipient now ttlSecs, (storedMessage db m e).isSome :=
    fun e he => by
    simpa [storedMessage] using hbodies e he
  rw [deliverable, ← filterMap_take hstored]
  obtain ⟨db', -, hentries, hbody⟩ := run_entriesFor_ok db m recipient h
  change ((peek m recipient limit now ttlSecs).run.run server db).1 = _
  rw [peek, run_bind, hentries]
  dsimp only
  generalize hfirst : (waiting db m recipient now ttlSecs).take limit = entries
  have hstored' : ∀ e ∈ entries, (storedMessage db m e).isSome := fun e he => hstored e
    (List.mem_of_mem_take (hfirst ▸ he))
  split
  · subst ‹entries = []›
    rfl
  -- MGET finds every body, so no orphan is left to be removed
  have hread : server (.bodies m (entries.map fun e => e.id.text)) db' = (.ok ((entries.map
      fun e => e.id.text).map fun id => (db.body m id).map Volatile.value), db') := by
    rw [← hbody]
    rfl
  rw [run_bind, run_send, hread]
  dsimp only
  rw [List.map_map, zip_map_self]
  rw [filterMap_orphans hstored', if_neg (by simp)]
  change Except.ok _ = Except.ok _
  rw [List.filterMap_map]
  congr 1
  refine List.filterMap_congr fun e _ => ?_
  simp [storedMessage, Option.map_map, Function.comp_def]

/-- Where nothing is waiting, a `peek` is a trim, and the summary after it counts nothing. -/
theorem run_peek_nothing (limit : ℕ) {recipient : Option String} {now ttlSecs : ℕ}
    (hlt : ttlSecs < now) (hnothing : waiting db m recipient now ttlSecs = []) : ∃ db' summary,
      redis (.peek m recipient limit now ttlSecs) db = (.ok [], db') ∧
      (redis (.summary m recipient now ttlSecs) db').1 = .ok summary ∧ summary.count = 0 := by
  obtain ⟨db', htrim, hentries, -⟩ := run_entriesFor_ok db m recipient hlt
  obtain ⟨summary, hsummary, hcount⟩ := run_summary db m recipient hlt
  rw [hnothing] at hentries hcount
  refine ⟨db', summary, ?_, ?_, hcount⟩
  · change (peek m recipient limit now ttlSecs).run.run server db = _
    rw [peek, run_bind, hentries]
    dsimp only
    rw [List.take_nil, if_pos rfl]
    rfl
  · have hsweeps : (Op.summary m recipient now ttlSecs).Sweeps m now ttlSecs := ⟨rfl, rfl, rfl⟩
    rwa [← redis_sweeps hsweeps htrim]

/-- `summary` and `peek` agree exactly when the TTL is below the time and the entries within it all
have their bodies. -/
theorem agrees_iff (db : Db) (m : String) (recipient : Option String) (limit now ttlSecs : ℕ) :
    Agrees db m recipient limit now ttlSecs ↔ ttlSecs < now ∧
      ∀ e ∈ waiting db m recipient now ttlSecs, (db.body m e.id.text).isSome := by
  constructor
  · intro hagrees
    obtain ⟨summary, hsummary, hcount⟩ := hagrees.summary
    -- a trim to the id 0-0 is an error in Redis, and then there is no summary
    have hlt : ttlSecs < now := by
      by_contra hge
      have hmethod : redis (.summary m recipient now ttlSecs) db =
          (entriesFor m recipient now ttlSecs >>= fun entries =>
            pure (entries.foldl countEntry ⟨0, none, none, 0⟩)).run.run server db := rfl
      rw [hmethod, run_bind, run_entriesFor_zero db m recipient (Nat.not_lt.mp hge)] at hsummary
      nomatch hsummary
    obtain ⟨summary', hsummary', hcount'⟩ := run_summary db m recipient hlt
    obtain rfl : summary = summary' := Except.ok.inj (hsummary.symm.trans hsummary')
    have hfound := List.filterMap_length_eq_length.mp (hcount.symm.trans hcount')
    exact ⟨hlt, fun e he => by simpa [storedMessage] using hfound e he⟩
  · rintro ⟨hlt, hbodies⟩
    obtain ⟨summary, hsummary, hcount⟩ := run_summary db m recipient hlt
    exact ⟨run_peek db m recipient limit hlt hbodies, summary, hsummary,
      hcount.trans (deliverable_length hbodies).symm⟩

end Store.Redis
