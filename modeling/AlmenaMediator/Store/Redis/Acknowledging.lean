import AlmenaMediator.Store.Redis.Expiry
import Mathlib.Algebra.BigOperators.Group.List.Basic

/-!
# Acknowledging messages

`REMOVE` uses an id twice: as a stream id, which Redis also reads with leading zeros and refuses
from `2^64` on, and as the end of a body's key, where the spelling counts. The entries that go and
the bodies that go are the same when every id is one Redis reads, and an id that it reads as that of
an entry comes with the entry's own spelling.

## Main results

* `frees_iff`: one call of `remove` frees what it should exactly under that condition;
* `acknowledging_frees_iff`: so it does in every state that runs of such calls reach, where no body
  outlives its entry.
-/

namespace Store.Redis

open Script

variable {db db' : Db} {m : String}

/-! ## The loop of `REMOVE` -/

/-- Redis reads an id of the list as the entry's. -/
def named (ids : List String) (e : Entry) : Bool := ids.any fun id => StreamId.parse id == some e.id

/-- One entry has an id, and the others are counted without it. -/
theorem length_filter_or {xs : List Entry} (h : xs.Pairwise fun a b => a.id.lt b.id) {x : Entry}
    (hx : x ∈ xs) (p : Entry → Bool) : (xs.filter fun e => x.id == e.id || p e).length =
      1 + ((xs.filter fun e => e.id != x.id).filter p).length := by
  have hone : (xs.filter fun e => e.id == x.id).countP (fun e => x.id == e.id || p e) = 1 := by
    rw [filter_id h hx]
    simp
  have hrest : (xs.filter fun e => !(e.id == x.id)).countP (fun e => x.id == e.id || p e) =
      (xs.filter fun e => e.id != x.id).countP p := by
    refine List.countP_congr fun e he => ?_
    have hne : (x.id == e.id) = false := by
      rw [Bool.beq_comm]
      simpa using (List.mem_filter.mp he).2
    rw [hne, Bool.false_or]
  rw [← List.countP_eq_length_filter, ← List.countP_eq_length_filter,
    List.countP_eq_countP_filter_add _ _ (fun e => e.id == x.id), hone, hrest]

/-- Over ids that Redis reads, the loop deletes the entries they name and the bodies they spell. -/
theorem removeLoop_removes {ids : List String}
    (hordered : (db.entries m).Pairwise fun a b => a.id.lt b.id)
    (hids : ∀ id ∈ ids, (StreamId.parse id).isSome) (removed freed : ℕ) :
    (removeLoop m ids removed freed).Meets
      (fun r t => (r.1 = removed + ((db.entries m).filter (named ids)).length ∧
        t.entries m = (db.entries m).filter fun e => !named ids e) ∧
        t.body = Function.update db.body m (fun id => if id ∈ ids then none else db.body m id) ∧
        t.bytes = db.bytes ∧ ∀ m' ≠ m, t.queue m' = db.queue m')
      (fun _ => False) db := by
  induction ids generalizing db removed freed with
  | nil =>
    refine ⟨⟨by simp [named], by simp [named]⟩, ?_, rfl, fun _ _ => rfl⟩
    simp
  | cons id rest ih =>
    rw [List.forall_mem_cons] at hids
    obtain ⟨sid, hsid⟩ := Option.isSome_iff_exists.mp hids.1
    have hnamed (e : Entry) : named (id :: rest) e = (sid == e.id || named rest e) := by
      simp [named, hsid]
    -- the body of the first id goes at once, those of the rest by induction
    have hbodies (t : Db) (ht : t.body = db.body) :
        Function.update (Function.update t.body m (Function.update (t.body m) id none)) m
          (fun id' => if id' ∈ rest then none else
            Function.update t.body m (Function.update (t.body m) id none) m id') =
        Function.update db.body m (fun id' =>
          if id' ∈ id :: rest then none else db.body m id') := by
      rw [ht, Function.update_idem]
      congr 1
      funext id'
      by_cases hid' : id' = id
      · subst hid'
        simp
      · simp [hid']
    simp only [removeLoop, xrangeId, hsid, meets_bind, meets_read]
    cases hfind : (db.entries m).find? fun e => e.id == sid with
    | none =>
      simp only [delBody, meets_bind, meets_write]
      -- no entry has the id, so the loop counts nothing for it
      have hnot : ∀ e ∈ db.entries m, (sid == e.id) = false := fun e he => by
        have hne := List.find?_eq_none.mp hfind e he
        exact beq_false_of_ne fun heq => hne (beq_iff_eq.mpr heq.symm)
      refine Meets.mono (ih ?_ hids.2 removed freed) (fun r t ht => ?_) fun _ hfalse => hfalse
      · exact hordered
      · obtain ⟨⟨hremoved, hentries⟩, hbody, hbytes, hqueue⟩ := ht
        have hsame : ∀ e ∈ db.entries m, named (id :: rest) e = named rest e := fun e he => by
          rw [hnamed, hnot e he, Bool.false_or]
        refine ⟨⟨?_, ?_⟩, hbody.trans (hbodies db rfl), hbytes, hqueue⟩
        · rw [hremoved, List.filter_congr hsame]
          rfl
        · rw [hentries]
          exact List.filter_congr fun e he => by rw [hsame e he]
    | some x =>
      -- the one entry of the id is deleted and counted
      have hx : x ∈ db.entries m := List.mem_of_find?_eq_some hfind
      obtain rfl : x.id = sid := by simpa using List.find?_some hfind
      simp only [xdel, delBody, meets_bind, meets_read, meets_write, meets_pure]
      refine Meets.mono (ih ?_ hids.2 _ _) (fun r t ht => ?_) fun _ hfalse => hfalse
      · change ((db.keepEntries m fun e => e.id != x.id).entries m).Pairwise _
        rw [Db.entries_keepEntries]
        exact hordered.filter _
      · obtain ⟨⟨hremoved, hentries⟩, hbody, hbytes, hqueue⟩ := ht
        change r.1 =
          _ + (((db.keepEntries m fun e => e.id != x.id).entries m).filter _).length at hremoved
        change t.entries m =
          ((db.keepEntries m fun e => e.id != x.id).entries m).filter _ at hentries
        rw [Db.entries_keepEntries] at hremoved hentries
        refine ⟨⟨?_, ?_⟩, hbody.trans (hbodies _ rfl), hbytes, fun m' hm => (hqueue m' hm).trans
          (Db.queue_keepEntries db m _ hm)⟩
        · have hany : (db.entries m).any (fun e => e.id == x.id) = true :=
            List.any_eq_true.mpr ⟨x, hx, beq_self_eq_true _⟩
          rw [hremoved, hany, if_pos rfl, List.filter_congr fun e _ => hnamed e,
            length_filter_or hordered hx, Nat.add_assoc]
        · rw [hentries, List.filter_filter]
          refine List.filter_congr fun e _ => ?_
          rw [hnamed, Bool.not_or, Bool.and_comm, bne, Bool.beq_comm]

/-- `REMOVE` over ids that Redis reads. -/
theorem remove_ok {ids : List String} (hordered : (db.entries m).Pairwise fun a b => a.id.lt b.id)
    (hids : ∀ id ∈ ids, (StreamId.parse id).isSome) :
    ∃ db', (remove m ids).exec db = (.ok ((db.entries m).filter (named ids)).length, db') ∧
      db'.entries m = ((db.entries m).filter fun e => !named ids e) ∧
      db'.body = Function.update db.body m (fun id => if id ∈ ids then none else db.body m id) ∧
      ∀ m' ≠ m, db'.queue m' = db.queue m' ∧ db'.bytes m' = db.bytes m' := by
  have hloop := removeLoop_removes hordered hids 0 0
  rw [Meets] at hloop
  rcases hexec : (removeLoop m ids 0 0).exec db with ⟨error | ⟨removed, freed⟩, t⟩
  · rw [hexec] at hloop
    exact hloop.elim
  rw [hexec] at hloop
  obtain ⟨⟨hremoved, hentries⟩, hbody, hbytes, hqueue⟩ := hloop
  rw [Nat.zero_add] at hremoved
  obtain rfl : removed = _ := hremoved
  -- the loop ends well and the freed bytes are uncounted
  obtain ⟨db', hcount, hqueue', hbody', -, hbytes'⟩ := uncount_ok m freed t
  refine ⟨db', ?_, ?_, hbody'.trans hbody, fun m' hm => ⟨?_, ?_⟩⟩
  · rw [remove, exec_bind_ok hexec]
    dsimp only
    rw [exec_bind_ok hcount, exec_pure]
  · rw [Db.entries, hqueue', ← Db.entries, hentries]
  · rw [hqueue', hqueue m' hm]
  · rw [hbytes' m' hm, hbytes]

/-- The loop aborts at an id that Redis rejects. -/
theorem removeLoop_aborts (db : Db) (m : String) {ids : List String}
    (hids : ∃ id ∈ ids, StreamId.parse id = none) (removed freed : ℕ) :
    (removeLoop m ids removed freed).Meets (fun _ _ => False) (fun _ => True) db := by
  induction ids generalizing db removed freed with
  | nil => simp at hids
  | cons id rest ih =>
    cases hsid : StreamId.parse id with
    | none =>
      simp only [removeLoop, xrangeId, hsid, meets_bind, meets_abort]
    | some sid =>
      -- this id can be read, so the one that cannot is among the rest
      have hrest : ∃ id ∈ rest, StreamId.parse id = none := by
        obtain ⟨id', hid', hnone⟩ := hids
        rcases List.mem_cons.mp hid' with rfl | hid'
        · rw [hsid] at hnone
          exact absurd hnone (Option.some_ne_none sid)
        · exact ⟨id', hid', hnone⟩
      simp only [removeLoop, xrangeId, hsid, meets_bind, meets_read]
      cases hfind : (db.entries m).find? fun e => e.id == sid with
      | none =>
        simp only [delBody, meets_bind, meets_write]
        exact ih _ hrest _ _
      | some x =>
        simp only [xdel, delBody, meets_bind, meets_read, meets_write, meets_pure]
        exact ih _ hrest _ _

/-- REMOVE with an id that Redis cannot read ends in an error. -/
theorem remove_error (db : Db) (m : String) {ids : List String}
    (hids : ∃ id ∈ ids, StreamId.parse id = none) :
    ∃ error db', (remove m ids).exec db = (.error error, db') := by
  have hloop := removeLoop_aborts db m hids 0 0
  rw [Meets] at hloop
  rcases hexec : (removeLoop m ids 0 0).exec db with ⟨error | r, t⟩
  · exact ⟨error, t, exec_bind_error hexec⟩
  · rw [hexec] at hloop
    exact hloop.elim

/-! ## One call of `remove` -/

/-- `remove` deletes the entries whose ids are listed, each with its body, and says how many; every
other entry and body stays. -/
structure Frees (db : Db) (m : String) (ids : List String) : Prop where
  removed : (redis (.remove m ids) db).1 =
    .ok ((db.entries m).filter fun e => e.id.text ∈ ids).length
  entries : (redis (.remove m ids) db).2.entries m = (db.entries m).filter fun e => e.id.text ∉ ids
  bodies : ∀ id, (redis (.remove m ids) db).2.body m id =
    if id ∈ ids ∧ id ∈ (db.entries m).map fun e => e.id.text then none else db.body m id
  others : ∀ m' ≠ m, (redis (.remove m ids) db).2.queue m' = db.queue m' ∧
    (redis (.remove m ids) db).2.body m' = db.body m' ∧
    (redis (.remove m ids) db).2.bytes m' = db.bytes m'

/-- Redis reads every id, and one that it reads as that of an entry comes with the entry's
spelling. -/
def Readable (db : Db) (m : String) (ids : List String) : Prop :=
  ∀ id ∈ ids, ∃ sid, StreamId.parse id = some sid ∧ ∀ e ∈ db.entries m, e.id = sid → e.id.text ∈ ids

/-- The bodies of `m` belong to its entries. -/
def Bodied (db : Db) (m : String) : Prop :=
  ∀ id, db.body m id ≠ none → id ∈ (db.entries m).map fun e => e.id.text

/-- Entries are named by their own spelling only. -/
theorem Readable.named_iff {ids : List String} (h : Readable db m (ids.filter isQueueId))
    {e : Entry} (he : e ∈ db.entries m) :
    named (ids.filter isQueueId) e = true ↔ e.id.text ∈ ids := by
  rw [named, List.any_eq_true]
  constructor
  · rintro ⟨id, hid, hparse⟩
    obtain ⟨sid, hsid, hown⟩ := h id hid
    rw [hsid, beq_iff_eq, Option.some_inj] at hparse
    exact List.mem_of_mem_filter (hown e he hparse.symm)
  · intro hid
    have hmem : e.id.text ∈ ids.filter isQueueId := List.mem_filter.mpr ⟨hid, isQueueId_queueId _ _⟩
    obtain ⟨sid, hsid, -⟩ := h _ hmem
    refine ⟨e.id.text, hmem, ?_⟩
    rw [hsid, StreamId.eq_of_parse_text hsid, beq_self_eq_true]

/-- The Redis store sends REMOVE the ids that have the form of a queue id, and sends nothing where
there are none. -/
theorem redis_remove (db : Db) (m : String) (ids : List String) : redis (.remove m ids) db =
    if ids.filter isQueueId = [] then (.ok 0, db)
    else (remove m (ids.filter isQueueId)).exec db := by
  change (removeIds m ids).run.run server db = _
  dsimp only [removeIds]
  split <;> rfl

/-- `remove` over ids that Redis reads, once those without the shape of an id are dropped. -/
theorem redis_remove_ok {ids : List String}
    (hordered : (db.entries m).Pairwise fun a b => a.id.lt b.id)
    (hids : ∀ id ∈ ids.filter isQueueId, (StreamId.parse id).isSome) :
    ∃ db', redis (.remove m ids) db =
        (.ok ((db.entries m).filter (named (ids.filter isQueueId))).length, db') ∧
      db'.entries m = ((db.entries m).filter fun e => !named (ids.filter isQueueId) e) ∧
      db'.body = Function.update db.body m
        (fun id => if id ∈ ids.filter isQueueId then none else db.body m id) ∧
      ∀ m' ≠ m, db'.queue m' = db.queue m' ∧ db'.bytes m' = db.bytes m' := by
  by_cases hempty : ids.filter isQueueId = []
  · refine ⟨db, ?_, ?_, ?_, fun _ _ => ⟨rfl, rfl⟩⟩
    · rw [redis_remove, if_pos hempty, hempty, List.filter_eq_nil_iff.mpr fun e _ => by
        simp [named]]
      rfl
    · rw [hempty]
      exact (List.filter_eq_self.mpr fun e _ => by simp [named]).symm
    · simp [hempty]
  · obtain ⟨db', hexec, hrest⟩ := remove_ok hordered hids
    refine ⟨db', ?_, hrest⟩
    rw [redis_remove, if_neg hempty, hexec]

/-- Where every body belongs to an entry, a call of `remove` frees what it should exactly when its
ids are readable. -/
theorem frees_iff (hordered : (db.entries m).Pairwise fun a b => a.id.lt b.id)
    (hbodied : Bodied db m) (ids : List String) :
    Frees db m ids ↔ Readable db m (ids.filter isQueueId) := by
  constructor
  · intro hfrees
    -- an id that Redis rejects makes the call fail
    have hread : ∀ id ∈ ids.filter isQueueId, (StreamId.parse id).isSome := by
      intro id hid
      by_contra hnone
      obtain ⟨error, db', herror⟩ := remove_error db m
        ⟨id, hid, Option.not_isSome_iff_eq_none.mp hnone⟩
      have hremoved := hfrees.removed
      rw [redis_remove, if_neg (List.ne_nil_of_mem hid), herror] at hremoved
      nomatch hremoved
    intro id hid
    obtain ⟨sid, hsid⟩ := Option.isSome_iff_exists.mp (hread id hid)
    refine ⟨sid, hsid, fun e he heq => ?_⟩
    obtain ⟨db', hredis, hentries, -⟩ := redis_remove_ok hordered hread
    have hkept := hfrees.entries
    rw [hredis] at hkept
    refine List.mem_filter.mpr ⟨?_, isQueueId_queueId _ _⟩
    by_contra hnot
    have hmem : e ∈ db'.entries m := by
      rw [hkept]
      exact List.mem_filter.mpr ⟨he, by simpa using hnot⟩
    rw [hentries] at hmem
    have hnamed : named (ids.filter isQueueId) e = true :=
      List.any_eq_true.mpr ⟨id, hid, by rw [hsid, heq, beq_self_eq_true]⟩
    simpa [hnamed] using (List.mem_filter.mp hmem).2
  · intro hreadable
    have hread : ∀ id ∈ ids.filter isQueueId, (StreamId.parse id).isSome := fun id hid => by
      obtain ⟨sid, hsid, -⟩ := hreadable id hid
      rw [hsid]
      rfl
    have hgone : (db.entries m).filter (named (ids.filter isQueueId)) =
        (db.entries m).filter fun e => e.id.text ∈ ids := List.filter_congr fun e he => by
      rw [Bool.eq_iff_iff, hreadable.named_iff he, decide_eq_true_eq]
    have hkept : (db.entries m).filter (fun e => !named (ids.filter isQueueId) e) =
        (db.entries m).filter fun e => e.id.text ∉ ids := List.filter_congr fun e he => by
      rw [Bool.eq_iff_iff, Bool.not_eq_true', ← Bool.not_eq_true, hreadable.named_iff he,
        decide_eq_true_eq]
    have hbody (id : String) : (if id ∈ ids.filter isQueueId then none else db.body m id) =
        if id ∈ ids ∧ id ∈ (db.entries m).map fun e => e.id.text then none else db.body m id := by
      by_cases hid : id ∈ (db.entries m).map fun e => e.id.text
      · -- the id of an entry has the shape of one
        obtain ⟨e, -, rfl⟩ := List.mem_map.mp hid
        have hshape : isQueueId e.id.text = true := isQueueId_queueId _ _
        simp only [List.mem_filter, hshape, hid, and_true]
      · have hnone : db.body m id = none := by
          by_contra hsome
          exact hid (hbodied id hsome)
        simp only [hid, and_false, hnone, ite_self]
    obtain ⟨db', hredis, hentries, hbodies, hothers⟩ := redis_remove_ok hordered hread
    refine ⟨?_, ?_, fun id => ?_, fun m' hm => ?_⟩
    · rw [hredis, hgone]
    · rw [hredis, hentries, hkept]
    · rw [hredis, hbodies, Function.update_self, hbody]
    · rw [hredis, hbodies, Function.update_of_ne hm]
      exact ⟨(hothers m' hm).1, rfl, (hothers m' hm).2⟩

/-! ## Bodies live in their entries -/

/-- Every body of `m` belongs to an entry of its size, and expires no later than the stream. -/
structure Housed (db : Db) (m : String) : Prop where
  entry : ∀ id v, db.body m id = some v →
    ∃ e ∈ db.entries m, e.id.text = id ∧ v.value.utf8ByteSize = e.size
  outlived : ∀ id v q d, db.body m id = some v → db.queue m = some q → q.deadline = some d →
    ∃ d' ≤ d, v.deadline = some d'

namespace Housed

/-- Every body of the empty database has an entry and every entry a body. -/
theorem empty (clock : ℕ) (m : String) : Housed (Db.empty clock) m where
  entry _ _ h := nomatch h
  outlived _ _ _ _ h := nomatch h

/-- Whether entries and bodies go together depends on the stream and the bodies of the mediation
only. -/
theorem congr (h : Housed db m) (hqueue : db'.queue m = db.queue m)
    (hbody : db'.body m = db.body m) : Housed db' m where
  entry id v hv := by
    rw [Db.entries, hqueue]
    exact h.entry id v (hbody ▸ hv)
  outlived id v q d hv hq := h.outlived id v q d (hbody ▸ hv) (hqueue ▸ hq)

/-- Where entries and bodies go together every entry has a body. -/
theorem bodied (h : Housed db m) : Bodied db m := by
  intro id hid
  obtain ⟨v, hv⟩ := Option.ne_none_iff_exists'.mp hid
  obtain ⟨e, he, rfl, -⟩ := h.entry id v hv
  exact List.mem_map_of_mem he

/-- Fewer entries, as long as none loses its body behind it. -/
theorem shrink (h : Housed db m) (hdeadline : (db'.queue m).map Volatile.deadline =
      (db.queue m).map Volatile.deadline)
    (hbody : ∀ id v, db'.body m id = some v → db.body m id = some v)
    (hkept : ∀ e ∈ db.entries m, db'.body m e.id.text ≠ none → e ∈ db'.entries m) :
    Housed db' m where
  entry id v hv := by
    obtain ⟨e, he, rfl, hsize⟩ := h.entry id v (hbody id v hv)
    exact ⟨e, hkept e he (by rw [hv]; nofun), rfl, hsize⟩
  outlived id v q d hv hq hd := by
    rw [hq, Option.map_some] at hdeadline
    obtain ⟨q', hq', heq⟩ := Option.map_eq_some_iff.mp hdeadline.symm
    exact h.outlived id v q' d (hbody id v hv) hq' (heq.trans hd)

/-- A body whose time has not come has its entry. -/
theorem advance (h : Housed db m) (ms : ℕ) : Housed (db.advance ms) m := by
  have halive (id : String) (v : Volatile String) (hv : (db.advance ms).body m id = some v) :
      db.body m id = some v ∧ v.alive (db.clock + ms) = true :=
    Option.filter_eq_some_iff.mp hv
  -- while a body lives, its stream has not expired
  have hstays (id : String) (v : Volatile String) (hv : (db.advance ms).body m id = some v) :
      (db.advance ms).queue m = db.queue m := by
    obtain ⟨hbody, hlive⟩ := halive id v hv
    change (db.queue m).filter (Volatile.alive (db.clock + ms)) = db.queue m
    cases hq : db.queue m with
    | none => rfl
    | some q =>
      rw [Option.filter_some, if_pos]
      rw [Volatile.alive, Option.all_eq_true] at hlive ⊢
      intro d hd
      obtain ⟨d', hle, hd'⟩ := h.outlived id v q d hbody hq hd
      have := hlive d' hd'
      simp only [decide_eq_true_eq] at this ⊢
      omega
  constructor
  · intro id v hv
    rw [Db.entries, hstays id v hv]
    exact h.entry id v (halive id v hv).1
  · intro id v q d hv hq
    exact h.outlived id v q d (halive id v hv).1 (hstays id v hv ▸ hq)

end Housed

/-- The entries below an id have lost their bodies. -/
def Expired (db : Db) (m : String) (minId : StreamId) : Prop :=
  ∀ e ∈ db.entries m, e.id.lt minId → db.body m e.id.text = none

/-- Other mediations are as they were, and the bodies of `m` are housed. -/
def HousedAt : String → Db → Db → Prop :=
  ChangedAt (fun db m => Housed db m) fun db t m' =>
    t.queue m' = db.queue m' ∧ t.body m' = db.body m'

/-- Two changes at one mediation that keep entries and bodies together make one such change. -/
theorem HousedAt.trans {t u : Db} (h : HousedAt m db t) (h' : HousedAt m t u) : HousedAt m db u :=
  ⟨fun m' hm => ⟨(h'.1 m' hm).1.trans (h.1 m' hm).1, (h'.1 m' hm).2.trans (h.1 m' hm).2⟩, h'.2⟩

/-- A change at one mediation that keeps its entries and bodies together keeps those of every
mediation together. -/
theorem HousedAt.housed {t : Db} (h : HousedAt m db t) (hdb : ∀ m, Housed db m) : ∀ m, Housed t m :=
  h.all (fun _ hhoused hsame => hhoused.congr hsame.1 hsame.2) hdb

/-- Deleting entries leaves the time at which the stream expires as it was. -/
theorem Db.deadline_keepEntries (db : Db) (m : String) (p : Entry → Bool) :
    ((db.keepEntries m p).queue m).map Volatile.deadline = (db.queue m).map Volatile.deadline := by
  simp only [Db.keepEntries, Function.update_self, Option.map_map]
  rfl

/-- TRIM keeps entries and bodies together where the trimmed entries' bodies have expired. -/
theorem Housed.trim (h : Housed db m) {minId : StreamId} (hexpired : Expired db m minId) :
    HousedAt m db ((trim m minId).exec db).2 := by
  by_cases hzero : minId = ⟨0, 0⟩
  · rw [hzero, trim_zero]
    exact ⟨fun _ _ => ⟨rfl, rfl⟩, h⟩
  obtain ⟨t, hexec, hqueue, hbody, -⟩ := trim_ok db m hzero
  rw [hexec]
  refine ⟨fun m' hm => ⟨?_, by rw [hbody]⟩, h.shrink ?_
    (fun id v hv => hbody ▸ hv) fun e he hsome => ?_⟩
  · rw [hqueue, Db.queue_keepEntries db m _ hm]
  · rw [hqueue, Db.deadline_keepEntries]
  · rw [(entries_of_trim hexec).2.1]
    refine List.mem_filter.mpr ⟨he, ?_⟩
    rw [hbody] at hsome
    simpa using fun hlt => hsome (hexpired e he hlt)

/-- An entry comes with its body, which the stream outlives. -/
theorem Housed.addEntry (h : Housed db m) {recipient body : String} {ttl : ℕ}
    (hlongest : ∀ id v, db.body m id = some v → ∃ d ≤ db.clock + ttl * 1000, v.deadline = some d) :
    (addEntry m recipient body.utf8ByteSize body ttl).Meets (fun _ => HousedAt m db) (HousedAt m db)
      db := by
  simp only [Redis.addEntry, xadd, setBody, incrBytes, expireQueue,
    expireBytes, deadlineIn, meets_bind, meets_read, meets_write,
      meets_pure, meets_ite, meets_abort]
  generalize hstream : (db.queue m).getD _ = stream
  have hentries : ∀ e ∈ db.entries m, ∀ e', e ∈ stream.value.entries ++ [e'] := fun e he e' => by
    refine List.mem_append_left _ ?_
    rw [← hstream]
    rw [Db.entries] at he
    cases hq : db.queue m <;> simp_all
  split
  · -- `EX` fails: the entry is there, without a body
    refine ⟨fun m' hm => ⟨by simp [hm], rfl⟩, fun id v hv => ?_, fun id v q d hv hq hd => ?_⟩
    · obtain ⟨e, he, htext⟩ := h.entry id v hv
      refine ⟨e, ?_, htext⟩
      simp only [Db.entries, Function.update_self, Option.map_some, Option.getD_some]
      exact hentries e he _
    · simp only [Function.update_self, Option.some_inj] at hq
      subst hq
      cases hqueue : db.queue m with
      | none =>
        rw [hqueue, Option.getD_none] at hstream
        subst hstream
        exact absurd hd.symm (Option.some_ne_none d)
      | some q =>
        rw [hqueue, Option.getD_some] at hstream
        subst hstream
        exact h.outlived id v q d hv hqueue hd
  · refine ⟨fun m' hm => ⟨by simp [hm], by simp [hm]⟩, fun id v hv => ?_,
      fun id v q d hv hq hd => ?_⟩
    · simp only [Db.entries, Function.update_self, Option.map_some, Option.getD_some] at hv ⊢
      by_cases hid : id = (nextId db.clock stream.value.lastId).text
      · -- the new body
        subst hid
        rw [Function.update_self] at hv
        obtain rfl := Option.some_inj.mp hv
        exact ⟨_, List.mem_append_right _ (List.mem_singleton_self _), rfl, rfl⟩
      · rw [Function.update_of_ne hid] at hv
        obtain ⟨e, he, htext⟩ := h.entry id v hv
        exact ⟨e, hentries e he _, htext⟩
    -- the stream's new deadline is that of the longest body
    · simp only [Function.update_self, Option.map_some, Option.some_inj] at hv hq
      subst hq
      obtain rfl := Option.some_inj.mp hd
      by_cases hid : id = (nextId db.clock stream.value.lastId).text
      · subst hid
        rw [Function.update_self] at hv
        obtain rfl := Option.some_inj.mp hv
        exact ⟨_, le_rfl, rfl⟩
      · rw [Function.update_of_ne hid] at hv
        exact hlongest id v hv

/-- An `ENQUEUE` that outlives the bodies there. -/
theorem Housed.enqueue (h : Housed db m) {minId : StreamId} (hexpired : Expired db m minId)
    {recipient body : String} {ttl : ℕ}
    (hlongest : ∀ id v, db.body m id = some v → ∃ d ≤ db.clock + ttl * 1000, v.deadline = some d)
    (maxMessages maxBytes : ℕ) : HousedAt m db ((enqueue m minId maxMessages maxBytes recipient
      body.utf8ByteSize body ttl).exec db).2 := by
  have htrim := h.trim hexpired
  rcases hexec : (Redis.trim m minId).exec db with ⟨error | _, t⟩
  -- TRIM aborts, and the script with it
  · rw [Redis.enqueue, exec_bind_error hexec]
    rwa [hexec] at htrim
  rw [hexec] at htrim
  obtain ⟨hzero, -, hbody⟩ := entries_of_trim hexec
  obtain ⟨t', hexec', -, -, hclock⟩ := trim_ok db m hzero
  obtain rfl := (Prod.mk.inj (hexec.symm.trans hexec')).2
  have hlongest' : ∀ id v, t.body m id = some v → ∃ d ≤ t.clock + ttl * 1000,
    v.deadline = some d := by
    rw [hbody, hclock]
    exact hlongest
  rw [Redis.enqueue, exec_bind_ok hexec]
  refine Meets.final ?_
  simp only [meets_bind, meets_read, meets_ite, meets_pure]
  split
  · exact htrim
  split
  · exact htrim
  · exact (htrim.2.addEntry hlongest').mono (fun _ _ hu => htrim.trans hu)
      fun _ hu => htrim.trans hu

/-- `REMOVE` over readable ids takes bodies and entries alike. -/
theorem Housed.remove (h : Housed db m) (hordered : (db.entries m).Pairwise fun a b => a.id.lt b.id)
    {ids : List String} (hreadable : Readable db m ids) :
    HousedAt m db ((remove m ids).exec db).2 := by
  have hread : ∀ id ∈ ids, (StreamId.parse id).isSome := fun id hid => by
    obtain ⟨sid, hsid, -⟩ := hreadable id hid
    rw [hsid]
    rfl
  obtain ⟨t, hexec, hentries, hbodies, hothers⟩ := remove_ok hordered hread
  have hdeadline : Keeps
      (fun t => (t.queue m).map Volatile.deadline = (db.queue m).map Volatile.deadline)
      (Redis.remove m ids) :=
    keeps_remove (fun u p hu => (Db.deadline_keepEntries u m p).trans hu) (fun _ _ hu => hu)
      (fun _ _ hu => hu) ids
  have hsame := hdeadline db rfl
  rw [hexec] at hsame ⊢
  refine ⟨fun m' hm => ⟨(hothers m' hm).1, by rw [hbodies, Function.update_of_ne hm]⟩,
    h.shrink hsame (fun id v hv => ?_) fun e he hsome => ?_⟩
  · dsimp only at hv
    rw [hbodies, Function.update_self] at hv
    split at hv
    · nomatch hv
    · exact hv
  · dsimp only at hsome ⊢
    rw [hbodies, Function.update_self] at hsome
    rw [hentries]
    refine List.mem_filter.mpr ⟨he, ?_⟩
    -- an entry that is named has its spelling in the list, and so lost its body
    by_contra hnamed
    obtain ⟨id, hid, hparse⟩ := List.any_eq_true.mp (by simpa using hnamed : named ids e = true)
    obtain ⟨sid, hsid, hown⟩ := hreadable id hid
    rw [hsid, beq_iff_eq, Option.some_inj] at hparse
    exact hsome (if_pos (hown e he hparse.symm))

/-- A mediation that goes leaves no body. -/
theorem Housed.removeMediation (h : Housed db m) (cutoff : ℕ) :
    HousedAt m db ((removeMediation m cutoff).exec db).2 := by
  rw [exec_removeMediation_eq]
  split
  · exact ⟨fun _ _ => ⟨rfl, rfl⟩, h⟩
  -- every body belongs to an entry, so none is left
  · have hnone : ∀ id, (if id ∈ (db.entries m).map fun e => e.id.text then none else db.body m id) =
        none := fun id => by
      by_cases hid : id ∈ (db.entries m).map fun e => e.id.text
      · exact if_pos hid
      · rw [if_neg hid]
        by_contra hsome
        exact hid (h.bodied id hsome)
    refine ⟨fun m' hm => ⟨Function.update_of_ne hm _ _, Function.update_of_ne hm _ _⟩, ?_, ?_⟩
    · intro id v hv
      simp only [Function.update_self, hnone] at hv
      nomatch hv
    · intro id v q d hv
      simp only [Function.update_self, hnone] at hv
      nomatch hv

/-! ## Runs -/

/-- A request that keeps bodies with their entries: `REMOVE` has readable ids, no trim drops an
entry whose body is still stored, and `ENQUEUE` has a TTL that Redis accepts and that outlives the
bodies there. -/
def Careful (db : Db) : Option (Call ServerCall) → Prop
  | some ⟨.enqueue m minId maxMessages maxBytes _ size _ ttl, _⟩ =>
    (Fits db m minId maxMessages maxBytes size → db.clock + ttl * 1000 ≤ maxExpiry) ∧
      Expired db m minId ∧
      ∀ id v, db.body m id = some v → ∃ d ≤ db.clock + ttl * 1000, v.deadline = some d
  | some ⟨.trim m minId, _⟩ => Expired db m minId
  | some ⟨.remove m ids, _⟩ => Readable db m ids
  | _ => True

/-- `ENQUEUE` is sent with the byte limit, and with the size of the body. -/
def SizedUpTo (maxBytes : ℕ) : Option (Call ServerCall) → Prop
  | some ⟨.enqueue _ _ _ max _ size body _, _⟩ => max = maxBytes ∧ size = body.utf8ByteSize
  | _ => True

/-- A careful step with a fixed byte limit. -/
def CarefulStep (maxBytes : ℕ) (db : Db) (label : Option (Call ServerCall)) (db' : Db) : Prop :=
  ServerStep db label db' ∧ Careful db label ∧ SizedUpTo maxBytes label

variable {maxBytes : ℕ} {label : Option (Call ServerCall)}

/-- No script of a careful step aborts halfway. -/
theorem CarefulStep.orderly (h : CarefulStep maxBytes db label db') :
    OrderlyStep maxBytes db label db' := by
  obtain ⟨hstep, hcareful, hsized⟩ := h
  refine ⟨hstep, ?_, ?_⟩
  · rcases label with _ | ⟨op, reply⟩
    · trivial
    · cases op with
      | enqueue => exact hcareful.1
      | remove m ids =>
        refine .inl fun id hid => ?_
        obtain ⟨sid, hsid, -⟩ := hcareful id hid
        rw [hsid]
        rfl
      | _ => trivial
  · rcases label with _ | ⟨op, reply⟩
    · trivial
    · cases op with
      | enqueue => exact hsized.1
      | _ => trivial

/-- In a database whose counters are in step the ids of every stream ascend. -/
theorem InStep.ascending (h : InStep maxBytes db) (m : String) :
    (db.entries m).Pairwise fun a b => a.id.lt b.id := by
  rw [Db.entries]
  cases hq : db.queue m with
  | none => exact .nil
  | some v => exact ((h m).ordered v hq).ascending

/-- Careful steps keep bodies with their entries. -/
theorem CarefulStep.housed (h : CarefulStep maxBytes db label db') (hdb : InStep maxBytes db)
    (hhoused : ∀ m, Housed db m) : ∀ m, Housed db' m := by
  obtain ⟨hstep, hcareful, hsized⟩ := h
  cases hstep with
  | time ms => exact fun m => (hhoused m).advance ms
  | @request _ c handled =>
    obtain ⟨op, reply⟩ := c
    obtain ⟨rfl, rfl⟩ := Program.Handled.eq handled
    -- only four scripts write streams and bodies
    by_cases htouches : op.Touches .queues
    · cases op with
      | enqueue m minId maxMessages max recipient size body ttl =>
        obtain ⟨-, rfl⟩ := hsized
        exact ((hhoused m).enqueue hcareful.2.1 hcareful.2.2 maxMessages max).housed hhoused
      | trim m minId => exact ((hhoused m).trim hcareful).housed hhoused
      | remove m ids => exact ((hhoused m).remove (hdb.ascending m) hcareful).housed hhoused
      | removeMediation m cutoff => exact ((hhoused m).removeMediation cutoff).housed hhoused
      | _ => exact htouches.elim
    · obtain ⟨hqueue, -, hbody⟩ := server_sameArea htouches db
      exact fun m => (hhoused m).congr (congrFun hqueue m) (congrFun hbody m)

/-- A run that removes by readable ids only keeps the counters in step and entries and bodies
together. -/
theorem careful_run {clock : ℕ} {labels : List (Option (Call ServerCall))}
    (hrun : Transition.Run (CarefulStep maxBytes) (Db.empty clock) labels db) :
    InStep maxBytes db ∧ ∀ m, Housed db m := by
  have hempty : InStep maxBytes (Db.empty clock) := fun m => by
    constructor <;> simp [Db.empty, Db.entries, Db.counter, sizes]
  have hkept : ∀ (s : Db) label (t : Db), (InStep maxBytes s ∧ ∀ m, Housed s m) →
      CarefulStep maxBytes s label t → InStep maxBytes t ∧ ∀ m, Housed t m :=
    fun _ _ _ h hstep => ⟨hstep.orderly.inStep h.1, hstep.housed h.1 h.2⟩
  exact hrun.invariant ⟨hempty, Housed.empty clock⟩ hkept

/-- Bytes of a body, 0 when there is none. -/
def bodySize (db : Db) (m id : String) : ℕ :=
  ((db.body m id).map fun v => v.value.utf8ByteSize).getD 0

/-- A stream id is determined by its text. -/
theorem StreamId.text_inj {id id' : StreamId} (h : id.text = id'.text) : id = id' := by
  obtain ⟨hms, hseq⟩ := queueId_inj.mp h
  cases id
  cases id'
  simp_all

/-- What is spread over distinct ids of entries is no more than the entries. -/
theorem sum_le_sizes {f : String → ℕ} {xs : List Entry} (hxs : xs.Pairwise fun a b => a.id.lt b.id)
    {ids : List String} (hids : ids.Nodup)
    (h : ∀ id ∈ ids, f id ≠ 0 → ∃ e ∈ xs, e.id.text = id ∧ f id = e.size) :
    (ids.map f).sum ≤ sizes xs := by
  induction xs generalizing ids with
  | nil =>
    have hzero : ∀ id ∈ ids, f id = 0 := fun id hid => by
      by_contra hne
      obtain ⟨e, he, -⟩ := h id hid hne
      nomatch he
    rw [List.map_congr_left hzero]
    simp
  | cons x xs ih =>
    rw [List.pairwise_cons] at hxs
    -- the ids other than the first entry's count for the other entries
    have hrest : (((ids.erase x.id.text)).map f).sum ≤ sizes xs := by
      refine ih hxs.2 (hids.erase _) fun id hid hne => ?_
      obtain ⟨hne', hmem⟩ := (List.Nodup.mem_erase_iff hids).mp hid
      obtain ⟨e, he, rfl, hsize⟩ := h id hmem hne
      rcases List.mem_cons.mp he with rfl | he
      · exact absurd rfl hne'
      · exact ⟨e, he, rfl, hsize⟩
    have hsizes : sizes (x :: xs) = x.size + sizes xs := by simp [sizes]
    by_cases hmem : x.id.text ∈ ids
    · have hfirst : f x.id.text ≤ x.size := by
        by_cases hzero : f x.id.text = 0
        · omega
        obtain ⟨e, he, htext, hsize⟩ := h _ hmem hzero
        rcases List.mem_cons.mp he with rfl | he
        · exact hsize.le
        · -- two entries do not share an id
          exact absurd (StreamId.text_inj htext).symm (StreamId.ne_of_lt (hxs.1 e he))
      rw [← List.sum_map_erase f hmem, hsizes]
      omega
    · rw [List.erase_of_not_mem hmem] at hrest
      omega

/-- In every state that careful steps reach, `remove` frees the storage of what is acknowledged
exactly when the ids it is given are readable; no body outlives its entry, and the bodies of a
mediation stay within the byte limit. -/
theorem acknowledging_frees_iff {clock : ℕ} {labels : List (Option (Call ServerCall))}
    (hrun : Transition.Run (CarefulStep maxBytes) (Db.empty clock) labels db) (m : String) :
    (∀ ids, Frees db m ids ↔ Readable db m (ids.filter isQueueId)) ∧
      (∀ id, db.body m id ≠ none → id ∈ (db.entries m).map fun e => e.id.text) ∧
      ∀ ids : List String, ids.Nodup → (ids.map (bodySize db m)).sum ≤ maxBytes := by
  obtain ⟨hstep, hhoused⟩ := careful_run hrun
  refine ⟨frees_iff (hstep.ascending m) (hhoused m).bodied, (hhoused m).bodied, fun ids hids => ?_⟩
  refine (sum_le_sizes (hstep.ascending m) hids fun id _ hne => ?_).trans (hstep m).bound
  cases hbody : db.body m id with
  | none => simp [bodySize, hbody] at hne
  | some v =>
    obtain ⟨e, he, htext, hsize⟩ := (hhoused m).entry id v hbody
    exact ⟨e, he, htext, by simpa [bodySize, hbody] using hsize⟩

/-- A message is queued; its id and a string without the shape of one are acknowledged. -/
theorem acknowledging_frees_iff_queued :
    let queued := (server (.enqueue "did:example:m" ⟨940000, 0⟩ 10 10 "did:example:m" 5 "hello" 60)
      (Db.empty 1000000)).2
    Frees queued "did:example:m" ["1000000-0", "x"] := by
  intro queued
  have hqueue : CarefulStep 10 (Db.empty 1000000) (some ⟨.enqueue "did:example:m" ⟨940000, 0⟩ 10 10
      "did:example:m" 5 "hello" 60, (server (.enqueue "did:example:m" ⟨940000, 0⟩ 10 10
      "did:example:m" 5 "hello" 60) (Db.empty 1000000)).1⟩) queued := by
    refine ⟨.request (Program.handled _ _ _), ⟨fun _ => by decide, ?_, ?_⟩, rfl, by decide⟩
    · exact fun e he => nomatch he
    · exact fun id v hv => nomatch hv
  refine ((acknowledging_frees_iff (.single hqueue) _).1 _).mpr fun id hid => ?_
  obtain rfl : id = "1000000-0" := by
    have : ["1000000-0", "x"].filter isQueueId = ["1000000-0"] := by decide
    rw [this] at hid
    exact List.mem_singleton.mp hid
  refine ⟨⟨1000000, 0⟩, by decide, fun e he _ => ?_⟩
  have hentries : queued.entries "did:example:m" = [⟨⟨1000000, 0⟩, "did:example:m", 5⟩] := by decide
  rw [hentries] at he
  obtain rfl := List.mem_singleton.mp he
  decide

/-- A wallet acknowledges its one message with a leading zero: the entry goes and the body stays.
With an id over `2^64` the call fails. -/
theorem acknowledged_otherwise :
    (¬ ∀ clock calls db, Transition.Run (Program.Handled redis) (Db.empty clock) calls db →
      ∀ m ids, Frees db m ids) ∧
    ¬ ∀ clock calls db, Transition.Run (Program.Handled redis) (Db.empty clock) calls db →
      ∀ m id, db.body m id ≠ none → id ∈ (db.entries m).map fun e => e.id.text := by
  let enqueue := Op.enqueue "did:example:m" "did:example:m" "hello" 1000 ⟨60, 10, 10⟩
  let remove := Op.remove "did:example:m" ["01000000-0"]
  have hqueued := Transition.Run.single (Program.handled redis enqueue (Db.empty 1000000))
  refine ⟨fun h => ?_, fun h => ?_⟩
  · have hremoved := (h _ _ _ hqueued "did:example:m" ["99999999999999999999-0"]).removed
    revert hremoved
    decide
  · have hbody := h _ _ _ (.snoc hqueued (Program.handled redis remove _))
      "did:example:m" "1000000-0"
    revert hbody
    decide

end Store.Redis
