import AlmenaMediator.Store.Redis.Footprint

/-!
# The byte counter of a queue

`mediation:{M}:bytes` is meant to be the sum of the sizes of the entries of `mediation:{M}:queue`. A
script that aborts keeps its writes, so the counter falls behind where a script aborts between
changing the stream and counting: `REMOVE` when it is given an id that Redis rejects after one that
names an entry, `ENQUEUE` when the TTL is out of Redis' range. `Orderly` steps are the others; runs
of orderly steps keep every counter in step.
-/

namespace Store.Redis

open Script

/-! ## Streams -/

namespace StreamId

variable {a b c : StreamId}

/-- Stream ids are ordered by their milliseconds and then by their sequence number. -/
theorem lt_iff : a.lt b ↔ a.ms < b.ms ∨ a.ms = b.ms ∧ a.seq < b.seq := by
  simp [lt]

/-- A stream id below another is not that other. -/
theorem ne_of_lt (h : a.lt b) : a ≠ b := by
  rintro rfl
  rw [lt_iff] at h
  omega

/-- The order of stream ids is transitive. -/
theorem lt_trans (hab : a.lt b) (hbc : b.lt c) : a.lt c := by
  rw [lt_iff] at *
  omega

/-- A new id is after the last one. -/
theorem lt_nextId (clock : ℕ) (last : StreamId) : last.lt (nextId clock last) := by
  rw [lt_iff, nextId]
  split <;> simp_all

end StreamId

/-- The ids of a stream ascend, up to the last one it gave out. -/
structure Stream.Ordered (s : Stream) : Prop where
  ascending : s.entries.Pairwise fun a b => a.id.lt b.id
  last : ∀ e ∈ s.entries, e.id = s.lastId ∨ e.id.lt s.lastId

namespace Stream.Ordered

variable {s : Stream}

/-- Deleting entries keeps a stream ordered and below its last id. -/
theorem filter (h : s.Ordered) (p : Entry → Bool) :
    ({ s with entries := s.entries.filter p } : Stream).Ordered where
  ascending := h.ascending.filter p
  last e he := h.last e (List.mem_of_mem_filter he)

/-- `XADD` keeps the order. -/
theorem snoc (h : s.Ordered) {e : Entry} (hlast : s.lastId.lt e.id) :
    ({ entries := s.entries ++ [e], lastId := e.id } : Stream).Ordered where
  ascending := by
    refine List.pairwise_append.mpr ⟨h.ascending, List.pairwise_singleton _ _, fun a ha b hb => ?_⟩
    obtain rfl : b = e := by simpa using hb
    rcases h.last a ha with heq | hlt
    · rwa [heq]
    · exact StreamId.lt_trans hlt hlast
  last a ha := by
    rcases List.mem_append.mp ha with ha | ha
    · rcases h.last a ha with heq | hlt
      · exact .inr (by rwa [heq])
      · exact .inr (StreamId.lt_trans hlt hlast)
    · exact .inl (by rw [List.mem_singleton.mp ha])

end Stream.Ordered

/-- The sizes of two lists of entries add up. -/
theorem sizes_append (xs ys : List Entry) : sizes (xs ++ ys) = sizes xs + sizes ys := by
  simp [sizes]

/-- What is kept and what is dropped make up the whole. -/
theorem sizes_filter (xs : List Entry) (p : Entry → Bool) :
    sizes (xs.filter p) + sizes (xs.filter fun e => !p e) = sizes xs := by
  induction xs with
  | nil => rfl
  | cons x xs ih =>
    cases hx : p x <;> simp_all [sizes] <;> omega

/-- An id names one entry. -/
theorem filter_id {xs : List Entry} (h : xs.Pairwise fun a b => a.id.lt b.id) {e : Entry}
    (he : e ∈ xs) : xs.filter (fun x => x.id == e.id) = [e] := by
  induction xs with
  | nil => simp at he
  | cons x xs ih =>
    rw [List.pairwise_cons] at h
    rcases List.mem_cons.mp he with rfl | he
    · have hnone : xs.filter (fun x => x.id == e.id) = [] := by
        rw [List.filter_eq_nil_iff]
        intro y hy
        simpa using (StreamId.ne_of_lt (h.1 y hy)).symm
      simp [hnone]
    · have hx : ¬ x.id == e.id := by simpa using StreamId.ne_of_lt (h.1 e he)
      rw [List.filter_cons, if_neg hx]
      exact ih h.2 he

/-- In an ordered stream only one entry has the id of an entry, so that the sizes with this id are
its size. -/
theorem sizes_filter_id {xs : List Entry} (h : xs.Pairwise fun a b => a.id.lt b.id) {e : Entry}
    (he : e ∈ xs) : sizes (xs.filter fun x => x.id == e.id) = e.size := by
  rw [filter_id h he]
  simp [sizes]

/-! ## The invariant -/

namespace Db

variable (db : Db) (m : String) (p : Entry → Bool)

/-- Keeping the entries that meet a test filters the entries of the stream. -/
@[simp] theorem entries_keepEntries : (db.keepEntries m p).entries m = (db.entries m).filter p := by
  simp only [entries, keepEntries, Function.update_self]
  cases db.queue m <;> rfl

/-- Deleting entries leaves the byte counters as they were. -/
@[simp] theorem bytes_keepEntries : (db.keepEntries m p).bytes = db.bytes := rfl

/-- Deleting entries of one mediation leaves the streams of the others as they were. -/
theorem queue_keepEntries {m' : String} (h : m' ≠ m) :
    (db.keepEntries m p).queue m' = db.queue m' :=
  Function.update_of_ne h _ _

end Db

/-- The counter of a queue is `owed` above the sizes of its entries, the two keys expire together,
and the entries fit in `maxBytes`. -/
structure Tally (maxBytes owed : ℕ) (db : Db) (m : String) : Prop where
  together : (db.queue m).map Volatile.deadline = (db.bytes m).map Volatile.deadline
  counter : db.counter m = sizes (db.entries m) + owed
  ordered : ∀ v ∈ db.queue m, v.value.Ordered
  bound : sizes (db.entries m) ≤ maxBytes

/-- Every counter is in step. -/
def InStep (maxBytes : ℕ) (db : Db) : Prop := ∀ m, Tally maxBytes 0 db m

variable {maxBytes owed : ℕ} {db db' : Db} {m : String}

namespace Tally

/-- The tally of a mediation is about its two keys. -/
theorem congr (h : Tally maxBytes owed db m) (hqueue : db'.queue m = db.queue m)
    (hbytes : db'.bytes m = db.bytes m) : Tally maxBytes owed db' m := by
  have hentries : db'.entries m = db.entries m := by simp [Db.entries, hqueue]
  have hcounter : db'.counter m = db.counter m := by simp [Db.counter, hbytes]
  constructor
  · rw [hqueue, hbytes, h.together]
  · rw [hcounter, hentries, h.counter]
  · rw [hqueue]
    exact h.ordered
  · rw [hentries]
    exact h.bound

/-- The entries deleted are owed. -/
theorem keepEntries (h : Tally maxBytes owed db m) (p : Entry → Bool) :
    Tally maxBytes (owed + sizes ((db.entries m).filter fun e => !p e)) (db.keepEntries m p) m where
  together := by
    rw [Db.bytes_keepEntries, ← h.together]
    cases hq : db.queue m <;> simp [Db.keepEntries, hq]
  counter := by
    have hsizes := sizes_filter (db.entries m) p
    have hcounter : (db.keepEntries m p).counter m = db.counter m := rfl
    rw [hcounter, h.counter, Db.entries_keepEntries, ← hsizes]
    push_cast
    omega
  ordered v hv := by
    simp only [Db.keepEntries, Function.update_self, Option.mem_def, Option.map_eq_some_iff] at hv
    obtain ⟨w, hw, rfl⟩ := hv
    exact (h.ordered w hw).filter p
  bound := by
    rw [Db.entries_keepEntries]
    have := sizes_filter (db.entries m) p
    have := h.bound
    omega

end Tally

/-- Taking some of what is owed off the counter leaves the rest owed. -/
theorem uncount_meets {freed : ℕ} (h : Tally maxBytes (owed + freed) db m) :
    (uncount m freed).Meets (fun _ t => (t.queue = db.queue ∧
      t.clock = db.clock ∧ t.body = db.body) ∧
        (∀ m' ≠ m, t.bytes m' = db.bytes m') ∧ Tally maxBytes owed t m) (fun _ => False) db := by
  rcases Nat.eq_zero_or_pos freed with rfl | hfreed
  · exact ⟨⟨rfl, rfl, rfl⟩, fun _ _ => rfl, h⟩
  have hcounter := h.counter
  -- bytes are freed, so the counter is there and no less than what is freed
  cases hb : db.bytes m with
  | none =>
    simp only [Db.counter, hb, Option.map_none, Option.getD_none] at hcounter
    omega
  | some b =>
    simp only [Db.counter, hb, Option.map_some, Option.getD_some] at hcounter
    have hleft : ¬ b.value + -(freed : ℤ) < 0 := by omega
    simp only [uncount, hfreed, ↓reduceIte, incrBytes, meets_bind, meets_read, meets_write,
      meets_pure, meets_ite, hb, Option.getD_some, hleft, true_and, and_self]
    refine ⟨fun m' hm' => Function.update_of_ne hm' _ _, ?_⟩
    constructor
    · simpa [hb] using h.together
    · simp only [Db.counter, Function.update_self, Option.map_some, Option.getD_some]
      change b.value + -(freed : ℤ) = sizes (db.entries m) + owed
      omega
    · exact h.ordered
    · exact h.bound

/-! ## Scripts -/

/-- `trim` takes the sizes of what it drops off the counter, and aborts only before it changes
anything. -/
theorem Tally.trim (h : Tally maxBytes owed db m) (minId : StreamId) :
    (trim m minId).Meets (fun _ t => minId ≠ ⟨0, 0⟩ ∧ (t.clock = db.clock ∧ t.body = db.body) ∧
        (∀ m' ≠ m, t.queue m' = db.queue m' ∧ t.bytes m' = db.bytes m') ∧ Tally maxBytes owed t m ∧
        t.entries m = (db.entries m).filter fun e => !e.id.lt minId)
      (fun t => minId = ⟨0, 0⟩ ∧ t = db) db := by
  simp only [Redis.trim, xrangeBefore, xtrim, meets_bind, meets_ite, meets_abort,
    meets_read, meets_write]
  split
  · exact ⟨‹_›, trivial⟩
  -- the entries below the bound go, and the sizes of those are owed
  have hkept := h.keepEntries fun e => !e.id.lt minId
  simp only [Bool.not_not] at hkept
  refine (uncount_meets hkept).mono (fun _ t ht => ?_) fun _ hfalse => hfalse.elim
  obtain ⟨⟨hqueue, hclock, hbody⟩, hbytes, htally⟩ := ht
  refine ⟨‹_›, ⟨hclock, hbody⟩, fun m' hm => ⟨?_, hbytes m' hm⟩, htally, ?_⟩
  · rw [hqueue, Db.queue_keepEntries db m _ hm]
  · rw [Db.entries, hqueue]
    exact Db.entries_keepEntries db m _

/-- `trim` keeps the counters in step. -/
theorem trim_meets (h : InStep maxBytes db) (minId : StreamId) :
    (trim m minId).Meets (fun _ t => InStep maxBytes t ∧ t.clock = db.clock ∧
        t.entries m = (db.entries m).filter fun e => !e.id.lt minId)
      (fun t => t = db) db := by
  refine ((h m).trim minId).mono (fun _ t ht => ?_) fun t ht => ht.2
  obtain ⟨-, ⟨hclock, -⟩, hothers, htally, hentries⟩ := ht
  refine ⟨fun m' => ?_, hclock, hentries⟩
  by_cases hm : m' = m
  · rwa [hm]
  · exact (h m').congr (hothers m' hm).1 (hothers m' hm).2

/-- The condition of `ENQUEUE`: after trimming there is room for one more message, of `size`
bytes. -/
def Fits (db : Db) (m : String) (minId : StreamId) (maxMessages maxBytes size : ℕ) : Prop :=
  ((db.entries m).filter fun e => !e.id.lt minId).length < maxMessages ∧
    sizes ((db.entries m).filter fun e => !e.id.lt minId) + size ≤ maxBytes

/-- An entry that fits is added and counted, unless the TTL makes `EX` abort. -/
theorem Tally.addEntry (h : Tally maxBytes owed db m) {recipient body : String} {size ttl : ℕ}
    (hfits : sizes (db.entries m) + size ≤ maxBytes) (httl : db.clock + ttl * 1000 ≤ maxExpiry) :
    (addEntry m recipient size body ttl).Meets (fun _ t => (∀ m' ≠ m, t.queue m' = db.queue m' ∧
      t.bytes m' = db.bytes m') ∧ Tally maxBytes owed t m) (fun _ => False) db := by
  simp only [Redis.addEntry, xadd, setBody, incrBytes, expireQueue,
    expireBytes, deadlineIn, meets_bind, meets_read, meets_write, meets_pure, meets_ite,
      httl.not_gt, ↓reduceIte]
  refine ⟨fun m' hm => by simp [hm], ?_⟩
  generalize hstream : (db.queue m).getD _ = stream
  have hentries : stream.value.entries = db.entries m := by
    rw [← hstream, Db.entries]
    cases db.queue m <;> rfl
  -- a stream that is not there yet begins empty
  have hordered : stream.value.Ordered := by
    rw [← hstream]
    cases hq : db.queue m with
    | none => exact ⟨.nil, by simp⟩
    | some v => exact h.ordered v hq
  have hcounter : ((db.bytes m).getD { value := 0, deadline := none }).value
      = sizes (db.entries m) + owed := by
    have := h.counter
    rw [Db.counter] at this
    cases hb : db.bytes m <;> simp_all
  constructor
  · simp
  · simp only [Db.counter, Db.entries, Function.update_self, Option.map_some, Option.getD_some,
      hentries, sizes_append, hcounter]
    simp [sizes]
    omega
  · intro v hv
    obtain rfl : _ = v := by simpa using hv
    exact hordered.snoc (StreamId.lt_nextId _ _)
  · simpa [Db.entries, hentries, sizes_append, sizes] using hfits

/-- Adding an entry that fits keeps the byte counter in step, since the counter grows by the entry's
size. -/
theorem addEntry_meets (h : InStep maxBytes db) {recipient body : String} {size ttl : ℕ}
    (hfits : sizes (db.entries m) + size ≤ maxBytes) (httl : db.clock + ttl * 1000 ≤ maxExpiry) :
    (addEntry m recipient size body ttl).Meets (fun _ t => InStep maxBytes t)
    (fun _ => False) db := by
  refine ((h m).addEntry hfits httl).mono (fun _ t ht m' => ?_) fun _ hfalse => hfalse
  by_cases hm : m' = m
  · rw [hm]
    exact ht.2
  · exact (h m').congr (ht.1 m' hm).1 (ht.1 m' hm).2

/-- `ENQUEUE` keeps the counter in step, and refuses only what does not fit, unless the TTL makes it
abort. -/
theorem enqueue_meets (h : InStep maxBytes db) {minId : StreamId} {maxMessages size ttl : ℕ}
    (recipient body : String)
    (httl : Fits db m minId maxMessages maxBytes size → db.clock + ttl * 1000 ≤ maxExpiry) :
    (enqueue m minId maxMessages maxBytes recipient size body ttl).Meets
      (fun id t => InStep maxBytes t ∧
        (id = none → ¬ Fits db m minId maxMessages maxBytes size))
      (InStep maxBytes) db := by
  simp only [enqueue, meets_bind, meets_read, meets_ite, meets_pure]
  refine (trim_meets h minId).mono (fun _ t ht => ?_) fun t ht => by rwa [ht]
  obtain ⟨hstep, hclock, hentries⟩ := ht
  -- the limit is checked against the counter, which is the sum of the sizes
  have hcounter := (hstep m).counter
  rw [hentries] at hcounter ⊢
  split
  · exact ⟨hstep, fun _ hfits => by have := hfits.1; omega⟩
  split
  · exact ⟨hstep, fun _ hfits => by have := hfits.2; omega⟩
  · have hfits : Fits db m minId maxMessages maxBytes size := ⟨by omega, by omega⟩
    refine (addEntry_meets hstep (by rw [hentries]; exact hfits.2) ?_).mono
      (fun _ _ h => ⟨h, by simp⟩) fun _ hfalse => hfalse.elim
    rw [hclock]
    exact httl hfits

/-- The loop of `REMOVE`: what it deletes is owed, also when it comes to an id that Redis
rejects. -/
theorem removeLoop_owes {freed : ℕ} (h : Tally maxBytes (owed + freed) db m) (ids : List String)
    (removed : ℕ) :
    (removeLoop m ids removed freed).Meets
      (fun r t => t.bytes = db.bytes ∧ (∀ m' ≠ m, t.queue m' = db.queue m') ∧
        Tally maxBytes (owed + r.2) t m)
      (fun t => (∃ id ∈ ids, StreamId.parse id = none) ∧ t.bytes = db.bytes ∧
        (∀ m' ≠ m, t.queue m' = db.queue m') ∧ ∃ owed', Tally maxBytes owed' t m) db := by
  induction ids generalizing db removed freed with
  | nil => exact ⟨rfl, fun _ _ => rfl, h⟩
  | cons id rest ih =>
    -- an id that cannot be read among the rest is one among all
    have hlater : ∀ t : Db, (∃ id ∈ rest, StreamId.parse id = none) ∧ t.bytes = db.bytes ∧
        (∀ m' ≠ m, t.queue m' = db.queue m') ∧ (∃ owed', Tally maxBytes owed' t m) →
        (∃ id' ∈ id :: rest, StreamId.parse id' = none) ∧ t.bytes = db.bytes ∧
        (∀ m' ≠ m, t.queue m' = db.queue m') ∧ ∃ owed', Tally maxBytes owed' t m :=
      fun t ⟨⟨id', hid', hnone⟩, ht⟩ => ⟨⟨id', List.mem_cons_of_mem _ hid', hnone⟩, ht⟩
    cases hsid : StreamId.parse id with
    | none =>
      simp only [removeLoop, xrangeId, hsid, meets_bind, meets_abort]
      exact ⟨⟨id, List.mem_cons_self, hsid⟩, trivial, fun _ _ => trivial, _, h⟩
    | some sid =>
    simp only [removeLoop, xrangeId, hsid, meets_bind, meets_read]
    cases hfind : (db.entries m).find? fun e => e.id == sid with
    | none =>
      simp only [delBody, meets_bind, meets_write]
      refine Meets.mono (ih ?_ removed) (fun _ _ ht => ht) hlater
      exact h.congr rfl rfl
    | some e =>
      simp only [xdel, delBody, meets_bind, meets_read, meets_write, meets_pure]
      -- the one entry of the id is deleted, and its size is owed
      have hsize : sizes ((db.entries m).filter fun x => !(x.id != e.id)) = e.size := by
        simp only [bne, Bool.not_not]
        refine sizes_filter_id ?_ (List.mem_of_find?_eq_some hfind)
        rw [Db.entries]
        cases hq : db.queue m with
        | none => exact .nil
        | some v => exact (h.ordered v hq).ascending
      have hkept := h.keepEntries fun x => x.id != e.id
      rw [hsize, Nat.add_assoc] at hkept
      have hothers : ∀ m' ≠ m, (db.keepEntries m fun x => x.id != e.id).queue m' = db.queue m' :=
        fun m' hm' => Db.queue_keepEntries db m _ hm'
      refine Meets.mono (ih ?_ _) (fun r t ht => ?_) fun t ht => hlater t ?_
      · exact hkept.congr rfl rfl
      · exact ⟨ht.1, fun m' hm' => (ht.2.1 m' hm').trans (hothers m' hm'), ht.2.2⟩
      · exact ⟨ht.1, ht.2.1, fun m' hm' => (ht.2.2.1 m' hm').trans (hothers m' hm'), ht.2.2.2⟩

/-- The loop of `REMOVE` over ids that name no entry, up to one that Redis rejects: nothing is
deleted but bodies. -/
theorem removeLoop_rejected {ids : List String} {removed freed : ℕ}
    (hids : ∀ id ∈ ids.takeWhile fun id => (StreamId.parse id).isSome,
      ∀ e ∈ db.entries m, StreamId.parse id ≠ some e.id) :
    (removeLoop m ids removed freed).Meets
      (fun r t => r = (removed, freed) ∧ t.queue = db.queue ∧ t.bytes = db.bytes)
      (fun t => t.queue = db.queue ∧ t.bytes = db.bytes) db := by
  induction ids generalizing db with
  | nil => exact ⟨rfl, rfl, rfl⟩
  | cons id rest ih =>
    -- XRANGE fails at an id that is none
    cases hsid : StreamId.parse id with
    | none =>
      simp only [removeLoop, xrangeId, hsid, meets_bind, meets_abort]
      exact ⟨trivial, trivial⟩
    | some sid =>
      rw [List.takeWhile_cons_of_pos (by rw [hsid]; rfl), List.forall_mem_cons, hsid] at hids
      have hfind : (db.entries m).find? (fun e => e.id == sid) = none := by
        rw [List.find?_eq_none]
        intro e he
        simpa using fun heq => hids.1 e he (by rw [heq])
      simp only [removeLoop, xrangeId, hsid, meets_bind, meets_read, hfind, delBody, meets_write]
      exact ih hids.2

/-- No id that Redis rejects comes after one that names an entry. -/
def RejectsFirst (db : Db) (m : String) (ids : List String) : Prop :=
  (∀ id ∈ ids, (StreamId.parse id).isSome) ∨
    ∀ id ∈ ids.takeWhile fun id => (StreamId.parse id).isSome,
      ∀ e ∈ db.entries m, StreamId.parse id ≠ some e.id

/-- `REMOVE` keeps the counter in step when it rejects ids first. -/
theorem remove_meets (h : InStep maxBytes db) {ids : List String} (hids : RejectsFirst db m ids) :
    (remove m ids).Meets (fun _ => InStep maxBytes) (InStep maxBytes) db := by
  simp only [remove, meets_bind, meets_pure]
  -- no id is rejected, or one is before any entry has gone
  rcases hids with hids | hids
  · refine (removeLoop_owes (h m) ids 0).mono (fun r t ht => ?_) fun t hrejected => ?_
    swap
    · obtain ⟨⟨id, hid, hnone⟩, -⟩ := hrejected
      simpa [hnone] using hids id hid
    obtain ⟨hbytes, hqueue, htally⟩ := ht
    refine (uncount_meets htally).mono (fun _ u hu => ?_) fun _ hfalse => hfalse.elim
    obtain ⟨⟨hqueue', -, -⟩, hbytes', htally'⟩ := hu
    intro m'
    by_cases hm : m' = m
    · rwa [hm]
    · exact (h m').congr (by rw [hqueue', hqueue m' hm]) (by rw [hbytes' m' hm, hbytes])
  · refine (removeLoop_rejected hids).mono (fun r t ht => ?_) fun t ht m' =>
      (h m').congr (by rw [ht.1]) (by rw [ht.2])
    obtain ⟨rfl, hqueue, hbytes⟩ := ht
    exact fun m' => (h m').congr (by rw [hqueue]) (by rw [hbytes])

/-! ## Steps of the server -/

/-- Keys that expire together stay together. -/
theorem Tally.advance (h : Tally maxBytes owed db m) (ms : ℕ) :
    Tally maxBytes owed (db.advance ms) m ∨ Tally maxBytes 0 (db.advance ms) m := by
  obtain ⟨together, counter, ordered, bound⟩ := id h
  have hqueue : (db.advance ms).queue m = (db.queue m).filter (Volatile.alive (db.clock + ms)) :=
    rfl
  have hbytes : (db.advance ms).bytes m = (db.bytes m).filter (Volatile.alive (db.clock + ms)) :=
    rfl
  cases hq : db.queue m with
  | none =>
    cases hb : db.bytes m with
    | none => exact .inl (h.congr (by rw [hqueue, hq]; rfl) (by rw [hbytes, hb]; rfl))
    | some b => simp [hq, hb] at together
  | some v =>
    cases hb : db.bytes m with
    | none => simp [hq, hb] at together
    | some b =>
      -- stream and counter have one deadline, so they expire together or not at all
      have hdeadline : v.deadline = b.deadline := by simpa [hq, hb] using together
      have halive : Volatile.alive (db.clock + ms) b = Volatile.alive (db.clock + ms) v := by
        rw [Volatile.alive, Volatile.alive, hdeadline]
      by_cases hv : Volatile.alive (db.clock + ms) v
      · refine .inl (h.congr ?_ ?_)
        · rw [hqueue, hq, Option.filter_some, if_pos hv]
        · rw [hbytes, hb, Option.filter_some, halive, if_pos hv]
      · rw [hq, Option.filter_some, if_neg hv] at hqueue
        rw [hb, Option.filter_some, halive, if_neg hv] at hbytes
        right
        constructor <;> simp [Db.entries, Db.counter, hqueue, hbytes, sizes]

/-- The byte counters stay in step as time goes on, since stream, bodies and counter expire
together. -/
theorem InStep.advance (h : InStep maxBytes db) (ms : ℕ) : InStep maxBytes (db.advance ms) :=
  fun m => ((h m).advance ms).elim id id

/-- A removed mediation has no queue and no counter; the others keep theirs. -/
theorem Tally.removeMediation (h : Tally maxBytes owed db m) (m' : String) (cutoff : ℕ) :
    Tally maxBytes owed ((removeMediation m' cutoff).exec db).2 m ∨
      Tally maxBytes 0 ((removeMediation m' cutoff).exec db).2 m := by
  rcases exec_removeMediation m' cutoff db with ⟨-, heq⟩ | ⟨-, body, heq⟩
  · rw [heq]
    exact .inl h
  · rw [heq]
    by_cases hm : m = m'
    · subst hm
      right
      constructor <;> simp [Db.entries, Db.counter, sizes]
    · exact .inl (h.congr (by simp [hm]) (by simp [hm]))

/-- Removing a mediation keeps the byte counters in step: its stream and its counter go together. -/
theorem InStep.removeMediation (h : InStep maxBytes db) (m : String) (cutoff : ℕ) :
    InStep maxBytes ((removeMediation m cutoff).exec db).2 :=
  fun m' => ((h m').removeMediation m cutoff).elim id id

/-- Every `ENQUEUE` has the limit `maxBytes`. -/
def EnqueuesUpTo (maxBytes : ℕ) : Option (Call ServerCall) → Prop
  | some ⟨.enqueue _ _ _ max _ _ _ _, _⟩ => max = maxBytes
  | _ => True

/-- No script aborts between changing a queue and counting. -/
def Orderly (db : Db) : Option (Call ServerCall) → Prop
  | some ⟨.enqueue m minId maxMessages maxBytes _ size _ ttl, _⟩ =>
    Fits db m minId maxMessages maxBytes size → db.clock + ttl * 1000 ≤ maxExpiry
  | some ⟨.remove m ids, _⟩ => RejectsFirst db m ids
  | _ => True

/-- An orderly step with a fixed byte limit. -/
def OrderlyStep (maxBytes : ℕ) (db : Db) (label : Option (Call ServerCall)) (db' : Db) : Prop :=
  ServerStep db label db' ∧ Orderly db label ∧ EnqueuesUpTo maxBytes label

/-- Orderly steps keep the counters in step. -/
theorem OrderlyStep.inStep {label : Option (Call ServerCall)}
    (h : OrderlyStep maxBytes db label db') (hdb : InStep maxBytes db) : InStep maxBytes db' := by
  obtain ⟨hstep, horderly, hlimit⟩ := h
  cases hstep with
  | time ms => exact hdb.advance ms
  | @request _ c handled =>
    obtain ⟨op, reply⟩ := c
    obtain ⟨rfl, rfl⟩ := Program.Handled.eq handled
    -- only four scripts write streams and counters
    by_cases htouches : op.Touches .queues
    · cases op with
      | enqueue m minId maxMessages n recipient size body ttl =>
        obtain rfl : n = maxBytes := hlimit
        exact ((enqueue_meets hdb recipient body horderly).mono (fun _ _ h => h.1)
          fun _ h => h).final
      | trim m minId =>
        exact ((trim_meets hdb minId).mono (fun _ _ h => h.1) fun _ h => by rwa [h]).final
      | remove m ids => exact (remove_meets hdb horderly).final
      | removeMediation m cutoff => exact hdb.removeMediation m cutoff
      | _ => exact htouches.elim
    · obtain ⟨hqueue, hbytes, -⟩ := server_sameArea htouches db
      exact fun m => (hdb m).congr (congrFun hqueue m) (congrFun hbytes m)

/-- In every state that orderly steps reach, the byte counter of a queue is the sum of the sizes of
its entries; these fit in the limit, and a message that fits is not refused. -/
theorem byte_counter_in_step {clock : ℕ} {labels : List (Option (Call ServerCall))}
    (hrun : Transition.Run (OrderlyStep maxBytes) (Db.empty clock) labels db) (m : String) :
    db.counter m = sizes (db.entries m) ∧ sizes (db.entries m) ≤ maxBytes ∧
      ∀ minId maxMessages recipient size body ttl db',
        OrderlyStep maxBytes db
          (some ⟨.enqueue m minId maxMessages maxBytes recipient size body ttl, .ok none⟩) db' →
        ¬ Fits db m minId maxMessages maxBytes size := by
  have hdb : InStep maxBytes db := by
    refine hrun.invariant (fun m => ?_) fun _ _ _ h hstep => hstep.inStep h
    constructor <;> simp [Db.empty, Db.entries, Db.counter, sizes]
  refine ⟨by simpa using (hdb m).counter, (hdb m).bound, ?_⟩
  rintro minId maxMessages recipient size body ttl db' ⟨hstep, horderly, -⟩
  cases hstep with
  | request handled =>
    have hmeets := enqueue_meets hdb recipient body horderly
    have hexec : (enqueue m minId maxMessages maxBytes recipient size body ttl).exec db
      = (.ok none, db') := handled
    rw [Meets, hexec] at hmeets
    exact hmeets.2 rfl

/-- A message is queued and removed again. -/
theorem byte_counter_in_step_removed :
    let request := Request.enqueue "did:example:m" ⟨940000, 0⟩ 10 10 "did:example:m" 5 "hello" 60
    let queued := (server request (Db.empty 1000000)).2
    let removed := (server (.remove "did:example:m" ["1000000-0"]) queued).2
    queued.counter "did:example:m" = 5 ∧
      removed.counter "did:example:m" = sizes (removed.entries "did:example:m") := by
  intro request queued removed
  have hqueue : OrderlyStep 10 (Db.empty 1000000)
      (some ⟨request, (server request (Db.empty 1000000)).1⟩) queued :=
    ⟨.request (Program.handled _ _ _), fun _ => by decide, rfl⟩
  have hremove : OrderlyStep 10 queued (some ⟨.remove "did:example:m" ["1000000-0"],
      (server (.remove "did:example:m" ["1000000-0"]) queued).1⟩) removed :=
    ⟨.request (Program.handled _ _ _), .inl (by decide), trivial⟩
  exact ⟨by decide, (byte_counter_in_step (.snoc (.single hqueue) hremove) _).1⟩

/-- A wallet removes its one message and an id over `2^64` in one call: the script deletes the entry
and aborts at the id, and the counter stays at the size of the message. -/
theorem byte_counter_left_behind :
    ¬ ∀ clock calls db, Transition.Run (Program.Handled redis) (Db.empty clock) calls db →
      ∀ m, db.counter m = sizes (db.entries m) := by
  intro h
  let enqueue := Op.enqueue "did:example:m" "did:example:m" "hello" 1000 ⟨60, 10, 10⟩
  let remove := Op.remove "did:example:m" ["1000000-0", "99999999999999999999-0"]
  have hrun := Transition.Run.snoc (.single (Program.handled redis enqueue (Db.empty 1000000)))
    (Program.handled redis remove (redis enqueue (Db.empty 1000000)).2)
  have hcounter := h _ _ _ hrun "did:example:m"
  revert hcounter
  decide

end Store.Redis
