import AlmenaMediator.Library.Agenda
import AlmenaMediator.Store.Footprint
import AlmenaMediator.Store.Redis.Footprint

/-!
# The relays of a store

Both stores keep the relays as an agenda, by relay id: the in-process store as a list in the order
of the ids, which it sorts by time when it leases, the Redis store as a sorted set of ids beside a
hash of relays. What the relay methods answer is what the agenda answers (`RelayStep`), so that both
stores answer the same and the agenda's history is theirs (`relay_stores_agree`).
-/

namespace Store

/-- Relays by id, and when each is due. -/
abbrev Relays : Type := Agenda String PendingRelay

/-- What happens to relays. -/
abbrev RelayEvent : Type := Agenda.Event PendingRelay String

/-- The methods about relays. -/
def Op.OnRelays : Op → Prop
  | .scheduleRelay .. | .dueRelays .. | .finishRelay .. => True
  | _ => False

instance : DecidablePred Op.OnRelays := fun op => by
  cases op <;> unfold Op.OnRelays <;> infer_instance

/-- What an answered call does to the relays. -/
def relayEvent : Call StoreCall → Option RelayEvent
  | ⟨.scheduleRelay relay due maxPending, .ok stored⟩ => some (.put relay due maxPending stored)
  | ⟨.dueRelays now leaseSecs limit, .ok relays⟩ => some (.take now (now + leaseSecs) limit relays)
  | ⟨.finishRelay id, .ok _⟩ => some (.drop id)
  | _ => none

/-- What a call may answer and do to the relays. -/
inductive RelayStep (a : Relays) : Call StoreCall → Relays → Prop
  | schedule {relay : PendingRelay} {due maxPending : ℕ} {stored : Bool} {a' : Relays}
      (h : Agenda.Step PendingRelay.id a (.put relay due maxPending stored) a') :
      RelayStep a ⟨.scheduleRelay relay due maxPending, .ok stored⟩ a'
  | due {now leaseSecs limit : ℕ} {relays : List PendingRelay} {a' : Relays}
      (h : Agenda.Step PendingRelay.id a (.take now (now + leaseSecs) limit relays) a') :
      RelayStep a ⟨.dueRelays now leaseSecs limit, .ok relays⟩ a'
  /-- Redis reads no limit above `maxLimit`. -/
  | overLimit {now leaseSecs limit : ℕ} {error : StoreError} (h : Redis.maxLimit < limit) :
      RelayStep a ⟨.dueRelays now leaseSecs limit, .error error⟩ a
  | finish {id : String} : RelayStep a ⟨.finishRelay id, .ok ()⟩ (Function.update a id none)
  | other {c : Call StoreCall} (h : ¬ c.op.OnRelays) : RelayStep a c a

/-! ## The in-process store -/

/-- The list is this agenda, in the order of the ids. -/
structure Listed (a : Relays) (entries : List (ℕ × PendingRelay)) : Prop where
  sorted : entries.Pairwise fun e e' => e.2.id < e'.2.id
  agrees : ∀ id due relay, a id = some (due, relay) ↔ (due, relay) ∈ entries ∧ relay.id = id

namespace Listed

variable {a : Relays} {entries : List (ℕ × PendingRelay)}

/-- The empty list holds the empty agenda. -/
theorem empty : Listed Agenda.empty [] where
  sorted := List.Pairwise.nil
  agrees _ _ _ := by simp [Agenda.empty]

/-- A listed agenda files every relay under its own id. -/
theorem keyed (h : Listed a entries) : Agenda.Keyed PendingRelay.id a := fun id due relay hrelay =>
  ((h.agrees id due relay).mp hrelay).2

/-- The keys of a listed agenda are the ids of the entries of the list. -/
theorem keys (h : Listed a entries) : Agenda.Keys a (entries.map fun e => e.2.id) := by
  constructor
  case nodup =>
    rw [List.nodup_iff_pairwise_ne, List.pairwise_map]
    exact h.sorted.imp fun hlt => ne_of_lt hlt
  case mem_iff =>
    intro id
    rw [Option.isSome_iff_exists, List.mem_map]
    constructor
    · rintro ⟨⟨due, relay⟩, hmem, hid⟩
      exact ⟨(due, relay), (h.agrees id due relay).mpr ⟨hmem, hid⟩⟩
    · rintro ⟨⟨due, relay⟩, hrelay⟩
      obtain ⟨hmem, hid⟩ := (h.agrees id due relay).mp hrelay
      exact ⟨(due, relay), hmem, hid⟩

/-- A list in the order of the ids is an agenda. -/
theorem of_sorted (h : entries.Pairwise fun e e' => e.2.id < e'.2.id) :
    Listed (fun id => entries.find? fun e => e.2.id == id) entries := by
  refine ⟨h, fun id due relay => ⟨fun hfound => ?_, ?_⟩⟩
  · exact ⟨List.mem_of_find?_eq_some hfound, by simpa using List.find?_some hfound⟩
  · rintro ⟨hmem, rfl⟩
    induction entries with
    | nil => exact absurd hmem List.not_mem_nil
    | cons e entries ih =>
      obtain ⟨he, hentries⟩ := List.pairwise_cons.mp h
      rcases List.mem_cons.mp hmem with rfl | hmem
      · simp
      · have hne : (e.2.id == relay.id) = false := by
          rw [beq_eq_false_iff_ne]
          exact ne_of_lt (he (due, relay) hmem)
        simp only [List.find?_cons, hne]
        exact ih hentries hmem

/-- Putting a relay replaces the one of its id. -/
theorem put (h : Listed a entries) (relay : PendingRelay) (due : ℕ) :
    Listed (Function.update a relay.id (some (due, relay)))
      ((entries.filter fun e => e.2.id != relay.id).orderedInsert
        (fun e e' => e.2.id ≤ e'.2.id) (due, relay)) := by
  -- the old entry of the id is filtered out before the new one is put in its place
  have hother : ∀ e ∈ entries.filter fun e => e.2.id != relay.id, e.2.id ≠ relay.id :=
    fun e he => by simpa using (List.mem_filter.mp he).2
  constructor
  case sorted =>
    refine Agenda.pairwise_orderedInsert ?_ (h.sorted.filter _) ?_ ?_
    · exact fun _ _ _ hlt hlt' => lt_trans hlt hlt'
    · exact fun e he hle => lt_of_le_of_ne hle (hother e he).symm
    · exact fun e _ hgt => lt_of_not_ge hgt
  case agrees =>
    intro id due' relay'
    rw [List.mem_orderedInsert, List.mem_filter]
    by_cases hid : id = relay.id
    · subst hid
      rw [Function.update_self, Option.some_inj]
      constructor
      · rintro heq
        exact ⟨.inl heq.symm, by rw [← (Prod.mk.inj heq).2]⟩
      · rintro ⟨heq | ⟨-, hne⟩, hid⟩
        · exact heq.symm
        · simp [hid] at hne
    · rw [Function.update_of_ne hid, h.agrees]
      constructor
      · rintro ⟨hmem, rfl⟩
        exact ⟨.inr ⟨hmem, by simpa using hid⟩, rfl⟩
      · rintro ⟨heq | ⟨hmem, -⟩, rfl⟩
        · exact absurd (congrArg (fun e => e.2.id) heq) hid
        · exact ⟨hmem, rfl⟩

/-- Taking the entry of an id out of the list takes the id out of the agenda. -/
theorem drop (h : Listed a entries) (id : String) :
    Listed (Function.update a id none) (entries.filter fun e => e.2.id != id) := by
  constructor
  case sorted => exact h.sorted.filter _
  case agrees =>
    intro id' due relay
    rw [List.mem_filter, bne_iff_ne]
    by_cases hid : id' = id
    · subst hid
      simp only [Function.update_self, reduceCtorEq, false_iff]
      rintro ⟨⟨-, hne⟩, heq⟩
      exact hne heq
    · rw [Function.update_of_ne hid, h.agrees]
      constructor
      · rintro ⟨hrelay, rfl⟩
        exact ⟨⟨hrelay, hid⟩, rfl⟩
      · rintro ⟨⟨hrelay, -⟩, rfl⟩
        exact ⟨hrelay, rfl⟩

/-- The stable sort leaves relays due at the same time in the order of their ids. -/
theorem due (h : Listed a entries) (now : ℕ) :
    Agenda.Due a now (((entries.filter fun e => e.1 ≤ now).insertionSort
      fun e e' => e.1 ≤ e'.1).map fun e => (e.1, e.2.id)) := by
  constructor
  case sorted =>
    rw [List.pairwise_map]
    exact Agenda.pairwise_insertionSort (h.sorted.filter _)
  case mem_iff =>
    intro due id
    simp only [List.mem_map, List.mem_insertionSort, List.mem_filter, decide_eq_true_eq]
    constructor
    · rintro ⟨⟨due', relay⟩, ⟨hmem, hnow⟩, heq⟩
      obtain ⟨rfl, rfl⟩ := Prod.mk.inj heq
      exact ⟨hnow, relay, (h.agrees _ _ _).mpr ⟨hmem, rfl⟩⟩
    · rintro ⟨hnow, relay, hrelay⟩
      obtain ⟨hmem, rfl⟩ := (h.agrees _ _ _).mp hrelay
      exact ⟨(due, relay), ⟨hmem, hnow⟩, rfl⟩

/-- The items under the ids of entries are their relays. -/
theorem items (h : Listed a entries) {some_ : List (ℕ × PendingRelay)}
    (hmem : ∀ e ∈ some_, e ∈ entries) :
    a.items (some_.map fun e => e.2.id) = some_.map Prod.snd := by
  induction some_ with
  | nil => rfl
  | cons e some_ ih =>
    obtain ⟨he, hrest⟩ := List.forall_mem_cons.mp hmem
    have hitem : a e.2.id = some (e.1, e.2) := (h.agrees _ _ _).mpr ⟨he, rfl⟩
    have hitems := ih hrest
    unfold Agenda.items at hitems ⊢
    rw [List.map_cons, List.map_cons, List.filterMap_cons, hitem, hitems]
    rfl

/-- Leasing relays puts them off. -/
theorem putOff (h : Listed a entries) (leased : List PendingRelay) (leaseEnd : ℕ) :
    Listed (a.putOff (leased.map PendingRelay.id) leaseEnd) (entries.map fun e =>
      if leased.any fun relay => relay.id == e.2.id then (leaseEnd, e.2) else e) := by
  have hany : ∀ e : ℕ × PendingRelay, (leased.any fun relay => relay.id == e.2.id) = true ↔
      e.2.id ∈ leased.map PendingRelay.id := fun e => by simp
  -- putting off changes due times only, so the order by id stays
  have hsame : ∀ e : ℕ × PendingRelay,
      (if leased.any fun relay => relay.id == e.2.id then (leaseEnd, e.2) else e).2 = e.2 :=
        fun e => by
    split <;> rfl
  constructor
  case sorted =>
    rw [List.pairwise_map]
    refine h.sorted.imp fun {e e'} hlt => ?_
    rwa [hsame, hsame]
  case agrees =>
    intro id due relay
    rw [Agenda.putOff_eq_some, List.mem_map (l := entries)]
    constructor
    · rintro (⟨hleased, rfl, due', hrelay⟩ | ⟨hnot, hrelay⟩)
      · obtain ⟨hmem, rfl⟩ := (h.agrees _ _ _).mp hrelay
        exact ⟨⟨(due', relay), hmem, if_pos ((hany (due', relay)).mpr hleased)⟩, rfl⟩
      · obtain ⟨hmem, rfl⟩ := (h.agrees _ _ _).mp hrelay
        exact ⟨⟨(due, relay), hmem, if_neg fun hleased =>
          hnot ((hany (due, relay)).mp hleased)⟩, rfl⟩
    · rintro ⟨⟨⟨due', relay'⟩, hmem, heq⟩, rfl⟩
      obtain rfl : relay' = relay := (hsame (due', relay')).symm.trans (congrArg Prod.snd heq)
      have hrelay : a relay'.id = some (due', relay') := (h.agrees _ _ _).mpr ⟨hmem, rfl⟩
      split at heq
      · rename_i hleased
        exact .inl ⟨(hany (due', relay')).mp hleased, (congrArg Prod.fst heq).symm, due', hrelay⟩
      · rename_i hnot
        obtain rfl : due' = due := congrArg Prod.fst heq
        exact .inr ⟨fun hleased => hnot ((hany (due', relay')).mpr hleased), hrelay⟩

end Listed

namespace Inner

variable {inner inner' : Inner} {a : Relays}

/-- The relays of the in-process store are this agenda. -/
def HasRelays (inner : Inner) (a : Relays) : Prop := Listed a inner.relays

/-- A relay is stored if its id is there or there are fewer than `maxPending`. -/
theorem HasRelays.schedule (h : inner.HasRelays a) (relay : PendingRelay) (due maxPending : ℕ) :
    ∃ stored a', (inner.scheduleRelay relay due maxPending).1 = stored ∧
      Agenda.Step PendingRelay.id a (.put relay due maxPending stored) a' ∧
      (inner.scheduleRelay relay due maxPending).2.HasRelays a' := by
  have hany : (inner.relays.any fun e => e.2.id == relay.id) = true ↔
      relay.id ∈ inner.relays.map fun e => e.2.id := by simp
  -- the guard of the code says that the id is new and the list is full
  have hfull : ((!(inner.relays.any fun e => e.2.id == relay.id) &&
      decide (maxPending ≤ inner.relays.length)) = true) ↔
      relay.id ∉ (inner.relays.map fun e => e.2.id) ∧
        maxPending ≤ (inner.relays.map fun e => e.2.id).length := by
    rw [Bool.and_eq_true, Bool.not_eq_true', decide_eq_true_eq, ← Bool.not_eq_true, hany,
      List.length_map]
  by_cases hroom : relay.id ∉ (inner.relays.map fun e => e.2.id) ∧
      maxPending ≤ (inner.relays.map fun e => e.2.id).length
  · have hsame : inner.scheduleRelay relay due maxPending = (false, inner) := by
      rw [scheduleRelay, if_pos (hfull.mpr hroom)]
    rw [hsame]
    exact ⟨false, a, rfl, .full (Listed.keys h) hroom, h⟩
  · have hput : (inner.scheduleRelay relay due maxPending).1 = true ∧
        (inner.scheduleRelay relay due maxPending).2.relays =
          (inner.relays.filter fun e => e.2.id != relay.id).orderedInsert
            (fun e e' => e.2.id ≤ e'.2.id) (due, relay) := by
      rw [scheduleRelay, if_neg (mt hfull.mp hroom)]
      exact ⟨rfl, rfl⟩
    rw [not_and_or, not_not, Nat.not_le] at hroom
    refine ⟨true, _, hput.1, .put (Listed.keys h) hroom, ?_⟩
    unfold HasRelays
    rw [hput.2]
    exact Listed.put h relay due

/-- Leasing the due relays of the in-process store is one `take` of the agenda, which hands out the
relays due by `now` and puts them off until the lease ends. -/
theorem HasRelays.due (h : inner.HasRelays a) (now leaseSecs limit : ℕ) :
    ∃ a', Agenda.Step PendingRelay.id a
        (.take now (now + leaseSecs) limit (inner.dueRelays now leaseSecs limit).1) a' ∧
      (inner.dueRelays now leaseSecs limit).2.HasRelays a' := by
  set entries := (inner.relays.filter fun e => e.1 ≤ now).insertionSort fun e e' => e.1 ≤ e'.1
    with hentries
  have hids : ((entries.map fun e => (e.1, e.2.id)).take limit).map Prod.snd =
      (entries.take limit).map fun e => e.2.id := by
    rw [← List.map_take, List.map_map]
    rfl
  have hmem : ∀ e ∈ entries.take limit, e ∈ inner.relays := by
    intro e he
    have hsorted : e ∈ entries := List.mem_of_mem_take he
    rw [hentries, List.mem_insertionSort] at hsorted
    exact List.mem_of_mem_filter hsorted
  -- what is handed out are the first due entries, which is what the agenda takes
  have htake : Agenda.Step PendingRelay.id a (.take now (now + leaseSecs) limit _) _ :=
    .take (Listed.due h now)
  rw [hids, Listed.items h hmem] at htake
  refine ⟨_, htake, ?_⟩
  have hlease := Listed.putOff h ((entries.take limit).map Prod.snd) (now + leaseSecs)
  rw [List.map_map] at hlease
  exact hlease

/-- Every other method leaves the relays alone. -/
theorem memory_relays {order : List (String × ℕ)} {op : Op} (hop : ¬ op.OnRelays) :
    (memory order op inner).2.relays = inner.relays := by
  have htouches : ¬ op.Touches .relays := by cases op <;> exact hop
  exact memory_sameArea htouches order inner

/-- The methods about relays answer what the agenda answers. -/
theorem HasRelays.step (h : inner.HasRelays a) {c : Call StoreCall}
    (hstep : MemoryStep inner c inner') : ∃ a', RelayStep a c a' ∧ inner'.HasRelays a' := by
  obtain ⟨op, reply⟩ := c
  obtain ⟨order, -, hhandled⟩ := hstep
  obtain ⟨rfl, rfl⟩ := hhandled.eq
  by_cases hop : op.OnRelays
  · cases op with
    | scheduleRelay relay due maxPending =>
      obtain ⟨stored, a', rfl, hput, ha'⟩ := h.schedule relay due maxPending
      exact ⟨a', .schedule hput, ha'⟩
    | dueRelays now leaseSecs limit =>
      obtain ⟨a', htake, ha'⟩ := h.due now leaseSecs limit
      exact ⟨a', .due htake, ha'⟩
    | finishRelay id => exact ⟨_, .finish, Listed.drop h id⟩
    | _ => exact hop.elim
  · refine ⟨a, .other hop, ?_⟩
    unfold HasRelays
    rw [memory_relays hop]
    exact h

end Inner

/-! ## The Redis store -/

namespace Redis

section SortedSets

variable {set : ZSet} {member : String} {score : ℕ} {e : ℕ × String}

/-- A sorted set holds after ZADD the new pair and the pairs of the other members. -/
theorem mem_zadd : e ∈ zadd score member set ↔ e = (score, member) ∨ e ∈ set ∧ e.2 ≠ member := by
  rw [zadd, List.mem_orderedInsert, List.mem_filter, bne_iff_ne]

/-- A sorted set holds after ZREM the pairs of the other members. -/
theorem mem_zrem : e ∈ zrem member set ↔ e ∈ set ∧ e.2 ≠ member := by
  rw [zrem, List.mem_filter, bne_iff_ne]

/-- Entries by score and then member, at most one of a member. -/
structure Ranked (set : ZSet) : Prop where
  sorted : set.Pairwise Agenda.Earlier
  members : (set.map Prod.snd).Nodup

/-- What is filtered out of a ranked set is ranked. -/
theorem Ranked.filter (h : Ranked set) (p : ℕ × String → Bool) : Ranked (set.filter p) where
  sorted := h.sorted.filter p
  members := h.members.sublist (List.filter_sublist.map Prod.snd)

/-- ZREM keeps a sorted set ranked. -/
theorem Ranked.zrem (h : Ranked set) (member : String) : Ranked (zrem member set) := h.filter _

/-- ZADD keeps a sorted set ranked, since the pair is put where its score belongs and the member's
old pair goes. -/
theorem Ranked.zadd (h : Ranked set) (score : ℕ) (member : String) :
    Ranked (zadd score member set) := by
  -- the member's old score is filtered out, so that it stands once
  have hother : ∀ e ∈ set.filter fun e => e.2 != member, e.2 ≠ member :=
    fun e he => by simpa using (List.mem_filter.mp he).2
  constructor
  case sorted =>
    refine Agenda.pairwise_orderedInsert ?_ (h.filter _).sorted ?_ ?_
    · exact fun _ _ _ hlt hlt' => Agenda.earlier_trans hlt hlt'
    · rintro e he (hlt | ⟨heq, hle⟩)
      · exact .inl hlt
      · exact .inr ⟨heq, lt_of_le_of_ne hle (hother e he).symm⟩
    · intro e he hgt
      have hne : (score, member) ≠ e := fun heq => hother e he (congrArg Prod.snd heq).symm
      exact (Agenda.earlier_total hne).resolve_left fun hlt =>
        hgt (hlt.imp_right fun ⟨heq, hlt⟩ => ⟨heq, hlt.le⟩)
  case members =>
    have hperm := (List.perm_orderedInsert (fun a b : ℕ × String =>
      a.1 < b.1 ∨ a.1 = b.1 ∧ a.2 ≤ b.2) (score, member) (set.filter fun e =>
        e.2 != member)).map Prod.snd
    rw [Redis.zadd, hperm.nodup_iff, List.map_cons, List.nodup_cons]
    refine ⟨fun hmem => ?_, (h.filter _).members⟩
    obtain ⟨e, he, heq⟩ := List.mem_map.mp hmem
    exact hother e he heq

/-- Adding several members with one score. -/
theorem mem_foldl_zadd {ids : List String} :
    e ∈ ids.foldl (fun set id => zadd score id set) set ↔
      (e.2 ∈ ids ∧ e.1 = score) ∨ (e.2 ∉ ids ∧ e ∈ set) := by
  induction ids generalizing set with
  | nil => simp
  | cons id ids ih =>
    rw [List.foldl_cons, ih, mem_zadd, List.mem_cons, not_or]
    constructor
    · rintro (⟨hmem, hscore⟩ | ⟨hnot, rfl | ⟨hset, hne⟩⟩)
      · exact .inl ⟨.inr hmem, hscore⟩
      · exact .inl ⟨.inl rfl, rfl⟩
      · exact .inr ⟨⟨hne, hnot⟩, hset⟩
    · rintro (⟨hmem, hscore⟩ | ⟨⟨hne, hnot⟩, hset⟩)
      · by_cases hids : e.2 ∈ ids
        · exact .inl ⟨hids, hscore⟩
        · exact .inr ⟨hids, .inl (Prod.ext hscore (hmem.resolve_right hids))⟩
      · exact .inr ⟨hnot, .inr ⟨hset, hne⟩⟩

/-- Writing one score to any list of members keeps a sorted set ranked. -/
theorem Ranked.foldl_zadd (h : Ranked set) (score : ℕ) (ids : List String) :
    Ranked (ids.foldl (fun set id => Redis.zadd score id set) set) := by
  induction ids generalizing set with
  | nil => exact h
  | cons id ids ih => exact ih (h.zadd score id)

end SortedSets

/-- The due set and the items are this agenda: they have the same ids. -/
structure Db.HasRelays (db : Db) (a : Relays) : Prop where
  ranked : Ranked db.relayDue
  ids : (db.relayItems.map Prod.fst).Nodup
  same : ∀ id, id ∈ db.relayDue.map Prod.snd ↔ id ∈ db.relayItems.map Prod.fst
  agrees : ∀ id due relay,
    a id = some (due, relay) ↔ (due, id) ∈ db.relayDue ∧ (id, relay) ∈ db.relayItems
  keyed : Agenda.Keyed PendingRelay.id a

namespace Db.HasRelays

variable {db db' : Db} {a : Relays}

/-- The empty database holds the empty agenda. -/
theorem empty (clock : ℕ) : (Db.empty clock).HasRelays Agenda.empty where
  ranked := ⟨List.Pairwise.nil, List.nodup_nil⟩
  ids := List.nodup_nil
  same _ := Iff.rfl
  agrees _ _ _ := by simp [Agenda.empty, Db.empty]
  keyed := Agenda.keyed_empty

/-- Every stored payload has a due time. -/
theorem due_of_item (h : db.HasRelays a) {id : String} {relay : PendingRelay}
    (hitem : (id, relay) ∈ db.relayItems) : ∃ due, (due, id) ∈ db.relayDue := by
  obtain ⟨⟨due, _⟩, hdue, rfl⟩ := List.mem_map.mp ((h.same id).mpr (List.mem_map_of_mem hitem))
  exact ⟨due, hdue⟩

/-- Every due time has a stored payload. -/
theorem item_of_due (h : db.HasRelays a) {id : String} {due : ℕ} (hdue : (due, id) ∈ db.relayDue) :
    ∃ relay, (id, relay) ∈ db.relayItems := by
  obtain ⟨⟨_, relay⟩, hitem, rfl⟩ := List.mem_map.mp ((h.same id).mp (List.mem_map_of_mem hdue))
  exact ⟨relay, hitem⟩

/-- The keys of the agenda are those of the hash of payloads. -/
theorem keys (h : db.HasRelays a) : Agenda.Keys a (db.relayItems.map Prod.fst) := by
  refine ⟨h.ids, fun id => ?_⟩
  rw [Option.isSome_iff_exists, List.mem_map]
  constructor
  · rintro ⟨⟨_, relay⟩, hitem, rfl⟩
    obtain ⟨due, hdue⟩ := h.due_of_item hitem
    exact ⟨(due, relay), (h.agrees _ _ _).mpr ⟨hdue, hitem⟩⟩
  · rintro ⟨⟨due, relay⟩, hrelay⟩
    exact ⟨(id, relay), ((h.agrees _ _ _).mp hrelay).2, rfl⟩

/-- The members of the sorted set scored `now` or less are the relays of the agenda that are due. -/
theorem due (h : db.HasRelays a) (now : ℕ) :
    Agenda.Due a now (db.relayDue.filter fun e => e.1 ≤ now) := by
  refine ⟨(h.ranked.filter _).sorted, fun due id => ?_⟩
  rw [List.mem_filter, decide_eq_true_eq]
  constructor
  · rintro ⟨hdue, hnow⟩
    obtain ⟨relay, hitem⟩ := h.item_of_due hdue
    exact ⟨hnow, relay, (h.agrees _ _ _).mpr ⟨hdue, hitem⟩⟩
  · rintro ⟨hnow, relay, hrelay⟩
    exact ⟨((h.agrees _ _ _).mp hrelay).1, hnow⟩

/-- The item of an id, as `HGET` finds it. -/
theorem find_item (h : db.HasRelays a) (id : String) :
    (db.relayItems.find? fun e => e.1 == id) = (a id).map fun e => (id, e.2) := by
  cases hrelay : a id with
  | none =>
    rw [Option.map_none, List.find?_eq_none]
    rintro ⟨_, relay⟩ hitem heq
    obtain rfl := beq_iff_eq.mp heq
    obtain ⟨due, hdue⟩ := h.due_of_item hitem
    rw [(h.agrees _ due relay).mpr ⟨hdue, hitem⟩] at hrelay
    exact nomatch hrelay
  | some e =>
    obtain ⟨-, hitem⟩ := (h.agrees id e.1 e.2).mp hrelay
    rw [Option.map_some]
    -- an item of the same id is the same item
    cases hfound : db.relayItems.find? fun e => e.1 == id with
    | none => exact absurd (beq_self_eq_true id) (List.find?_eq_none.mp hfound _ hitem)
    | some found =>
      have hid : found.1 = id := by simpa using List.find?_some hfound
      have hsame : found = (id, e.2) := List.inj_on_of_nodup_map h.ids
        (List.mem_of_find?_eq_some hfound) hitem hid
      rw [hsame]

/-- Writing the payload and the due time of a relay puts the relay into the agenda. -/
theorem put (h : db.HasRelays a) (relay : PendingRelay) (due : ℕ) :
    ({ db with
      relayItems := (relay.id, relay) :: db.relayItems.filter fun e => e.1 != relay.id
      relayDue := zadd due relay.id db.relayDue } : Db).HasRelays
      (Function.update a relay.id (some (due, relay))) := by
  have hitems : ∀ e : String × PendingRelay,
      e ∈ (relay.id, relay) :: (db.relayItems.filter fun e => e.1 != relay.id) ↔
        e = (relay.id, relay) ∨ e ∈ db.relayItems ∧ e.1 ≠ relay.id := fun e => by
    rw [List.mem_cons, List.mem_filter, bne_iff_ne]
  constructor
  case ranked => exact h.ranked.zadd due relay.id
  case ids =>
    rw [List.map_cons, List.nodup_cons]
    refine ⟨fun hmem => ?_, h.ids.sublist (List.filter_sublist.map Prod.fst)⟩
    obtain ⟨e, he, heq⟩ := List.mem_map.mp hmem
    exact absurd heq (by simpa using (List.mem_filter.mp he).2)
  -- payloads and due times get the same new id
  case same =>
    intro id
    simp only [List.mem_map, hitems, mem_zadd]
    have hsame := h.same id
    simp only [List.mem_map] at hsame
    by_cases hid : id = relay.id
    · subst hid
      exact ⟨fun _ => ⟨_, .inl rfl, rfl⟩, fun _ => ⟨_, .inl rfl, rfl⟩⟩
    · constructor
      · rintro ⟨e, rfl | ⟨he, hne⟩, rfl⟩
        · exact absurd rfl hid
        · obtain ⟨e', he', heq⟩ := hsame.mp ⟨e, he, rfl⟩
          exact ⟨e', .inr ⟨he', by rwa [heq]⟩, heq⟩
      · rintro ⟨e, rfl | ⟨he, hne⟩, rfl⟩
        · exact absurd rfl hid
        · obtain ⟨e', he', heq⟩ := hsame.mpr ⟨e, he, rfl⟩
          exact ⟨e', .inr ⟨he', by rwa [heq]⟩, heq⟩
  case agrees =>
    intro id due' relay'
    rw [mem_zadd, hitems]
    by_cases hid : id = relay.id
    · subst hid
      simp [eq_comm]
    · simp [h.agrees, hid]
  case keyed => exact h.keyed.put relay due

/-- Deleting the payload and the due time of an id takes the id out of the agenda. -/
theorem drop (h : db.HasRelays a) (id : String) :
    ({ db with
      relayDue := zrem id db.relayDue
      relayItems := db.relayItems.filter fun e => e.1 != id } : Db).HasRelays
      (Function.update a id none) := by
  constructor
  case ranked => exact h.ranked.zrem id
  case ids => exact h.ids.sublist (List.filter_sublist.map Prod.fst)
  -- payloads and due times lose the same id
  case same =>
    intro id'
    have hsame := h.same id'
    simp only [List.mem_map, List.mem_filter, bne_iff_ne, mem_zrem] at hsame ⊢
    constructor
    · rintro ⟨e, ⟨he, hne⟩, rfl⟩
      obtain ⟨e', he', heq⟩ := hsame.mp ⟨e, he, rfl⟩
      exact ⟨e', ⟨he', by rwa [heq]⟩, heq⟩
    · rintro ⟨e, ⟨he, hne⟩, rfl⟩
      obtain ⟨e', he', heq⟩ := hsame.mpr ⟨e, he, rfl⟩
      exact ⟨e', ⟨he', by rwa [heq]⟩, heq⟩
  case agrees =>
    intro id' due relay
    rw [mem_zrem, List.mem_filter, bne_iff_ne]
    by_cases hid : id' = id
    · subst hid
      simp
    · simp [h.agrees, hid]
  case keyed => exact h.keyed.drop id

/-- Scoring the due relays anew with the end of the lease puts them off in the agenda. -/
theorem putOff (h : db.HasRelays a) {ids : List String} (hids : ∀ id ∈ ids, (a id).isSome)
    (leaseEnd : ℕ) :
    ({ db with
      relayDue := ids.foldl (fun set id => zadd leaseEnd id set) db.relayDue } : Db).HasRelays
      (a.putOff ids leaseEnd) := by
  constructor
  case ranked => exact h.ranked.foldl_zadd leaseEnd ids
  case ids => exact h.ids
  -- every id that is put off had a payload, so no due time is added
  case same =>
    intro id
    have hsame := h.same id
    have hkeys := h.keys.mem_iff id
    simp only [List.mem_map, mem_foldl_zadd] at hsame hkeys ⊢
    by_cases hid : id ∈ ids
    · rw [hkeys]
      exact ⟨fun _ => hids id hid, fun _ => ⟨(leaseEnd, id), .inl ⟨hid, rfl⟩, rfl⟩⟩
    · rw [← hsame]
      constructor
      · rintro ⟨e, ⟨hmem, -⟩ | ⟨-, he⟩, rfl⟩
        · exact absurd hmem hid
        · exact ⟨e, he, rfl⟩
      · rintro ⟨e, he, rfl⟩
        exact ⟨e, .inr ⟨hid, he⟩, rfl⟩
  case agrees =>
    intro id due relay
    rw [Agenda.putOff_eq_some, mem_foldl_zadd]
    constructor
    · rintro (⟨hid, rfl, due', hrelay⟩ | ⟨hid, hrelay⟩)
      · exact ⟨.inl ⟨hid, rfl⟩, ((h.agrees _ _ _).mp hrelay).2⟩
      · obtain ⟨hdue, hitem⟩ := (h.agrees _ _ _).mp hrelay
        exact ⟨.inr ⟨hid, hdue⟩, hitem⟩
    · rintro ⟨⟨hid, rfl⟩ | ⟨hid, hdue⟩, hitem⟩
      · obtain ⟨due', hdue⟩ := h.due_of_item hitem
        exact .inl ⟨hid, rfl, due', (h.agrees _ _ _).mpr ⟨hdue, hitem⟩⟩
      · exact .inr ⟨hid, (h.agrees _ _ _).mpr ⟨hdue, hitem⟩⟩
  case keyed => exact h.keyed.putOff ids leaseEnd

end Db.HasRelays

/-! ### The scripts -/

variable {db db' : Db} {a : Relays}

/-- The script that stores a relay refuses a new id when the hash is full, and else writes both the
payload and the due time. -/
theorem exec_scheduleRelay (relay : PendingRelay) (due maxPending : ℕ) (db : Db) :
    (scheduleRelay relay due maxPending).exec db =
      if relay.id ∉ db.relayItems.map Prod.fst ∧ maxPending ≤ db.relayItems.length then (.ok 0, db)
      else (.ok 1,
        { db with
          relayItems := (relay.id, relay) :: db.relayItems.filter fun e => e.1 != relay.id
          relayDue := zadd due relay.id db.relayDue }) := by
  have hany : (db.relayItems.any fun e => e.1 == relay.id) = true ↔
      relay.id ∈ db.relayItems.map Prod.fst := by simp
  simp only [scheduleRelay, Script.exec_bind, Script.exec_read, Script.exec_write, Script.exec_ite,
    Script.exec_pure, Bool.and_eq_true, Bool.not_eq_true', ← Bool.not_eq_true, hany,
    decide_eq_true_eq]

/-- A loop over ids that have items leases and collects them all. -/
theorem exec_leaseLoop (leaseEnd : ℕ) {ids : List String}
    (hids : ∀ id ∈ ids, ∃ relay, (db.relayItems.find? fun e => e.1 == id) = some (id, relay)) :
    (leaseLoop leaseEnd ids).exec db = (
      .ok (ids.filterMap fun id => (db.relayItems.find? fun e => e.1 == id).map Prod.snd),
      { db with relayDue := ids.foldl (fun set id => zadd leaseEnd id set) db.relayDue }) := by
  induction ids generalizing db with
  | nil => rfl
  | cons id ids ih =>
    obtain ⟨⟨relay, hrelay⟩, hrest⟩ := List.forall_mem_cons.mp hids
    have hloop := @ih { db with relayDue := zadd leaseEnd id db.relayDue } hrest
    rw [leaseLoop, Script.exec_bind, Script.exec_read]
    simp only [hrelay, Script.exec_bind, Script.exec_write, hloop, Script.exec_pure,
      List.filterMap_cons, Option.map_some, List.foldl_cons]

/-- Running the script that stores a relay is one `put` of the agenda, whose answer says whether the
relay was stored. -/
theorem Db.HasRelays.schedule (h : db.HasRelays a) (relay : PendingRelay) (due maxPending : ℕ) :
    ∃ (stored : ℕ) (a' : Relays), ((scheduleRelay relay due maxPending).exec db).1 = .ok stored ∧
      Agenda.Step PendingRelay.id a (.put relay due maxPending (stored == 1)) a' ∧
      ((scheduleRelay relay due maxPending).exec db).2.HasRelays a' := by
  rw [exec_scheduleRelay]
  split
  · rename_i hfull
    exact ⟨0, a, rfl, .full h.keys (by rwa [List.length_map]), h⟩
  · rename_i hroom
    rw [not_and_or, not_not, Nat.not_le] at hroom
    exact ⟨1, _, rfl, .put h.keys (by rwa [List.length_map]), h.put relay due⟩

/-- Running the script that leases the due relays either fails at a LIMIT that Redis does not take
and changes nothing, or is one `take` of the agenda. -/
theorem Db.HasRelays.lease (h : db.HasRelays a) (now leaseEnd limit : ℕ) :
    (maxLimit < limit ∧ ∃ error, (dueRelays now leaseEnd limit).exec db = (.error error, db)) ∨
    ∃ (relays : List PendingRelay) (a' : Relays),
      ((dueRelays now leaseEnd limit).exec db).1 = .ok relays ∧
      Agenda.Step PendingRelay.id a (.take now leaseEnd limit relays) a' ∧
      ((dueRelays now leaseEnd limit).exec db).2.HasRelays a' := by
  by_cases hlimit : maxLimit < limit
  -- the LIMIT is past what Redis takes for an integer
  · refine .inl ⟨hlimit, "value is not an integer or out of range", ?_⟩
    rw [dueRelays, Script.exec_bind, zrangeLimit, if_pos hlimit, Script.exec_abort]
  · set ids := zrange now limit db.relayDue with hids
    have htaken : ids = ((db.relayDue.filter fun e => e.1 ≤ now).take limit).map Prod.snd := by
      rw [hids, zrange, List.map_take]
    -- every due time belongs to a relay of the agenda
    have hwaiting : ∀ id ∈ ids, (a id).isSome := by
      intro id hid
      rw [htaken] at hid
      obtain ⟨e, he, rfl⟩ := List.mem_map.mp hid
      obtain ⟨-, relay, hrelay⟩ := ((h.due now).mem_iff e.1 e.2).mp (List.mem_of_mem_take he)
      rw [hrelay]
      rfl
    have hitems : ∀ id ∈ ids, ∃ relay,
        (db.relayItems.find? fun e => e.1 == id) = some (id, relay) := by
      intro id hid
      obtain ⟨e, he⟩ := Option.isSome_iff_exists.mp (hwaiting id hid)
      exact ⟨e.2, by rw [h.find_item, he, Option.map_some]⟩
    -- so that every payload is found, and none is skipped
    have hcollected : (ids.filterMap fun id =>
        (db.relayItems.find? fun e => e.1 == id).map Prod.snd) =
      a.items ids := by
      unfold Agenda.items
      congr 1
      funext id
      rw [h.find_item, Option.map_map]
      rfl
    have hexec : (dueRelays now leaseEnd limit).exec db = (.ok (a.items ids),
        { db with relayDue := ids.foldl (fun set id => zadd leaseEnd id set) db.relayDue }) := by
      rw [dueRelays, Script.exec_bind, zrangeLimit, if_neg hlimit, Script.exec_read]
      exact (exec_leaseLoop leaseEnd hitems).trans (by rw [hcollected])
    rw [hexec]
    have htake : Agenda.Step PendingRelay.id a (.take now leaseEnd limit (a.items ids))
        (a.putOff ids leaseEnd) := by
      rw [htaken]
      exact .take (h.due now)
    exact .inr ⟨_, _, rfl, htake, h.putOff hwaiting leaseEnd⟩

/-- The agenda is read off the due set and the items. -/
theorem Db.HasRelays.of_same (h : db.HasRelays a)
    (hsame : db'.relayDue = db.relayDue ∧ db'.relayItems = db.relayItems) : db'.HasRelays a := by
  obtain ⟨hdue, hitems⟩ := hsame
  constructor
  · rw [hdue]
    exact h.ranked
  · rw [hitems]
    exact h.ids
  · rw [hdue, hitems]
    exact h.same
  · rw [hdue, hitems]
    exact h.agrees
  · exact h.keyed

/-- Only the methods about relays send requests about relays. -/
theorem Sends.onRelays {op : Op} {request : Request} (h : Sends op request)
    (hrelays : request.Touches .relays) : op.OnRelays := by
  cases op with
  | scheduleRelay | dueRelays | finishRelay => trivial
  | removeIdleMediations =>
    rcases h with rfl | ⟨_, rfl⟩ <;> exact hrelays.elim
  | summary =>
    rcases h with rfl | rfl <;> exact hrelays.elim
  | peek =>
    rcases h with rfl | rfl | ⟨_, rfl⟩ | ⟨_, rfl⟩ <;> exact hrelays.elim
  | _ =>
    cases h
    exact hrelays.elim

/-- Requests that are not about relays, and time, leave them as they are. -/
theorem run_relays {labels : List (Option (Call ServerCall))}
    (hrun : Transition.Run ServerStep db labels db')
    (hother : ∀ request, some request ∈ labels → ¬ request.op.Touches .relays) :
    db'.relayDue = db.relayDue ∧ db'.relayItems = db.relayItems := by
  induction hrun with
  | nil => exact ⟨rfl, rfl⟩
  | snoc _ hstep ih =>
    have hbefore := ih fun request hmem => hother request (List.mem_append_left _ hmem)
    cases hstep with
    | @request _ c handled =>
      obtain ⟨-, rfl⟩ := Program.Handled.eq handled
      have hlast := hother c (List.mem_append_right _ (List.mem_singleton_self _))
      obtain ⟨hdue, hitems⟩ := server_sameArea hlast _
      exact ⟨hdue.trans hbefore.1, hitems.trans hbefore.2⟩
    | time => exact hbefore

/-- The Redis store answers that a relay is stored exactly when its script returns one. -/
theorem redis_scheduleRelay {relay : PendingRelay} {due maxPending stored : ℕ} (db : Db)
    (h : ((scheduleRelay relay due maxPending).exec db).1 = .ok stored) :
    redis (.scheduleRelay relay due maxPending) db =
      (.ok (stored == 1), ((scheduleRelay relay due maxPending).exec db).2) := by
  have hexec : server (.scheduleRelay relay due maxPending) db =
      (.ok stored, ((scheduleRelay relay due maxPending).exec db).2) := Prod.ext h rfl
  change Program.run server _ (server (.scheduleRelay relay due maxPending) db).2 = _
  rw [hexec]
  rfl

/-- The methods about relays answer what the agenda answers. -/
theorem Db.HasRelays.step (h : db.HasRelays a) {c : Call StoreCall}
    (hstep : Program.Handled redis db c db') : ∃ a', RelayStep a c a' ∧ db'.HasRelays a' := by
  by_cases hop : c.op.OnRelays
  · obtain ⟨op, reply⟩ := c
    obtain ⟨rfl, rfl⟩ := hstep.eq
    cases op with
    | scheduleRelay relay due maxPending =>
      obtain ⟨stored, a', hstored, hput, ha'⟩ := h.schedule relay due maxPending
      rw [redis_scheduleRelay db hstored]
      exact ⟨a', .schedule hput, ha'⟩
    | dueRelays now leaseSecs limit =>
      rcases h.lease now (now + leaseSecs) limit with
        ⟨hlimit, error, hexec⟩ | ⟨relays, a', hrelays, htake, ha'⟩
      · refine ⟨a, ?_, ?_⟩
        · have hreply : (redis (.dueRelays now leaseSecs limit) db).1 = .error error :=
            congrArg Prod.fst hexec
          rw [hreply]
          exact .overLimit hlimit
        · have hsame : (redis (.dueRelays now leaseSecs limit) db).2 = db := congrArg Prod.snd hexec
          rw [hsame]
          exact h
      · refine ⟨a', ?_, ha'⟩
        have hreply : (redis (.dueRelays now leaseSecs limit) db).1 = .ok relays := hrelays
        rw [hreply]
        exact .due htake
    | finishRelay id => exact ⟨_, .finish, h.drop id⟩
    | _ => exact hop.elim
  -- the other methods send no request about relays
  · obtain ⟨requests, hrun, hsends⟩ := redis_requests hstep
    refine ⟨a, .other hop, h.of_same (run_relays hrun fun request hmem hrelays => ?_)⟩
    obtain ⟨r, hr, heq⟩ := List.mem_map.mp hmem
    obtain rfl := Option.some_inj.mp heq
    exact hop (Sends.onRelays (hsends r hr) hrelays)

end Redis

/-! ## The same machine -/

/-- A store whose methods about relays answer what an agenda answers. -/
structure RelayStore (σ : Type) where
  /-- The store's methods. -/
  env : Program.Environment StoreCall σ
  /-- The store's relays are this agenda. -/
  Has : σ → Relays → Prop
  keyed : ∀ {s a}, Has s a → Agenda.Keyed PendingRelay.id a
  step : ∀ {s t a c}, Has s a → env s c t → ∃ a', RelayStep a c a' ∧ Has t a'

/-- The in-process store. -/
def Inner.relayStore : RelayStore Inner where
  env := MemoryStep
  Has := Inner.HasRelays
  keyed h := Listed.keyed h
  step h hstep := h.step hstep

/-- The Redis store. -/
def Redis.relayStore : RelayStore Redis.Db where
  env := Redis.RedisStep
  Has := Redis.Db.HasRelays
  keyed h := h.keyed
  step h hstep := by
    obtain ⟨ms, hhandled⟩ := hstep
    have hlater : (Redis.Db.advance ms _).HasRelays _ := h.of_same ⟨rfl, rfl⟩
    exact hlater.step hhandled

/-- The calls about relays. -/
def relayCalls (calls : List (Call StoreCall)) : List (Call StoreCall) :=
  calls.filter fun c => c.op.OnRelays

/-- Redis reads the limit of a call. -/
def Op.LimitFits : Op → Prop
  | .dueRelays _ _ limit => limit ≤ Redis.maxLimit
  | _ => True

section Runs

variable {a b b' : Relays} {calls calls' : List (Call StoreCall)} {c c' : Call StoreCall}

/-- Asked the same, the relays answer the same and become the same. -/
theorem RelayStep.unique (h : RelayStep a c b) (h' : RelayStep a c' b') (hop : c.op = c'.op)
    (hrelays : c.op.OnRelays) (hlimit : c.op.LimitFits) : c = c' ∧ b = b' := by
  cases h with
  -- one method has one kind of step, and the agenda has one outcome for it
  | schedule hput =>
    cases h' with
    | schedule hput' =>
      obtain ⟨rfl, rfl, rfl⟩ := Op.scheduleRelay.inj hop
      obtain ⟨hevent, rfl⟩ := hput.unique hput' ⟨rfl, rfl, rfl⟩
      obtain ⟨-, -, -, rfl⟩ := Agenda.Event.put.inj hevent
      exact ⟨rfl, rfl⟩
    | other hnot => exact absurd (by rw [← hop]; trivial) hnot
    | _ => exact nomatch hop
  | due htake =>
    cases h' with
    | due htake' =>
      obtain ⟨rfl, rfl, rfl⟩ := Op.dueRelays.inj hop
      obtain ⟨hevent, rfl⟩ := htake.unique htake' ⟨rfl, rfl, rfl⟩
      obtain ⟨-, -, -, rfl⟩ := Agenda.Event.take.inj hevent
      exact ⟨rfl, rfl⟩
    | overLimit hover =>
      obtain ⟨rfl, rfl, rfl⟩ := Op.dueRelays.inj hop
      exact absurd hlimit (Nat.not_le.mpr hover)
    | other hnot => exact absurd (by rw [← hop]; trivial) hnot
    | _ => exact nomatch hop
  -- a LIMIT that fits is never over the limit
  | overLimit hover => exact absurd hlimit (Nat.not_le.mpr hover)
  | finish =>
    cases h' with
    | finish =>
      obtain rfl := Op.finishRelay.inj hop
      exact ⟨rfl, rfl⟩
    | other hnot => exact absurd (by rw [← hop]; trivial) hnot
    | _ => exact nomatch hop
  | other hnot => exact absurd hrelays hnot

/-- Calls that are not about relays can be left out. -/
theorem run_relayCalls (h : Transition.Run RelayStep a calls b) :
    Transition.Run RelayStep a (relayCalls calls) b := by
  induction h with
  | nil => exact .nil
  | @snoc calls b b' c _ hstep ih =>
    rw [relayCalls, List.filter_append]
    by_cases hop : c.op.OnRelays
    · rw [List.filter_singleton, decide_eq_true hop]
      exact .snoc ih hstep
    · rw [List.filter_singleton, decide_eq_false hop]
      cases hstep with
      | other => simpa [relayCalls] using ih
      | _ => exact absurd trivial hop

/-- Two runs over the same operations are the same. -/
theorem run_unique (h : Transition.Run RelayStep a calls b)
    (h' : Transition.Run RelayStep a calls' b') (hops : calls.map Call.op = calls'.map Call.op)
    (hrelays : ∀ c ∈ calls, c.op.OnRelays) (hlimits : ∀ c ∈ calls, c.op.LimitFits) :
    calls = calls' ∧ b = b' := by
  -- both runs are cut at their last call
  induction h generalizing calls' b' with
  | nil =>
    obtain rfl : calls' = [] := List.map_eq_nil_iff.mp hops.symm
    exact ⟨rfl, h'.nil_inv.symm⟩
  | @snoc calls t b c _ hstep ih =>
    rcases List.eq_nil_or_concat calls' with rfl | ⟨calls', c', rfl⟩
    · simp at hops
    · rw [List.concat_eq_append] at h' hops ⊢
      rw [List.map_append, List.map_append] at hops
      obtain ⟨hbefore, hlast⟩ := List.append_inj' hops rfl
      obtain ⟨t', hrun', hstep'⟩ := h'.snoc_inv
      rw [List.forall_mem_append] at hrelays hlimits
      obtain ⟨rfl, rfl⟩ := ih hrun' hbefore hrelays.1 hlimits.1
      obtain ⟨rfl, rfl⟩ := hstep.unique hstep' (by simpa using hlast)
        (hrelays.2 c (List.mem_singleton_self c)) (hlimits.2 c (List.mem_singleton_self c))
      exact ⟨rfl, rfl⟩

/-- The answered calls are the history of the relays. -/
theorem reaches_of_run (h : Transition.Run RelayStep Agenda.empty calls a) :
    Agenda.Reaches PendingRelay.id (calls.filterMap relayEvent) a := by
  induction h with
  | nil => exact .nil
  | @snoc calls t t' c _ hstep ih =>
    rw [List.filterMap_append]
    cases hstep with
    | schedule hput => exact .snoc ih hput
    | due htake => exact .snoc ih htake
    | overLimit => simpa [List.filterMap_cons, relayEvent] using ih
    | finish => exact .snoc ih .drop
    | other hnot =>
      have hnone : relayEvent c = none := by
        unfold relayEvent
        split <;> first | rfl | exact absurd trivial hnot
      simpa [hnone] using ih

/-- Leases do not end before they begin. -/
theorem forward_relayEvents (calls : List (Call StoreCall)) :
    Agenda.Forward (calls.filterMap relayEvent) := by
  intro now until_ limit taken hmem
  obtain ⟨c, -, hevent⟩ := List.mem_filterMap.mp hmem
  unfold relayEvent at hevent
  split at hevent
  · exact nomatch hevent
  · obtain ⟨rfl, rfl, -, -⟩ := Agenda.Event.take.inj (Option.some_inj.mp hevent)
    exact Nat.le_add_right _ _
  · exact nomatch hevent
  · exact nomatch hevent

/-- Along any calls on a store its relays go through a run. -/
theorem RelayStore.run {σ : Type} (store : RelayStore σ) {s t : σ} (hs : store.Has s a)
    (h : Transition.Run store.env s calls t) :
    ∃ b, Transition.Run RelayStep a calls b ∧ store.Has t b := by
  induction h with
  | nil => exact ⟨a, .nil, hs⟩
  | snoc _ hstep ih =>
    obtain ⟨b, hrun, hb⟩ := ih
    obtain ⟨b', hstep', hb'⟩ := store.step hb hstep
    exact ⟨b', hrun.snoc hstep', hb'⟩

end Runs

/-- Asked the same about relays, within the limits Redis reads, the two stores answer the same, and
keep the same relays: those of the history of an agenda. -/
theorem relay_stores_agree {calls calls' : List (Call StoreCall)} {inner : Inner} {clock : ℕ}
    {db : Redis.Db} (hmemory : Transition.Run MemoryStep .empty calls inner)
    (hredis : Transition.Run Redis.RedisStep (.empty clock) calls' db)
    (hasked : (relayCalls calls).map Call.op = (relayCalls calls').map Call.op)
    (hlimits : ∀ c ∈ calls, c.op.LimitFits) :
    relayCalls calls = relayCalls calls' ∧
      (∃ a, Agenda.Reaches PendingRelay.id (calls.filterMap relayEvent) a ∧
        inner.HasRelays a ∧ db.HasRelays a) ∧
      Agenda.Kept PendingRelay.id (calls.filterMap relayEvent) := by
  have hempty : Inner.relayStore.Has .empty Agenda.empty := Listed.empty
  obtain ⟨a, hrun, hinner⟩ := Inner.relayStore.run hempty hmemory
  have hempty' : Redis.relayStore.Has (.empty clock) Agenda.empty := Redis.Db.HasRelays.empty clock
  obtain ⟨a', hrun', hdb⟩ := Redis.relayStore.run hempty' hredis
  have honly : ∀ c ∈ relayCalls calls, c ∈ calls ∧ c.op.OnRelays := fun c hc => by
    simpa [relayCalls] using hc
  obtain ⟨hsame, rfl⟩ := run_unique (run_relayCalls hrun) (run_relayCalls hrun') hasked
    (fun c hc => (honly c hc).2) fun c hc => hlimits c (honly c hc).1
  -- both stores follow one agenda
  have hreaches := reaches_of_run hrun
  exact ⟨hsame, ⟨a, hreaches, hinner, hdb⟩, hreaches.kept (forward_relayEvents calls)⟩

namespace RelayExample

def relay (id : String) : PendingRelay := ⟨id, "https://o/didcomm", "e", 0⟩

/-- Two relays are scheduled where only one may wait, and the one is leased. -/
def calls : List (Call StoreCall) :=
  [⟨.scheduleRelay (relay "a") 5 1, .ok true⟩, ⟨.scheduleRelay (relay "b") 4 1, .ok false⟩,
    ⟨.dueRelays 10 60 16, .ok [relay "a"]⟩]

/-- The states of the in-process store. -/
def inner (calls : List (Call StoreCall)) : Inner :=
  calls.foldl (fun s c => (memory [] c.op s).2) .empty

/-- The states of the Redis store. -/
def db (calls : List (Call StoreCall)) : Redis.Db :=
  calls.foldl (fun s c => (Redis.redis c.op (s.advance 0)).2) (.empty 0)

/-- The calls of the example are a run of the in-process store. -/
theorem memory_run : Transition.Run MemoryStep .empty calls (inner calls) :=
  .cons ⟨[], .refl _, rfl⟩ (.cons ⟨[], .refl _, rfl⟩ (.single ⟨[], .refl _, rfl⟩))

/-- The calls of the example are a run of the Redis store. -/
theorem redis_run : Transition.Run Redis.RedisStep (.empty 0) calls (db calls) :=
  .cons ⟨0, rfl⟩ (.cons ⟨0, rfl⟩ (.single ⟨0, rfl⟩))

end RelayExample

/-- Both stores keep the leased relay, and no other. -/
theorem relay_stores_agree_leased :
    ∃ a : Relays, (RelayExample.inner RelayExample.calls).HasRelays a ∧
      (RelayExample.db RelayExample.calls).HasRelays a := by
  have hlimits : ∀ c ∈ RelayExample.calls, c.op.LimitFits := by
    simp [RelayExample.calls, Op.LimitFits, Redis.maxLimit]
  obtain ⟨-, ⟨a, -, hinner, hdb⟩, -⟩ := relay_stores_agree RelayExample.memory_run
    RelayExample.redis_run rfl hlimits
  exact ⟨a, hinner, hdb⟩

/-- Above the limits Redis reads, the in-process store answers and Redis does not. -/
theorem relay_stores_differ :
    ¬ ∀ (calls calls' : List (Call StoreCall)) (inner : Inner) (clock : ℕ) (db : Redis.Db),
      Transition.Run MemoryStep .empty calls inner →
      Transition.Run Redis.RedisStep (.empty clock) calls' db →
      (relayCalls calls).map Call.op = (relayCalls calls').map Call.op →
      relayCalls calls = relayCalls calls' := by
  intro h
  have hmemory : MemoryStep .empty ⟨.dueRelays 0 60 (2 ^ 63), .ok []⟩ .empty := ⟨[], .refl _, rfl⟩
  have hredis : Redis.RedisStep (.empty 0) ⟨.dueRelays 0 60 (2 ^ 63),
      .error "value is not an integer or out of range"⟩ (.empty 0) := ⟨0, rfl⟩
  have hsame : [(⟨.dueRelays 0 60 (2 ^ 63), .ok []⟩ : Call StoreCall)] =
      [⟨.dueRelays 0 60 (2 ^ 63), .error "value is not an integer or out of range"⟩] :=
    h _ _ _ 0 _ (.single hmemory) (.single hredis) rfl
  simp at hsame

end Store
