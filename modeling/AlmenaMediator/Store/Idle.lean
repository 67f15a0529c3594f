import AlmenaMediator.Library.Interference
import AlmenaMediator.Library.Sweep
import AlmenaMediator.Store.Estates
import AlmenaMediator.Store.Ownership

/-!
# Idle mediations

A mediation is idle when it was last active at or before a cutoff. While wallets are only active
after the cutoff, none becomes idle (`MemoryStep.idle_subset`). A removal takes the idle mediations
away, each with all it has, and the others keep what they have.
-/

namespace Store

variable {cutoff limit : ℕ} {m : String}

/-- The method makes no mediation active at or before the cutoff. -/
def Op.Fresh (cutoff : ℕ) : Op → Prop
  | .grantMediation _ now | .touchMediation _ now => cutoff < now
  | _ => True

/-! ## The in-process store -/

namespace Inner

/-- The mediations last active at or before the cutoff. -/
def idle (cutoff : ℕ) (inner : Inner) : Finset String :=
  ((inner.seen.filter fun e => e.2 ≤ cutoff).map Prod.fst).toFinset

/-- Each mediation has one record of when it was last active. -/
def SeenOnce (inner : Inner) : Prop := (inner.seen.map Prod.fst).Nodup

/-- The mediation has nothing. -/
structure Gone (m : String) (inner : Inner) : Prop where
  grant : inner.mediations m = false
  seen : ∀ at_, (m, at_) ∉ inner.seen
  recipients : inner.recipients m = []
  owners : ∀ r, inner.owners r ≠ some m
  queue : inner.queues m = []
  devices : ∀ service, inner.devices m service = none
  pushMarker : inner.pushSent m = none

variable {inner inner' : Inner} {c : Call StoreCall}

/-- A mediation is idle by the cutoff when its last contact is recorded at the cutoff or before. -/
theorem mem_idle : m ∈ inner.idle cutoff ↔ ∃ at_ ≤ cutoff, (m, at_) ∈ inner.seen := by
  simp only [idle, List.mem_toFinset, List.mem_map, List.mem_filter, decide_eq_true_eq, Prod.exists]
  constructor
  · rintro ⟨_, at_, ⟨hmem, hat⟩, rfl⟩
    exact ⟨at_, hat, hmem⟩
  · rintro ⟨at_, hat, hmem⟩
    exact ⟨m, at_, ⟨hmem, hat⟩, rfl⟩

/-- Removing mediations forgets their last contact and no other. -/
@[simp] theorem foldl_removeMediation_seen (removed : List String) (inner : Inner) :
    (removed.foldl removeMediation inner).seen = inner.seen.filter fun e => e.1 ∉ removed := by
  induction removed generalizing inner with
  | nil => simp
  | cons first rest ih =>
    rw [List.foldl_cons, ih, removeMediation, List.filter_filter]
    refine List.filter_congr fun e _ => ?_
    by_cases he : e.1 = first <;> simp [he]

/-- A call grants or touches a mediation, or removes idle ones; else nothing is recorded. -/
theorem seen_of_step (hstep : MemoryStep inner c inner') :
    inner'.seen = inner.seen ∨
    (∃ m now, (c.op = .grantMediation m now ∨ c.op = .touchMediation m now) ∧
      inner'.seen = (inner.see m now).seen) ∨
    ∃ removed : List String, inner'.seen = inner.seen.filter fun e => e.1 ∉ removed := by
  by_cases htouches : c.op.Touches .seen
  swap
  · exact .inl (hstep.sameArea htouches)
  obtain ⟨order, -, hstep⟩ := hstep
  obtain ⟨op, reply⟩ := c
  obtain ⟨rfl, rfl⟩ := hstep.eq
  cases op with
  -- a granted or active mediation is seen, and a removed one is forgotten
  | grantMediation m now => exact .inr (.inl ⟨m, now, .inl rfl, rfl⟩)
  | touchMediation m now =>
    simp only [memory, touchMediation]
    split
    · exact .inr (.inl ⟨m, now, .inr rfl, rfl⟩)
    · exact .inl rfl
  | removeIdleMediations cutoff limit =>
    right
    right
    exact ⟨_, foldl_removeMediation_seen _ inner⟩
  | _ => exact htouches.elim

/-- Each mediation keeps one record. -/
theorem SeenOnce.step (hstep : MemoryStep inner c inner')
    (h : inner.SeenOnce) : inner'.SeenOnce := by
  have hfilter : ∀ p : String × ℕ → Bool, ((inner.seen.filter p).map Prod.fst).Nodup := fun p =>
    h.sublist (List.filter_sublist.map Prod.fst)
  rcases seen_of_step hstep with heq | ⟨m, now, -, heq⟩ | ⟨removed, heq⟩
  · rwa [SeenOnce, heq]
  · rw [SeenOnce, heq, see, List.map_cons, List.nodup_cons]
    refine ⟨fun hmem => ?_, hfilter _⟩
    obtain ⟨e, he, heq⟩ := List.mem_map.mp hmem
    have hne : e.1 ≠ m := by simpa using (List.mem_filter.mp he).2
    exact hne heq
  · rw [SeenOnce, heq]
    exact hfilter _

/-- No mediation becomes idle while mediations are only active after the cutoff. -/
theorem idle_subset (hstep : MemoryStep inner c inner') (hfresh : c.op.Fresh cutoff) :
    inner'.idle cutoff ⊆ inner.idle cutoff := by
  intro m hm
  obtain ⟨at_, hat, hmem⟩ := mem_idle.mp hm
  refine mem_idle.mpr ⟨at_, hat, ?_⟩
  rcases seen_of_step hstep with heq | ⟨m', now, hop, heq⟩ | ⟨removed, heq⟩
  · rwa [heq] at hmem
  · have hnow : cutoff < now := by
      rcases hop with hop | hop <;> exact (hop ▸ hfresh : Op.Fresh cutoff _)
    rw [heq, see, List.mem_cons] at hmem
    rcases hmem with hnew | hold
    · -- the record is the new one, which is after the cutoff
      obtain rfl := (Prod.mk.inj hnew).2
      exact absurd hnow (Nat.not_lt.mpr hat)
    · exact (List.mem_filter.mp hold).1
  · rw [heq] at hmem
    exact (List.mem_filter.mp hmem).1

/-! ## A removal -/

section Removal

variable {removed : List String}

/-- A removal answers some of the idle mediations, as many as it may, and takes them away one
by one. -/
theorem removal_eq (hstep : MemoryStep inner ⟨.removeIdleMediations cutoff
    limit, .ok removed⟩ inner') : ∃ order : List (String × ℕ), order.Perm inner.seen ∧
      removed = ((order.filter fun e => e.2 ≤ cutoff).map Prod.fst).take limit ∧
      inner' = removed.foldl removeMediation inner := by
  obtain ⟨order, horder, hstep⟩ := hstep
  obtain ⟨hreply, rfl⟩ := hstep.eq
  obtain rfl := Except.ok.inj hreply
  exact ⟨order, horder, rfl, rfl⟩

/-- A removal is a batch of a sweep: it takes what it can, and the rest is left. -/
theorem removal_batch (h : inner.SeenOnce)
    (hstep : MemoryStep inner ⟨.removeIdleMediations cutoff limit, .ok removed⟩ inner') :
    Sweep.Batch (inner.idle cutoff) removed (inner'.idle cutoff) ∧
      removed.length = min limit (inner.idle cutoff).card := by
  obtain ⟨order, horder, rfl, rfl⟩ := removal_eq hstep
  -- the order of the map does not matter, as each mediation is in it once
  have hlisted : ((order.filter fun e => e.2 ≤ cutoff).map Prod.fst).Perm
      ((inner.seen.filter fun e => e.2 ≤ cutoff).map Prod.fst) := (horder.filter _).map _
  have hnodup : ((inner.seen.filter fun e => e.2 ≤ cutoff).map Prod.fst).Nodup :=
    h.sublist (List.filter_sublist.map Prod.fst)
  refine ⟨⟨(hlisted.nodup_iff.mpr hnodup).sublist (List.take_sublist _ _), fun m hm =>
    ?_, fun m hm => ?_⟩, ?_⟩
  · exact List.mem_toFinset.mpr (hlisted.mem_iff.mp (List.mem_of_mem_take hm))
  · obtain ⟨at_, hat, hmem⟩ := mem_idle.mp hm
    rw [foldl_removeMediation_seen] at hmem
    obtain ⟨hseen, hkept⟩ := List.mem_filter.mp hmem
    rw [Finset.mem_sdiff, List.mem_toFinset]
    exact ⟨mem_idle.mpr ⟨at_, hat, hseen⟩, by simpa using hkept⟩
  · rw [List.length_take, idle, List.toFinset_card_of_nodup hnodup, hlisted.length_eq]

/-- A removal with room left over leaves no idle mediation. -/
theorem removal_done (h : inner.SeenOnce)
    (hstep : MemoryStep inner ⟨.removeIdleMediations cutoff limit, .ok removed⟩ inner')
    (hroom : removed.length < limit) : inner'.idle cutoff = ∅ := by
  obtain ⟨hbatch, hlength⟩ := removal_batch h hstep
  have hall : removed.length = (inner.idle cutoff).card := by omega
  have hcard := hbatch.card_add_le
  exact Finset.card_eq_zero.mp (by omega)

/-! ### What goes and what stays -/

/-- The two records of who registered what agree. -/
structure Registered (inner : Inner) : Prop where
  /-- An owner has the DID among its recipients. -/
  listed : inner.OwnersListed
  /-- A recipient is owned by who has it. -/
  owned : ∀ r m, r ∈ inner.recipients m → inner.owners r = some m

/-- One mediation goes with all it has. -/
theorem removeMediation_gone (h : inner.Registered)
    (m : String) : (inner.removeMediation m).Gone m where
  grant := Function.update_self ..
  seen at_ hmem := by simpa using (List.mem_filter.mp hmem).2
  recipients := Function.update_self ..
  owners r howner := by
    simp only [removeMediation, Option.ite_none_left_eq_some] at howner
    exact howner.1 (h.listed r m howner.2)
  queue := Function.update_self ..
  devices service := by simp [removeMediation]
  pushMarker := Function.update_self ..

/-- What is gone stays gone when another one is removed. -/
theorem Gone.removeMediation (h : inner.Gone m)
    (m' : String) : (inner.removeMediation m').Gone m := by
  by_cases hm : m = m'
  · subst hm
    refine ⟨Function.update_self .., fun at_ hmem => h.seen at_ (List.mem_filter.mp hmem).1,
      Function.update_self .., fun r howner => ?_, Function.update_self ..,
      fun service => by simp [Inner.removeMediation], Function.update_self ..⟩
    simp only [Inner.removeMediation, Option.ite_none_left_eq_some] at howner
    exact h.owners r howner.2
  · refine ⟨?_, fun at_ hmem => h.seen at_ (List.mem_filter.mp hmem).1, ?_,
      fun r howner => ?_, ?_, ?_, ?_⟩
    · simpa [Inner.removeMediation, hm] using h.grant
    · simpa [Inner.removeMediation, hm] using h.recipients
    · simp only [Inner.removeMediation, Option.ite_none_left_eq_some] at howner
      exact h.owners r howner.2
    · simpa [Inner.removeMediation, hm] using h.queue
    · simpa [Inner.removeMediation, hm] using h.devices
    · simpa [Inner.removeMediation, hm] using h.pushMarker

/-- The other mediations keep what they have. -/
theorem removeMediation_same (h : inner.Registered) {m' : String} (hm : m ≠ m') (part : Part) :
    inner.Same part m (inner.removeMediation m') := by
  cases part with
  | lastActive =>
    change ((inner.seen.filter fun e => e.1 != m').filter fun e => e.1 == m) = _
    rw [List.filter_filter]
    refine List.filter_congr fun e _ => ?_
    by_cases he : e.1 = m <;> simp [he, hm]
  | recipients =>
    refine ⟨Function.update_of_ne hm _ _, fun did => ?_⟩
    simp only [removeMediation, Option.ite_none_left_eq_some, and_iff_right_iff_imp]
    intro howner hmem
    rw [h.owned did m' hmem, Option.some_inj] at howner
    exact hm howner.symm
  | _ => exact Function.update_of_ne hm _ _

/-- Removing a mediation keeps every recorded contact one of a granted mediation. -/
theorem removeMediation_registered (h : inner.Registered) (m' : String) :
    (inner.removeMediation m').Registered := by
  constructor
  · intro r m howner
    simp only [removeMediation, Option.ite_none_left_eq_some] at howner ⊢
    have hlisted := h.listed r m howner.2
    have hm : m ≠ m' := fun heq => howner.1 (heq ▸ hlisted)
    rwa [Function.update_of_ne hm]
  · intro r m hmem
    simp only [removeMediation] at hmem ⊢
    by_cases hm : m = m'
    · simp [hm] at hmem
    · rw [Function.update_of_ne hm] at hmem
      rw [Option.ite_none_left_eq_some]
      refine ⟨fun hmem' => hm ?_, h.owned r m hmem⟩
      exact Option.some_inj.mp ((h.owned r m hmem).symm.trans (h.owned r m' hmem'))

/-- Those removed go, and the others stay as they are. -/
theorem foldl_removeMediation_parts (removed : List String) (h : inner.Registered) (m : String) :
    (m ∈ removed ∨ inner.Gone m → (removed.foldl removeMediation inner).Gone m) ∧
      (m ∉ removed → ∀ part, inner.Same part m (removed.foldl removeMediation inner)) := by
  -- what is gone stays gone while the others are removed
  induction removed generalizing inner with
  | nil => exact ⟨fun hm => hm.resolve_left List.not_mem_nil, fun _ part => Same.refl part m inner⟩
  | cons first rest ih =>
    obtain ⟨hgone, hsame⟩ := ih (removeMediation_registered h first)
    rw [List.foldl_cons]
    constructor
    · rintro (hm | hm)
      · rcases List.mem_cons.mp hm with rfl | hm
        · exact hgone (.inr (removeMediation_gone h m))
        · exact hgone (.inl hm)
      · exact hgone (.inr (hm.removeMediation first))
    · intro hm part
      rw [List.mem_cons, not_or] at hm
      exact (removeMediation_same h hm.1 part).trans (hsame hm.2 part)

end Removal

end Inner

section Reachable

variable {inner : Inner} {max : ℕ}

/-- What is reached from an empty store has one record for each mediation. -/
theorem MemoryReachable.seenOnce (h : MemoryReachable max inner) : inner.SeenOnce := by
  obtain ⟨calls, hrun, -⟩ := h
  have hempty : Inner.empty.SeenOnce := List.nodup_nil
  exact hrun.invariant hempty fun _ _ _ h hstep => h.step hstep

/-- The two records of who registered what agree in every reachable store. -/
theorem MemoryReachable.registered (h : MemoryReachable max inner) : inner.Registered := by
  obtain ⟨s, hsound, hregisters⟩ := h.registry
  have hagree := hregisters.agree hsound
  exact ⟨fun r m => (hagree.agree r m).mp, fun r m => (hagree.agree r m).mpr⟩

end Reachable

end Store
