import AlmenaMediator.Library.Registry
import AlmenaMediator.Store.Footprint
import AlmenaMediator.Store.Redis.Footprint

/-!
# Who owns a recipient DID

Both stores keep recipient DIDs twice: the owner of each DID, and each mediation's set. Both are a
`Registry` of DIDs owned by mediations: every method call, and every request to the Redis server, is
a few steps of one (`MemoryStep.registry`, `ServerStep.registry`). So the two sides agree in every
reachable state, and a DID leaves its mediation only when that mediation removes it or is removed.
-/

namespace Store

/-- An owner map and recipient sets that stand for a registry. -/
structure Registers (owner : String → Option String) (sets : String → List String)
    (s : Registry.State String String) : Prop where
  owner_eq : owner = s.owner
  nodup : ∀ m, (sets m).Nodup
  holdings : ∀ m, (sets m).toFinset = s.holdings m

namespace Registers

variable {owner : String → Option String} {sets : String → List String}
  {s : Registry.State String String} {m r : String} {set : List String}

/-- The empty store registers the empty registry. -/
theorem empty : Registers (fun _ => none) (fun _ => []) .empty where
  owner_eq := rfl
  nodup := by simp
  holdings := by simp [Registry.State.empty]

/-- A DID is in the set of a mediation exactly when the registry holds it for the mediation. -/
theorem mem_iff (h : Registers owner sets s) : r ∈ sets m ↔ r ∈ s.holdings m := by
  rw [← h.holdings, List.mem_toFinset]

/-- The set of a mediation is as long as what the registry holds for it. -/
theorem length_eq (h : Registers owner sets s) : (sets m).length = (s.holdings m).card := by
  rw [← h.holdings, List.toFinset_card_of_nodup (h.nodup m)]

/-- Writing `m` as the owner of `r` and putting `r` into the set of `m` registers the claim of `r`
by `m`. -/
theorem claim (h : Registers owner sets s) (hnodup : set.Nodup)
    (hset : set.toFinset = insert r (sets m).toFinset) :
    Registers (Function.update owner r (some m)) (Function.update sets m set) (s.claim m r) := by
  constructor
  · rw [h.owner_eq]
    rfl
  · intro m'
    by_cases hm : m' = m
    · subst hm
      simpa using hnodup
    · simpa [Function.update_of_ne hm] using h.nodup m'
  · intro m'
    by_cases hm : m' = m
    · subst hm
      simp [Registry.State.claim, hset, h.holdings]
    · simpa [Registry.State.claim, Function.update_of_ne hm] using h.holdings m'

/-- Clearing the owner of `r` and taking `r` out of the set of `m` registers the release of `r` by
`m`. -/
theorem release (h : Registers owner sets s) :
    Registers (Function.update owner r none) (Function.update sets m ((sets m).erase r))
      (s.release m r) := by
  constructor
  · rw [h.owner_eq]
    rfl
  · intro m'
    by_cases hm : m' = m
    · subst hm
      simpa using (h.nodup m').erase r
    · simpa [Function.update_of_ne hm] using h.nodup m'
  · intro m'
    by_cases hm : m' = m
    · subst hm
      ext r'
      simp [Registry.State.release, (h.nodup m').mem_erase_iff, ← h.mem_iff]
    · simpa [Registry.State.release, Function.update_of_ne hm] using h.holdings m'

/-- Clearing the owners of all that `m` holds together with its set registers the expulsion of `m`.
-/
theorem expel (h : Registers owner sets s) :
    Registers (fun r => if r ∈ sets m then none else owner r) (Function.update sets m [])
      (s.expel m) := by
  constructor
  · funext r
    simp only [Registry.State.expel, h.owner_eq, h.mem_iff]
  · intro m'
    by_cases hm : m' = m
    · subst hm
      simp
    · simpa [Function.update_of_ne hm] using h.nodup m'
  · intro m'
    by_cases hm : m' = m
    · subst hm
      simp [Registry.State.expel]
    · simpa [Registry.State.expel, Function.update_of_ne hm] using h.holdings m'

end Registers

/-- The owner map and the recipient sets say the same, no set exceeds `max`. -/
structure Agree (max : ℕ) (owner : String → Option String)
    (sets : String → List String) : Prop where
  agree : ∀ r m, owner r = some m ↔ r ∈ sets m
  /-- No DID is in two sets. -/
  once : ∀ r m m', r ∈ sets m → r ∈ sets m' → m = m'
  nodup : ∀ m, (sets m).Nodup
  bounded : ∀ m, (sets m).length ≤ max

/-- Owners and sets that register a sound registry agree with each other within the maximum. -/
theorem Registers.agree {max : ℕ} {owner : String → Option String} {sets : String → List String}
    {s : Registry.State String String} (h : Registers owner sets s)
    (hsound : Registry.Sound max s) : Agree max owner sets where
  agree r m := by rw [h.owner_eq, hsound.agree, h.mem_iff]
  once r m m' hm hm' := hsound.eq_of_mem (h.mem_iff.mp hm) (h.mem_iff.mp hm')
  nodup := h.nodup
  bounded m := by rw [h.length_eq]; exact hsound.bounded m

/-! ## The in-process store -/

/-- What a method call does to the registry. -/
def registryEvents : Call StoreCall → List (Registry.Event String String)
  | ⟨.addRecipient m r _, .ok .added⟩ => [.claim m r]
  | ⟨.removeRecipient m r, .ok .removed⟩ => [.release m r]
  | ⟨.removeIdleMediations _ _, .ok removed⟩ => removed.map .expel
  | _ => []

/-- A call that does not touch the registry does nothing to it. -/
theorem registryEvents_of_not_touches {c : Call StoreCall} (h : ¬ c.op.Touches .registry) :
    registryEvents c = [] := by
  obtain ⟨op, reply⟩ := c
  cases op with
  | addRecipient | removeRecipient | removeIdleMediations => exact absurd trivial h
  | _ => rfl

/-- A call that adds recipients adds them up to `max`. -/
def AddsUpTo (max : ℕ) : Call StoreCall → Prop
  | ⟨.addRecipient _ _ n, _⟩ => n = max
  | _ => True

variable {max : ℕ} {inner inner' : Inner} {s : Registry.State String String} {m r : String}

/-- `add_recipient` claims the DID, or changes nothing. -/
theorem Inner.addRecipient_registry (max : ℕ) (m r : String)
    (h : Registers inner.owners inner.recipients s) :
    let next := inner.addRecipient m r max
    (next.1 = .added ∧ Registry.Step max s (.claim m r) (s.claim m r) ∧
      Registers next.2.owners next.2.recipients (s.claim m r)) ∨
    (next.1 ≠ .added ∧ next.2 = inner) := by
  unfold Inner.addRecipient
  cases howner : inner.owners r with
  | some owner => by_cases hm : owner = m <;> simp [hm]
  | none =>
    by_cases hfull : max ≤ (inner.recipients m).length
    · simp [hfull]
    · have hfree : s.owner r = none := by rw [← h.owner_eq, howner]
      have hroom : (s.holdings m).card < max := by rw [← h.length_eq]; omega
      simp only [hfull, ↓reduceIte, true_and, ne_eq, not_true_eq_false, false_and, or_false]
      -- the DID is free and there is room, so the registry allows the claim
      refine ⟨.claim hfree hroom, h.claim ?_ ?_⟩
      · split
        · exact h.nodup m
        · rename_i hnot
          exact List.Perm.nodup (List.perm_orderedInsert _ _ _).symm
            (List.nodup_cons.mpr ⟨hnot, h.nodup m⟩)
      · split
        · rename_i hin
          ext r'
          simp only [List.mem_toFinset, Finset.mem_insert, iff_or_self]
          rintro rfl
          exact hin
        · ext r'
          simp [List.mem_orderedInsert]

/-- `remove_recipient` releases the DID, or changes nothing. -/
theorem Inner.removeRecipient_registry (max : ℕ) (m r : String)
    (h : Registers inner.owners inner.recipients s) :
    let next := inner.removeRecipient m r
    (next.1 = .removed ∧ Registry.Step max s (.release m r) (s.release m r) ∧
      Registers next.2.owners next.2.recipients (s.release m r)) ∨
    (next.1 ≠ .removed ∧ next.2 = inner) := by
  unfold Inner.removeRecipient
  cases howner : inner.owners r with
  | none => simp
  | some owner =>
    by_cases hm : owner = m
    · subst hm
      have hown : s.owner r = some owner := by rw [← h.owner_eq, howner]
      simpa using ⟨Registry.Step.release hown, h.release⟩
    · simp [hm]

/-- Removing mediations expels them one after the other. -/
theorem Inner.foldl_removeMediation_registry (removed : List String)
    (h : Registers inner.owners inner.recipients s) :
    ∃ s', Transition.Run (Registry.Step max) s (removed.map .expel) s' ∧
      Registers (removed.foldl Inner.removeMediation inner).owners
        (removed.foldl Inner.removeMediation inner).recipients s' := by
  induction removed generalizing inner s with
  | nil => exact ⟨s, .nil, h⟩
  | cons mediation rest ih =>
    have hnext : Registers (inner.removeMediation mediation).owners
        (inner.removeMediation mediation).recipients (s.expel mediation) := h.expel
    obtain ⟨s', hrun, hregisters⟩ := ih hnext
    exact ⟨s', .cons .expel hrun, hregisters⟩

/-- A method call on the in-process store is a run of the registry. -/
theorem MemoryStep.registry {c : Call StoreCall} (hstep : MemoryStep inner c inner')
    (hmax : AddsUpTo max c) (h : Registers inner.owners inner.recipients s) :
    ∃ s', Transition.Run (Registry.Step max) s (registryEvents c) s' ∧
      Registers inner'.owners inner'.recipients s' := by
  by_cases htouches : c.op.Touches .registry
  -- a call that does not touch the registry is no event
  swap
  · obtain ⟨howners, hlists⟩ := hstep.sameArea htouches
    refine ⟨s, ?_, by simpa only [howners, hlists] using h⟩
    rw [registryEvents_of_not_touches htouches]
    exact .nil
  obtain ⟨order, -, hstep⟩ := hstep
  obtain ⟨op, reply⟩ := c
  obtain ⟨rfl, rfl⟩ := hstep.eq
  cases op with
  | addRecipient mediation recipient n =>
    obtain rfl : n = max := hmax
    rcases Inner.addRecipient_registry n mediation recipient h with
      ⟨hadded, hclaim, hregisters⟩ | ⟨hnot, hsame⟩
    · simp only [memory, hadded, registryEvents]
      exact ⟨_, .single hclaim, hregisters⟩
    · refine ⟨s, ?_, by simpa only [memory, hsame] using h⟩
      cases hresult : (inner.addRecipient mediation recipient n).1 <;>
        simp only [memory, hresult, registryEvents] <;>
        first | exact absurd hresult hnot | exact .nil
  | removeRecipient mediation recipient =>
    rcases Inner.removeRecipient_registry max mediation recipient h with
      ⟨hremoved, hrelease, hregisters⟩ | ⟨hnot, hsame⟩
    · simp only [memory, hremoved, registryEvents]
      exact ⟨_, .single hrelease, hregisters⟩
    · refine ⟨s, ?_, by simpa only [memory, hsame] using h⟩
      cases hresult : (inner.removeRecipient mediation recipient).1 <;>
        simp only [memory, hresult, registryEvents] <;>
        first | exact absurd hresult hnot | exact .nil
  | removeIdleMediations cutoff limit =>
    exact Inner.foldl_removeMediation_registry _ h
  | _ => exact htouches.elim

/-- States reached by any calls from an empty store, when recipients are added up to `max`. -/
def MemoryReachable (max : ℕ) (inner : Inner) : Prop :=
  ∃ calls, Transition.Run MemoryStep Inner.empty calls inner ∧ ∀ c ∈ calls, AddsUpTo max c

/-- Every reachable in-process store is a sound registry. -/
theorem MemoryReachable.registry (h : MemoryReachable max inner) :
    ∃ s, Registry.Sound max s ∧ Registers inner.owners inner.recipients s := by
  obtain ⟨calls, hrun, hmax⟩ := h
  induction hrun with
  | nil => exact ⟨.empty, Registry.sound_empty, .empty⟩
  | snoc _ hstep ih =>
    obtain ⟨s, hsound, hregisters⟩ := ih fun c hc => hmax c (by simp [hc])
    obtain ⟨s', hrun, hregisters'⟩ := hstep.registry (hmax _ (by simp)) hregisters
    exact ⟨s', hsound.run hrun, hregisters'⟩

namespace Redis

open Script

/-- What a request does to the registry. -/
def registryEvents : Call ServerCall → List (Registry.Event String String)
  | ⟨.addRecipient m r _, .ok "added"⟩ => [.claim m r]
  | ⟨.removeRecipient m r, .ok "removed"⟩ => [.release m r]
  | ⟨.removeMediation m _, .ok 1⟩ => [.expel m]
  | _ => []

/-- A request that adds recipients adds them up to `max`. -/
def AddsUpTo (max : ℕ) : Request → Prop
  | .addRecipient _ _ n => n = max
  | _ => True

variable {max : ℕ} {db db' : Db} {s : Registry.State String String}

/-- `ADD_RECIPIENT` claims the DID, or changes nothing. -/
theorem addRecipient_registry (max : ℕ) (m r : String) (h : Registers db.owner db.recipients s) :
    ∃ s', Transition.Run (Registry.Step max) s
        (registryEvents ⟨.addRecipient m r max, ((addRecipient m r max).exec db).1⟩) s' ∧
      Registers ((addRecipient m r max).exec db).2.owner
        ((addRecipient m r max).exec db).2.recipients s' := by
  rw [exec_addRecipient]
  by_cases hmine : db.owner r = some m
  · rw [if_pos hmine]
    exact ⟨s, .nil, h⟩
  by_cases htaken : (db.owner r).isSome
  · rw [if_neg hmine, if_pos htaken]
    exact ⟨s, .nil, h⟩
  by_cases hfull : max ≤ (db.recipients m).length
  · rw [if_neg hmine, if_neg htaken, if_pos hfull]
    exact ⟨s, .nil, h⟩
  rw [if_neg hmine, if_neg htaken, if_neg hfull]
  -- neither refusal applied, so the registry allows the claim
  have hfree : s.owner r = none := by
    rw [← h.owner_eq]
    simpa using htaken
  have hroom : (s.holdings m).card < max := by rw [← h.length_eq]; omega
  refine ⟨_, .single (.claim hfree hroom), h.claim ?_ ?_⟩
  · split
    · exact h.nodup m
    · rename_i hnot
      exact List.nodup_append.mpr
        ⟨h.nodup m, by simp, by simpa using fun a ha => ne_of_mem_of_not_mem ha hnot⟩
  · split
    · rename_i hin
      ext r'
      simp only [List.mem_toFinset, Finset.mem_insert, iff_or_self]
      rintro rfl
      exact hin
    · ext r'
      simp

/-- `REMOVE_RECIPIENT` releases the DID, or changes nothing. -/
theorem removeRecipient_registry (max : ℕ) (m r : String)
    (h : Registers db.owner db.recipients s) :
    ∃ s', Transition.Run (Registry.Step max) s
        (registryEvents ⟨.removeRecipient m r, ((removeRecipient m r).exec db).1⟩) s' ∧
      Registers ((removeRecipient m r).exec db).2.owner
        ((removeRecipient m r).exec db).2.recipients s' := by
  rw [exec_removeRecipient]
  by_cases hnone : db.owner r = none
  · rw [if_pos hnone]
    exact ⟨s, .nil, h⟩
  by_cases hmine : db.owner r = some m
  · rw [if_neg hnone, if_neg (not_not.mpr hmine)]
    have hown : s.owner r = some m := by rw [← h.owner_eq, hmine]
    exact ⟨_, .single (.release hown), h.release⟩
  · rw [if_neg hnone, if_pos hmine]
    exact ⟨s, .nil, h⟩

/-- `REMOVE_MEDIATION` expels the mediation, or changes nothing. -/
theorem removeMediation_registry (max : ℕ) (m : String) (cutoff : ℕ) (hsound : Registry.Sound max s)
    (h : Registers db.owner db.recipients s) :
    ∃ s', Transition.Run (Registry.Step max) s
        (registryEvents ⟨.removeMediation m cutoff, ((removeMediation m cutoff).exec db).1⟩) s' ∧
      Registers ((removeMediation m cutoff).exec db).2.owner
        ((removeMediation m cutoff).exec db).2.recipients s' := by
  rcases exec_removeMediation m cutoff db with ⟨-, heq⟩ | ⟨-, body, heq⟩
  · rw [heq]
    exact ⟨s, .nil, h⟩
  · rw [heq]
    -- the script frees a DID only if it is still the mediation's, which it is
    have howner : (fun r => if r ∈ db.recipients m ∧ db.owner r = some m then none
        else db.owner r) = fun r => if r ∈ db.recipients m then none else db.owner r := by
      funext r
      by_cases hr : r ∈ db.recipients m
      · have hown : db.owner r = some m := by
          rw [h.owner_eq]
          exact (hsound.agree r m).mpr (h.mem_iff.mp hr)
        simp [hr, hown]
      · simp [hr]
    exact ⟨_, .single .expel, by simpa only [howner] using h.expel⟩

/-- What the labels of server steps do to the registry. -/
def stepEvents : Option (Call ServerCall) → List (Registry.Event String String)
  | some c => registryEvents c
  | none => []

/-- A label that adds recipients adds them up to `max`. -/
def StepAddsUpTo (max : ℕ) : Option (Call ServerCall) → Prop
  | some c => AddsUpTo max c.op
  | none => True

/-- A request to the server is a run of the registry. -/
theorem ServerStep.registry {label : Option (Call ServerCall)} (hstep : ServerStep db label db')
    (hmax : StepAddsUpTo max label) (hsound : Registry.Sound max s)
    (h : Registers db.owner db.recipients s) :
    ∃ s', Transition.Run (Registry.Step max) s (stepEvents label) s' ∧
      Registers db'.owner db'.recipients s' := by
  cases hstep with
  | time ms => exact ⟨s, .nil, h⟩
  | @request _ c handled =>
    obtain ⟨op, reply⟩ := c
    obtain ⟨rfl, rfl⟩ := Program.Handled.eq handled
    by_cases htouches : op.Touches .registry
    · cases op with
      | addRecipient m r n =>
        obtain rfl : n = max := hmax
        exact addRecipient_registry n m r h
      | removeRecipient m r => exact removeRecipient_registry max m r h
      | removeMediation m cutoff => exact removeMediation_registry max m cutoff hsound h
      | _ => exact htouches.elim
    -- a request that does not touch the registry is no event
    · obtain ⟨howner, hsets⟩ := server_sameArea htouches db
      refine ⟨s, ?_, by simpa only [howner, hsets] using h⟩
      cases op with
      | addRecipient | removeRecipient | removeMediation => exact absurd trivial htouches
      | _ => exact .nil

/-- States of the server reached by any requests from an empty one, when recipients are added up to
`max`. -/
def ServerReachable (max : ℕ) (db : Db) : Prop :=
  ∃ clock labels, Transition.Run ServerStep (Db.empty clock) labels db ∧
    ∀ label ∈ labels, StepAddsUpTo max label

/-- Every reachable database is a sound registry. -/
theorem ServerReachable.registry (h : ServerReachable max db) :
    ∃ s, Registry.Sound max s ∧ Registers db.owner db.recipients s := by
  obtain ⟨clock, labels, hrun, hmax⟩ := h
  induction hrun with
  | nil => exact ⟨.empty, Registry.sound_empty, .empty⟩
  | snoc _ hstep ih =>
    obtain ⟨s, hsound, hregisters⟩ := ih fun label h => hmax label (by simp [h])
    obtain ⟨s', hrun, hregisters'⟩ := hstep.registry (hmax _ (by simp)) hsound hregisters
    exact ⟨s', hsound.run hrun, hregisters'⟩

end Redis

/-! ## Both stores -/

namespace Redis

/-- The requests of a method add recipients up to the method's own limit. -/
theorem Sends.addsUpTo {max : ℕ} {op : Op} {request : Request} (h : Sends op request)
    (hmax : ∀ reply, Store.AddsUpTo max ⟨op, reply⟩) : AddsUpTo max request := by
  cases op with
  | addRecipient m r n =>
    obtain rfl : request = _ := h
    exact hmax (.ok .added)
  | removeIdleMediations | summary => rcases h with rfl | ⟨_, rfl⟩ <;> trivial
  | peek => rcases h with rfl | rfl | ⟨_, rfl⟩ | ⟨_, rfl⟩ <;> trivial
  | _ => obtain rfl : request = _ := h; trivial

/-- What calls on `RedisStore` reach, the server reaches. -/
theorem redis_reachable {max : ℕ} {clock : ℕ} {calls : List (Call StoreCall)} {db : Db}
    (hrun : Transition.Run (Program.Handled redis) (Db.empty clock) calls db)
    (hmax : ∀ c ∈ calls, ∀ reply, Store.AddsUpTo max ⟨c.op, reply⟩) : ServerReachable max db := by
  refine ⟨clock, ?_⟩
  induction hrun with
  | nil => exact ⟨[], .nil, by simp⟩
  | @snoc _ _ _ c _ hstep ih =>
    obtain ⟨labels, hrun, hlabels⟩ := ih fun c h => hmax c (by simp [h])
    obtain ⟨requests, hrequests, hsends⟩ := redis_requests hstep
    refine ⟨_, hrun.append hrequests, fun label hlabel => ?_⟩
    rcases List.mem_append.mp hlabel with hlabel | hlabel
    · exact hlabels label hlabel
    · obtain ⟨r, hr, rfl⟩ := List.mem_map.mp hlabel
      exact (hsends r hr).addsUpTo (hmax c (by simp))

end Redis

end Store
