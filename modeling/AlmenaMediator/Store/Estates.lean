import AlmenaMediator.Store.Footprint
import AlmenaMediator.Store.Keyed
import AlmenaMediator.Store.Queues

/-!
# What a mediation leaves behind

A mediation has recipients, a queue, devices and a push marker next to its grant, and the cleanup
removes them together. A call adds to them for the mediation it names, whether or not that one is
still granted: a handler looks the mediation up with an earlier call. Both stores are such an
`EstateStore`.
-/

namespace Store

/-- What a mediation may have besides its grant. -/
inductive Belonging
  | recipient
  | queue
  | device
  | pushMarker
  deriving DecidableEq, Repr

/-- The part of what a mediation has in which it is kept. -/
def Belonging.part : Belonging → Part
  | recipient => .recipients
  | queue => .queue
  | device => .devices
  | pushMarker => .pushMarker

/-- The method may give `m` something it does not have. -/
def Op.Adds (b : Belonging) (m : String) : Op → Prop
  | .addRecipient m' _ _ => b = .recipient ∧ m' = m
  | .enqueue m' _ _ _ _ => b = .queue ∧ m' = m
  | .setDevice m' _ (some _) => b = .device ∧ m' = m
  | .claimPush m' _ _ => b = .pushMarker ∧ m' = m
  | _ => False

/-- The method may only take from what `m` has of the kind. -/
def Op.Takes (b : Belonging) (m : String) : Op → Prop
  | .removeIdleMediations _ _ => True
  | .removeRecipient m' _ => b = .recipient ∧ m' = m
  | .summary m' _ _ _ | .peek m' _ _ _ _ | .remove m' _ => b = .queue ∧ m' = m
  | .setDevice m' _ none | .removeDevice m' _ _ => b = .device ∧ m' = m
  | .releasePush m' _ _ => b = .pushMarker ∧ m' = m
  | _ => False

@[simp] theorem Belonging.part_eq_recipients {b : Belonging} :
    b.part = .recipients ↔ b = .recipient := by
  cases b <;> simp [part]

@[simp] theorem Belonging.part_eq_queue {b : Belonging} : b.part = .queue ↔ b = .queue := by
  cases b <;> simp [part]

@[simp] theorem Belonging.part_eq_devices {b : Belonging} : b.part = .devices ↔ b = .device := by
  cases b <;> simp [part]

@[simp] theorem Belonging.part_eq_pushMarker {b : Belonging} :
    b.part = .pushMarker ↔ b = .pushMarker := by
  cases b <;> simp [part]

/-- A method that writes where something is kept either may add to it or only takes from it. -/
theorem Op.adds_or_takes {op : Op} {b : Belonging} {m : String} (h : op.Writes b.part m) :
    op.Adds b m ∨ op.Takes b m := by
  cases op with
  | grantMediation | touchMediation => cases b <;> simp [Writes, Belonging.part] at h
  | setDevice m' service device => cases device <;> simp_all [Writes, Adds, Takes]
  | _ => simp_all [Writes, Adds, Takes]

/-- The answer says that `m` is granted, or that it has something. -/
def Finds (m : String) : Call StoreCall → Prop
  | ⟨.hasMediation m', .ok found⟩ => m' = m ∧ found = true
  | ⟨.mediationOf _, .ok found⟩ => found = some m
  | ⟨.devices m', .ok found⟩ => m' = m ∧ found ≠ []
  | _ => False

/-- The call removes `m` as idle. -/
def Removes (m : String) : Call StoreCall → Prop
  | ⟨.removeIdleMediations _ _, .ok removed⟩ => m ∈ removed
  | _ => False

/-- A store in which mediations and what they have come and go. -/
structure EstateStore (σ : Type) extends QueueStore σ where
  /-- The mediation is granted. -/
  Granted : String → σ → Prop
  /-- The mediation has something of the kind. -/
  Has : Belonging → String → σ → Prop
  /-- The records of a state agree. -/
  Sound : σ → Prop
  sound : ∀ {s t c}, Sound s → env s c t → Sound t
  queued : ∀ {s m id}, id ∈ queue s m → Has .queue m s
  granted : ∀ {s t m now}, env s ⟨.grantMediation m now, .ok ()⟩ t → Granted m t
  kept : ∀ {s t c m}, env s c t → Granted m s → Granted m t ∨ Removes m c
  cleared : ∀ {s t c m b}, env s c t → Removes m c → ¬ Has b m t
  gained : ∀ {s t c m b}, env s c t → Has b m t → Has b m s ∨ c.op.Adds b m
  found : ∀ {s t c m}, Sound s → env s c t → Finds m c → Granted m s ∨ ∃ b, Has b m s

/-! ## The in-process store -/

namespace Inner

/-- The mediation has something of the kind. -/
def Has (b : Belonging) (m : String) (inner : Inner) : Prop :=
  match b with
  | .recipient => inner.recipients m ≠ []
  | .queue => inner.queues m ≠ []
  | .device => ∃ service, inner.devices m service ≠ none
  | .pushMarker => inner.pushSent m ≠ none

/-- An owner has the DID among its recipients. -/
def OwnersListed (inner : Inner) : Prop := ∀ r m, inner.owners r = some m → r ∈ inner.recipients m

variable {inner inner' : Inner} {m : String} {b : Belonging} {c : Call StoreCall}

/-- Who has what is read off the part it is kept in. -/
theorem Has.of_same (hsame : Same b.part m inner inner') (h : inner'.Has b m) : inner.Has b m := by
  cases b with
  | recipient =>
    have hrecipients : inner'.recipients m = inner.recipients m := hsame.1
    simpa only [Has, hrecipients] using h
  | queue =>
    have hqueue : inner'.queues m = inner.queues m := hsame
    simpa only [Has, hqueue] using h
  | device =>
    have hdevices : inner'.devices m = inner.devices m := hsame
    simpa only [Has, hdevices] using h
  | pushMarker =>
    have hmarker : inner'.pushSent m = inner.pushSent m := hsame
    simpa only [Has, hmarker] using h

/-- After a list of mediations is removed none of them has any belonging left, and no other
mediation gained one. -/
theorem foldl_removeMediation_lacks (removed : List String) (inner : Inner)
    (h : m ∈ removed ∨ ¬ inner.Has b m) : ¬ (removed.foldl removeMediation inner).Has b m := by
  induction removed generalizing inner with
  | nil => simpa using h
  | cons first rest ih =>
    rw [List.foldl_cons]
    refine ih _ ?_
    by_cases hfirst : m = first
    · subst hfirst
      right
      cases b <;> simp [Has, removeMediation]
    · rcases h with hm | hlacks
      · exact .inl ((List.mem_cons.mp hm).resolve_left hfirst)
      · right
        cases b <;> simpa [Has, removeMediation, hfirst] using hlacks

/-- Removing a list of mediations leaves the mediations outside the list as they were. -/
theorem foldl_removeMediation_mediations (removed : List String) (inner : Inner)
    (hm : m ∉ removed) :
    (removed.foldl removeMediation inner).mediations m = inner.mediations m := by
  induction removed generalizing inner with
  | nil => rfl
  | cons first rest ih =>
    rw [List.mem_cons, not_or] at hm
    rw [List.foldl_cons, ih _ hm.2]
    exact Function.update_of_ne hm.1 _ _

/-- Removing a list of mediations keeps every owned DID in the list of its owner. -/
theorem foldl_removeMediation_ownersListed (removed : List String) (inner : Inner)
    (h : inner.OwnersListed) : (removed.foldl removeMediation inner).OwnersListed := by
  induction removed generalizing inner with
  | nil => exact h
  | cons first rest ih =>
    refine ih _ fun r m' howner => ?_
    simp only [removeMediation, Option.ite_none_left_eq_some] at howner ⊢
    by_cases hm : m' = first
    · subst hm
      exact absurd (h r m' howner.2) howner.1
    · rw [Function.update_of_ne hm]
      exact h r m' howner.2

/-- What a mediation has after a call that only takes, it had before. -/
theorem has_of_takes {order : List (String × ℕ)} {op : Op} (htakes : op.Takes b m)
    (h : Has b m (memory order op inner).2) : Has b m inner := by
  cases op with
  -- what the methods drop, the state before them had; each case reads off the field it filters
  | removeIdleMediations cutoff limit =>
    by_contra hlacks
    exact foldl_removeMediation_lacks _ inner (.inr hlacks) h
  | removeRecipient m' recipient =>
    obtain ⟨rfl, rfl⟩ := htakes
    intro hnone
    refine h ?_
    simp only [memory, Inner.removeRecipient]
    split
    · exact hnone
    · split
      · exact hnone
      · simp [hnone]
  | summary m' recipient now ttlSecs =>
    obtain ⟨rfl, rfl⟩ := htakes
    intro hnone
    apply h
    simp [memory, Inner.summary, Inner.expire, unexpired, hnone]
  | peek m' recipient limit now ttlSecs =>
    obtain ⟨rfl, rfl⟩ := htakes
    intro hnone
    apply h
    simp [memory, Inner.peek, Inner.expire, unexpired, hnone]
  | remove m' ids =>
    obtain ⟨rfl, rfl⟩ := htakes
    intro hnone
    apply h
    simp [memory, Inner.remove, hnone]
  | setDevice m' service device =>
    cases device with
    | some device => exact htakes.elim
    | none =>
      obtain ⟨rfl, rfl⟩ := htakes
      obtain ⟨service', hdevice⟩ := h
      refine ⟨service', fun hnone => hdevice ?_⟩
      by_cases hservice : service' = service <;> simp [memory, Inner.setDevice, hservice, hnone]
  | removeDevice m' service token =>
    obtain ⟨rfl, rfl⟩ := htakes
    obtain ⟨service', hdevice⟩ := h
    refine ⟨service', fun hnone => hdevice ?_⟩
    simp only [memory, Inner.removeDevice]
    split
    · by_cases hservice : service' = service <;> simp [Inner.setDevice, hservice, hnone]
    · exact hnone
  | releasePush m' now minIntervalSecs =>
    obtain ⟨rfl, rfl⟩ := htakes
    intro hnone
    apply h
    simp [memory, Inner.releasePush, hnone]
  | _ => exact htakes.elim

/-- A call gives a mediation something only if it may. -/
theorem gained (hstep : MemoryStep inner c inner') (h : inner'.Has b m) :
    inner.Has b m ∨ c.op.Adds b m := by
  by_cases hwrites : c.op.Writes b.part m
  · rcases Op.adds_or_takes hwrites with hadds | htakes
    · exact .inr hadds
    · obtain ⟨order, -, hstep⟩ := hstep
      obtain ⟨-, rfl⟩ := hstep.eq
      exact .inl (has_of_takes htakes h)
  · exact .inl (Has.of_same (hstep.same hwrites) h)

/-- A recipient that is added is listed, and the others stay so. -/
theorem OwnersListed.addRecipient (h : inner.OwnersListed) (m' recipient : String) (max : ℕ) :
    (inner.addRecipient m' recipient max).2.OwnersListed := by
  simp only [Inner.addRecipient]
  split
  · exact h
  split
  · exact h
  intro r m howner
  -- the new recipient goes into the list of its mediation; the others are where they were
  by_cases hr : r = recipient
  · subst hr
    obtain rfl : m' = m := by simpa using howner
    simp only [Function.update_self]
    split
    · assumption
    · exact (List.mem_orderedInsert _).mpr (.inl rfl)
  · have hlisted := h r m (by simpa [hr] using howner)
    by_cases hm : m = m'
    · subst hm
      simp only [Function.update_self]
      split
      · exact hlisted
      · exact (List.mem_orderedInsert _).mpr (.inr hlisted)
    · simpa [hm] using hlisted

/-- A recipient that is removed has no owner, and the others stay listed. -/
theorem OwnersListed.removeRecipient (h : inner.OwnersListed) (m' recipient : String) :
    (inner.removeRecipient m' recipient).2.OwnersListed := by
  simp only [Inner.removeRecipient]
  split
  · exact h
  split
  · exact h
  intro r m howner
  by_cases hr : r = recipient
  · subst hr
    simp at howner
  · have hlisted := h r m (by simpa [hr] using howner)
    by_cases hm : m = m'
    · subst hm
      simpa using (List.mem_erase_of_ne hr).mpr hlisted
    · simpa [hm] using hlisted

/-- Owners stay listed. -/
theorem OwnersListed.step (hstep : MemoryStep inner c inner') (h : inner.OwnersListed) :
    inner'.OwnersListed := by
  by_cases htouches : c.op.Touches .registry
  swap
  · obtain ⟨howners, hlists⟩ := hstep.sameArea htouches
    simpa only [OwnersListed, howners, hlists] using h
  obtain ⟨order, -, hstep⟩ := hstep
  obtain ⟨op, reply⟩ := c
  obtain ⟨rfl, rfl⟩ := hstep.eq
  cases op with
  | removeIdleMediations cutoff limit => exact foldl_removeMediation_ownersListed _ inner h
  | addRecipient m' recipient max => exact h.addRecipient m' recipient max
  | removeRecipient m' recipient => exact h.removeRecipient m' recipient
  | _ => exact htouches.elim

/-- A mediation stays granted until it is removed. -/
theorem kept (hstep : MemoryStep inner c inner') (h : inner.mediations m) :
    inner'.mediations m ∨ Removes m c := by
  -- only granting and removing write the grant, and granting `m` again keeps it
  by_cases hwrites : c.op.Writes .grant m
  swap
  · have hsame : inner'.mediations m = inner.mediations m := hstep.same hwrites
    exact .inl (hsame ▸ h)
  obtain ⟨order, -, hstep⟩ := hstep
  obtain ⟨op, reply⟩ := c
  obtain ⟨rfl, rfl⟩ := hstep.eq
  cases op with
  | grantMediation m' now =>
    obtain ⟨rfl, -⟩ := hwrites
    exact .inl (by simp [memory, Inner.grantMediation, see])
  | removeIdleMediations cutoff limit =>
    by_cases hm : m ∈ (inner.removeIdleMediations order cutoff limit).1
    · exact .inr hm
    · left
      have hsame := foldl_removeMediation_mediations _ inner hm
      exact hsame.trans h
  | touchMediation | addRecipient | removeRecipient | enqueue | summary | peek | remove | setDevice
  | removeDevice | claimPush | releasePush =>
    obtain ⟨-, hpart⟩ := hwrites
    cases hpart
  | _ => exact hwrites.elim

/-- `MemoryStore`. -/
def estateStore : EstateStore Inner where
  toQueueStore := queueStore
  Granted m inner := inner.mediations m
  Has := Has
  Sound := OwnersListed
  sound h hstep := h.step hstep
  queued hid hnone := by simp [queueStore, queuedIn, hnone] at hid
  granted := by
    rintro inner inner' m now ⟨order, -, hstep⟩
    obtain ⟨-, rfl⟩ := hstep.eq
    simp [memory, Inner.grantMediation, see]
  kept := kept
  cleared := by
    rintro inner inner' ⟨op, reply⟩ m b ⟨order, -, hstep⟩ hremoves
    cases op with
    | removeIdleMediations cutoff limit =>
      obtain ⟨rfl, rfl⟩ := hstep.eq
      exact foldl_removeMediation_lacks _ inner (.inl hremoves)
    | _ => exact hremoves.elim
  gained := gained
  found := by
    rintro inner inner' ⟨op, reply⟩ m hsound ⟨order, -, hstep⟩ hfinds
    obtain ⟨rfl, -⟩ := hstep.eq
    cases op with
    | hasMediation m' =>
      obtain ⟨rfl, hfound⟩ := hfinds
      exact .inl hfound
    | mediationOf r =>
      exact .inr ⟨.recipient, List.ne_nil_of_mem (hsound r m hfinds)⟩
    | devices m' =>
      obtain ⟨rfl, hfound⟩ := hfinds
      refine .inr ⟨.device, ?_⟩
      by_contra hnone
      refine hfound ?_
      simp only [Has, not_exists, not_not] at hnone
      simp [Inner.devicesOf, hnone]
    | _ => exact hfinds.elim

end Inner

end Store
