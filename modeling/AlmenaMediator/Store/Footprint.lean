import AlmenaMediator.Store.Memory

/-!
# What a method of the in-process store can change

The fields of the store fall into areas that its methods write together. A method writes a few
areas, and the others stay as they are.

## Main results

* `memory_sameArea`: a method leaves the areas it does not touch as they are;
* `MemoryStep.sameArea`: so does a step of the store.
-/

namespace Store

/-- What the in-process store holds, by what its methods write together. -/
inductive Inner.Area
  | mediations
  | seen
  /-- The owners of recipient DIDs and the recipients of mediations. -/
  | registry
  /-- The queues and the counter their ids are made with. -/
  | queues
  | hits
  | devices
  | pushSent
  | relays
  deriving DecidableEq, Repr

/-- Whether a method may write an area. -/
def Op.Touches : Op → Inner.Area → Prop
  | .grantMediation .., .mediations | .grantMediation .., .seen | .touchMediation .., .seen => True
  | .removeIdleMediations .., .hits | .removeIdleMediations .., .relays => False
  | .removeIdleMediations .., _ => True
  | .addRecipient .., .registry | .removeRecipient .., .registry => True
  | .enqueue .., .queues | .summary .., .queues | .peek .., .queues | .remove .., .queues => True
  | .hit .., .hits => True
  | .scheduleRelay .., .relays | .dueRelays .., .relays | .finishRelay .., .relays => True
  | .setDevice .., .devices | .removeDevice .., .devices => True
  | .claimPush .., .pushSent | .releasePush .., .pushSent => True
  | _, _ => False

namespace Inner

/-- An area is the same in two states of the store. -/
def SameArea (area : Area) (inner inner' : Inner) : Prop :=
  match area with
  | .mediations => inner'.mediations = inner.mediations
  | .seen => inner'.seen = inner.seen
  | .registry => inner'.owners = inner.owners ∧ inner'.recipients = inner.recipients
  | .queues => inner'.queues = inner.queues ∧ inner'.seq = inner.seq
  | .hits => inner'.hits = inner.hits
  | .devices => inner'.devices = inner.devices
  | .pushSent => inner'.pushSent = inner.pushSent
  | .relays => inner'.relays = inner.relays

variable {area : Area}

/-- Every area is the same as itself. -/
theorem SameArea.refl (area : Area) (inner : Inner) : SameArea area inner inner := by
  cases area <;> simp [SameArea]

/-- Removing mediations leaves the rate limits and the relays alone. -/
theorem sameArea_foldl_removeMediation (harea : area = .hits ∨ area = .relays)
    (removed : List String) (inner : Inner) :
    SameArea area inner (removed.foldl removeMediation inner) := by
  induction removed generalizing inner with
  | nil => exact SameArea.refl area inner
  | cons first rest ih =>
    have hrest := ih (inner.removeMediation first)
    rcases harea with rfl | rfl <;> exact hrest

end Inner

variable {area : Inner.Area} {op : Op}

/-- A method leaves the areas it does not touch as they are. -/
theorem memory_sameArea (h : ¬ op.Touches area) (order : List (String × ℕ)) (inner : Inner) :
    inner.SameArea area (memory order op inner).2 := by
  -- In every case the area is one the method does not write, or `h` rules it out.
  cases op with
  | removeIdleMediations cutoff limit =>
    cases area with
    | hits => exact Inner.sameArea_foldl_removeMediation (.inl rfl) _ inner
    | relays => exact Inner.sameArea_foldl_removeMediation (.inr rfl) _ inner
    | _ => exact absurd trivial h
  | touchMediation mediation now =>
    obtain ⟨seen, heq⟩ := inner.touchMediation_effect mediation now
    rw [memory, heq]
    cases area <;> first | exact absurd trivial h | simp [Inner.SameArea]
  | addRecipient mediation recipient max =>
    obtain ⟨owners, recipients, heq⟩ := inner.addRecipient_effect mediation recipient max
    simp only [memory, heq]
    cases area <;> first | exact absurd trivial h | simp [Inner.SameArea]
  | removeRecipient mediation recipient =>
    obtain ⟨owners, recipients, heq⟩ := inner.removeRecipient_effect mediation recipient
    simp only [memory, heq]
    cases area <;> first | exact absurd trivial h | simp [Inner.SameArea]
  | enqueue mediation recipient message now limits =>
    obtain ⟨queue, heq⟩ := inner.enqueue_effect mediation recipient message now limits
    simp only [memory, heq]
    cases area <;> first | exact absurd trivial h | simp [Inner.SameArea]
  | scheduleRelay relay due maxPending =>
    obtain ⟨relays, heq⟩ := inner.scheduleRelay_effect relay due maxPending
    simp only [memory, heq]
    cases area <;> first | exact absurd trivial h | simp [Inner.SameArea]
  | removeDevice mediation service token =>
    obtain ⟨devices, heq⟩ := inner.removeDevice_effect mediation service token
    simp only [memory, heq]
    cases area <;> first | exact absurd trivial h | simp [Inner.SameArea]
  | claimPush mediation now holdSecs =>
    obtain ⟨marker, heq⟩ := inner.claimPush_effect mediation now holdSecs
    simp only [memory, heq]
    cases area <;> first | exact absurd trivial h | simp [Inner.SameArea]
  | releasePush mediation now minIntervalSecs =>
    obtain ⟨marker, heq⟩ := inner.releasePush_effect mediation now minIntervalSecs
    simp only [memory, heq]
    cases area <;> first | exact absurd trivial h | simp [Inner.SameArea]
  | _ =>
    cases area <;> first
      | exact absurd trivial h
      | exact rfl
      | exact ⟨rfl, rfl⟩

/-- A step of the store leaves the areas it does not touch as they are. -/
theorem MemoryStep.sameArea {inner inner' : Inner} {c : Call StoreCall}
    (hstep : MemoryStep inner c inner') (h : ¬ c.op.Touches area) : inner.SameArea area inner' := by
  obtain ⟨order, -, hhandled⟩ := hstep
  obtain ⟨op, reply⟩ := c
  obtain ⟨-, rfl⟩ := hhandled.eq
  exact memory_sameArea h order inner

end Store
