import Mathlib.Data.Finset.Card
import Mathlib.Data.Finset.Dedup
import Mathlib.Tactic.Linarith

/-!
# Sweeps

A sweep takes what is due away, in batches. A batch takes items that were due, each once, and none
of them is due after it; meanwhile other items may stop being due, and none becomes due. `Batch`
composes (`Batch.append`) and bounds how many a sweep can take (`Batch.card_add_le`).
-/

namespace Sweep

variable {α : Type*} [DecidableEq α]

/-- Between these two sets of due items, these were taken. -/
structure Batch (due : Finset α) (taken : List α) (due' : Finset α) : Prop where
  nodup : taken.Nodup
  was : ∀ a ∈ taken, a ∈ due
  left : due' ⊆ due \ taken.toFinset

namespace Batch

variable {due due' due'' : Finset α} {taken : List α} {a : α}

/-- A batch leaves no more due than there was. -/
theorem subset (h : Batch due taken due') : due' ⊆ due := h.left.trans Finset.sdiff_subset

/-- What was taken is not due any more. -/
theorem notMem (h : Batch due taken due') (ha : a ∈ taken) : a ∉ due' := fun hdue =>
  (Finset.mem_sdiff.mp (h.left hdue)).2 (List.mem_toFinset.mpr ha)

/-- Less was due before it. -/
theorem mono (h : Batch due' taken due'') (hsub : due' ⊆ due) : Batch due taken due'' where
  nodup := h.nodup
  was a ha := hsub (h.was a ha)
  left _ hb := Finset.mem_sdiff.mpr ⟨hsub (h.subset hb), fun ht =>
    h.notMem (List.mem_toFinset.mp ht) hb⟩

/-- Batches compose. -/
theorem append {taken' : List α} (h : Batch due taken due') (h' : Batch due' taken' due'') :
    Batch due (taken ++ taken') due'' where
  nodup := List.nodup_append'.mpr ⟨h.nodup, h'.nodup, fun a ha ha' => h.notMem ha (h'.was a ha')⟩
  was a ha := by
    rcases List.mem_append.mp ha with ha | ha
    · exact h.was a ha
    · exact h.subset (h'.was a ha)
  left a ha := by
    rw [Finset.mem_sdiff, List.toFinset_append, Finset.mem_union, not_or,
      List.mem_toFinset, List.mem_toFinset]
    exact ⟨h.subset (h'.subset ha), fun ht => h.notMem ht (h'.subset ha), fun ht => h'.notMem ht ha⟩

/-- What was taken and what is left was due. -/
theorem card_add_le (h : Batch due taken due') : taken.length + due'.card ≤ due.card := by
  have htaken : taken.toFinset ⊆ due := fun a ha => h.was a (List.mem_toFinset.mp ha)
  calc taken.length + due'.card
      = taken.toFinset.card + due'.card := by rw [List.toFinset_card_of_nodup h.nodup]
    _ ≤ taken.toFinset.card + (due \ taken.toFinset).card := by
        gcongr
        exact h.left
    _ = due.card := by rw [add_comm, Finset.card_sdiff_add_card_eq_card htaken]

end Batch

end Sweep
