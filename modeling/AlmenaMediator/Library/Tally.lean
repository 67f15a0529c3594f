import AlmenaMediator.Library.Transition

/-!
# Counters that are set back

A counter over a history of events: some events count, and some set it back to zero.
`Tally.eq_countP_iff` says when it holds how many events counted, `countP_le_of_running` what a
limit on a running count limits.
-/

variable {ε : Type*}

/-- What a counter holds after each history. -/
structure Tally (counts : ε → Bool) (resets : List ε → ε → Bool) (value : List ε → ℕ) : Prop where
  start : value [] = 0
  next : ∀ past e, value (past ++ [e]) =
    if resets past e then 0 else value past + if counts e then 1 else 0

namespace Tally

variable {counts : ε → Bool} {resets : List ε → ε → Bool} {value : List ε → ℕ}

/-- A counter holds how many events counted if and only if each event that set it back came before
all that counted. -/
theorem eq_countP_iff (h : Tally counts resets value)
    (hnot : ∀ past e, resets past e → counts e = false)
    (evs : List ε) : value evs = evs.countP counts ↔ ∀ past e rest, evs = past ++ e :: rest →
      resets past e → past.countP counts = 0 := by
  induction evs using List.reverseRecOn with
  | nil =>
    refine ⟨fun _ past e rest hcut => ?_, fun _ => h.start⟩
    simp at hcut
  | append_singleton evs e ih =>
    rw [h.next, List.countP_append, List.countP_singleton]
    by_cases hresets : resets evs e
    · rw [if_pos hresets, hnot _ _ hresets, if_neg Bool.false_ne_true, Nat.add_zero]
      constructor
      · intro hzero past e' rest hcut _
        -- Every cut is at the event that set the counter back, or before it.
        have hpre : past <+: evs := by
          rcases Transition.cut_snoc hcut with ⟨rfl, -, -⟩ | ⟨rest', -, rfl⟩
          · exact List.prefix_rfl
          · exact List.prefix_append _ _
        exact Nat.le_zero.mp (hzero ▸ hpre.sublist.countP_le)
      · intro hcuts
        exact (hcuts evs e [] rfl hresets).symm
    · rw [if_neg hresets, Nat.add_right_cancel_iff, ih]
      constructor
      · intro hcuts past e' rest hcut hresets'
        rcases Transition.cut_snoc hcut with ⟨hpast, -, he⟩ | ⟨rest', -, hcut'⟩
        · rw [hpast, he] at hresets'
          exact absurd hresets' hresets
        · exact hcuts past e' rest' hcut' hresets'
      · intro hcuts past e' rest hcut hresets'
        apply hcuts past e' (rest ++ [e]) _ hresets'
        rw [hcut, List.append_assoc, List.cons_append]

end Tally

/-- Of the events that count, at most `limit` come while fewer than `limit` have counted. -/
theorem countP_le_of_running {counts passes : ε → Bool} {limit : ℕ} {evs : List ε}
    (h : ∀ past e rest, evs = past ++ e :: rest → passes e → counts e ∧
      past.countP counts < limit) : evs.countP passes ≤ limit := by
  have hboth : evs.countP passes ≤ evs.countP counts ∧ evs.countP passes ≤ limit := by
    induction evs using List.reverseRecOn with
    | nil => exact ⟨Nat.le_refl 0, Nat.zero_le limit⟩
    | append_singleton evs e ih =>
      have hearlier := ih fun past e' rest hcut => h past e' (rest ++ [e]) (by simp [hcut])
      rw [List.countP_append, List.countP_append, List.countP_singleton, List.countP_singleton]
      by_cases hpasses : passes e
      · obtain ⟨hcounts, hlimit⟩ := h evs e [] rfl hpasses
        rw [if_pos hpasses, if_pos hcounts]
        omega
      · rw [if_neg hpasses]
        omega
  exact hboth.2
