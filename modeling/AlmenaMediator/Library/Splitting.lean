import Mathlib.Data.List.Basic

/-!
# Splitting a list at a separator

`splitOnce` cuts a list at the first element that is the separator and `rsplitOnce` at the last one,
as `split_once` and `rsplit_once` do to texts. Both are characterised by what they return: the two
parts around a separator that the part in front (or behind) does not have.

## Main results

* `splitOnce_eq_some`: the parts around the first separator;
* `rsplitOnce_eq_some`: the parts around the last separator.
-/

namespace Splitting

variable {α : Type} [DecidableEq α] {sep : α} {list a b : List α}

/-- The parts of a list before and after the first separator. -/
def splitOnce (sep : α) : List α → Option (List α × List α)
  | [] => none
  | c :: rest =>
    if c = sep then some ([], rest) else (splitOnce sep rest).map fun (a, b) => (c :: a, b)

/-- The parts of a list before and after the last separator. -/
def rsplitOnce (sep : α) (list : List α) : Option (List α × List α) :=
  (splitOnce sep list.reverse).map fun (b, a) => (a.reverse, b.reverse)

/-- A list splits into two parts exactly when they are what stands around a separator that the
first part does not have. -/
theorem splitOnce_eq_some : splitOnce sep list = some (a, b) ↔ list = a ++ sep :: b ∧ sep ∉ a := by
  induction list generalizing a with
  | nil => simp [splitOnce]
  | cons c rest ih =>
    by_cases hc : c = sep
    · subst hc
      rw [splitOnce, if_pos rfl]
      cases a <;> simp +contextual [eq_comm]
    · -- the first element belongs to the first part, the rest splits by induction
      rw [splitOnce, if_neg hc, Option.map_eq_some_iff]
      cases a with
      | nil => simp [hc]
      | cons e a =>
        simp only [Prod.exists, Prod.mk.injEq, List.cons.injEq, List.cons_append, List.mem_cons,
          not_or]
        constructor
        · rintro ⟨a', b', h, ⟨rfl, rfl⟩, rfl⟩
          exact ⟨⟨rfl, (ih.mp h).1⟩, Ne.symm hc, (ih.mp h).2⟩
        · rintro ⟨⟨rfl, h⟩, -, hnot⟩
          exact ⟨a, b, ih.mpr ⟨h, hnot⟩, ⟨rfl, rfl⟩, rfl⟩

/-- A list splits at its last separator exactly into what stands around one that the second part
does not have. -/
theorem rsplitOnce_eq_some :
    rsplitOnce sep list = some (a, b) ↔ list = a ++ sep :: b ∧ sep ∉ b := by
  rw [rsplitOnce, Option.map_eq_some_iff]
  constructor
  · rintro ⟨⟨b', a'⟩, h, heq⟩
    obtain ⟨rfl, rfl⟩ := Prod.mk.inj heq
    obtain ⟨hlist, hnot⟩ := splitOnce_eq_some.mp h
    refine ⟨?_, by simpa using hnot⟩
    rw [← List.reverse_inj, hlist]
    simp
  · rintro ⟨rfl, hnot⟩
    refine ⟨(b.reverse, a.reverse), splitOnce_eq_some.mpr ⟨?_, ?_⟩, ?_⟩
    · simp
    · simpa using hnot
    · simp

/-- Two parts with a separator between them come apart again, when the first part has none. -/
theorem splitOnce_append (h : sep ∉ a) : splitOnce sep (a ++ sep :: b) = some (a, b) :=
  splitOnce_eq_some.mpr ⟨rfl, h⟩

end Splitting
