import Mathlib.Data.List.Basic

/-!
# Patterns with wildcards

What a pattern means in which one symbol, the star, stands for any list: `Matches` says that a value
is the pattern with every star replaced. The rules take a pattern apart at its first star.
-/

namespace Glob

variable {α : Type} [DecidableEq α] (star : α)

/-- A pattern with its stars replaced, the first one by the first filling. -/
def fill : List α → List (List α) → List α
  | [], _ => []
  | a :: pattern, fillings =>
    if a = star then fillings.headD [] ++ fill pattern fillings.tail else a :: fill pattern fillings

/-- The value is the pattern with each star replaced by some list. -/
def Matches (pattern value : List α) : Prop :=
  ∃ fillings : List (List α), fillings.length = pattern.count star ∧
    fill star pattern fillings = value

variable {star}

/-- Filling a pattern whose beginning has no star leaves the beginning as it is. -/
theorem fill_append {start rest : List α} (hstart : star ∉ start) (fillings : List (List α)) :
    fill star (start ++ rest) fillings = start ++ fill star rest fillings := by
  induction start with
  | nil => rfl
  | cons a start ih =>
    obtain ⟨hne, hrest⟩ := not_or.mp (mt List.mem_cons.mpr hstart)
    rw [List.cons_append, fill, if_neg (Ne.symm hne), ih hrest, List.cons_append]

/-- A pattern without stars matches itself. -/
theorem matches_iff_eq {pattern value : List α} (hpattern : star ∉ pattern) :
    Matches star pattern value ↔ value = pattern := by
  have hcount : pattern.count star = 0 := List.count_eq_zero.mpr hpattern
  have hfill : fill star pattern [] = pattern := by
    simpa [fill] using @fill_append _ _ star pattern [] hpattern []
  constructor
  · rintro ⟨fillings, hlength, rfl⟩
    rw [hcount, List.length_eq_zero_iff] at hlength
    rw [hlength, hfill]
  · rintro rfl
    exact ⟨[], hcount.symm, hfill⟩

/-- What matches a pattern up to its first star and behind it. -/
theorem matches_append_star {start rest value : List α} (hstart : star ∉ start) :
    Matches star (start ++ star :: rest) value ↔
      ∃ filling tail, value = start ++ (filling ++ tail) ∧ Matches star rest tail := by
  have hcount : (start ++ star :: rest).count star = rest.count star + 1 := by
    rw [List.count_append, List.count_eq_zero.mpr hstart, List.count_cons_self, Nat.zero_add]
  constructor
  · rintro ⟨fillings, hlength, rfl⟩
    rw [hcount] at hlength
    obtain ⟨filling, fillings, rfl⟩ := List.exists_of_length_succ fillings hlength
    refine ⟨filling, fill star rest fillings, ?_, fillings, Nat.succ.inj hlength, rfl⟩
    rw [fill_append hstart, fill, if_pos rfl]
    rfl
  · rintro ⟨filling, tail, rfl, fillings, hlength, rfl⟩
    refine ⟨filling :: fillings, by rw [hcount, List.length_cons, hlength], ?_⟩
    rw [fill_append hstart, fill, if_pos rfl]
    rfl

end Glob
