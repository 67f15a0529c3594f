import Mathlib.Data.List.Induction

/-!
# Labelled runs

Runs of a labelled transition relation `step : σ → ε → σ → Prop`, kept with the list of labels
they took, so that a statement can speak about the history as well as about the state reached.
`Run.induction` is the invariant rule: a property of history and state that holds at the start
and is preserved by one more step holds at the end of every run.
-/

namespace Transition

variable {σ ε : Type*} {step : σ → ε → σ → Prop}

/-- `Run step s evs s'`: from `s` the labels `evs`, oldest first, lead to `s'`. -/
inductive Run (step : σ → ε → σ → Prop) (s : σ) : List ε → σ → Prop
  | nil : Run step s [] s
  | snoc {evs : List ε} {t t' : σ} {e : ε} :
      Run step s evs t → step t e t' → Run step s (evs ++ [e]) t'

namespace Run

/-- One step is a run. -/
theorem single {s t : σ} {e : ε} (h : step s e t) : Run step s [e] t := by
  simpa using Run.snoc Run.nil h

/-- Runs compose, and so do their histories. -/
theorem append {s t u : σ} {evs evs' : List ε} (h : Run step s evs t) (h' : Run step t evs' u) :
    Run step s (evs ++ evs') u := by
  induction h' with
  | nil => simpa using h
  | snoc _ hstep ih => simpa [List.append_assoc] using Run.snoc ih hstep

/-- A step followed by a run is a run. -/
theorem cons {s t u : σ} {e : ε} {evs : List ε} (h : step s e t) (h' : Run step t evs u) :
    Run step s (e :: evs) u := by
  simpa using append (single h) h'

/-- A run ends with its last step, or takes none. -/
theorem snoc_inv {s u : σ} {evs : List ε} {e : ε} (h : Run step s (evs ++ [e]) u) :
    ∃ t, Run step s evs t ∧ step t e u := by
  generalize hl : evs ++ [e] = l at h
  cases h with
  | nil => simp at hl
  | snoc hrun hstep =>
    obtain ⟨rfl, he⟩ := List.append_inj' hl rfl
    obtain rfl : e = _ := by simpa using he
    exact ⟨_, hrun, hstep⟩

/-- A run over the empty history goes nowhere. -/
theorem nil_inv {s u : σ} (h : Run step s [] u) : u = s := by
  generalize hl : ([] : List ε) = l at h
  cases h with
  | nil => rfl
  | snoc => simp at hl

/-- A run can be cut at any point of its history. -/
theorem append_inv {s u : σ} {evs evs' : List ε} (h : Run step s (evs ++ evs') u) :
    ∃ t, Run step s evs t ∧ Run step t evs' u := by
  induction evs' using List.reverseRecOn generalizing u with
  | nil => exact ⟨u, by simpa using h, Run.nil⟩
  | append_singleton evs' e ih =>
    rw [← List.append_assoc] at h
    obtain ⟨t, hrun, hstep⟩ := snoc_inv h
    obtain ⟨t', hpre, hpost⟩ := ih hrun
    exact ⟨t', hpre, hpost.snoc hstep⟩

/-- A run can be cut around any of its steps. -/
theorem middle_inv {s u : σ} {evs evs' : List ε} {e : ε} (h : Run step s (evs ++ e :: evs') u) :
    ∃ t t', Run step s evs t ∧ step t e t' ∧ Run step t' evs' u := by
  have hcut : Run step s ((evs ++ [e]) ++ evs') u := by simpa using h
  obtain ⟨t', hpre, hpost⟩ := append_inv hcut
  obtain ⟨t, hrun, hstep⟩ := snoc_inv hpre
  exact ⟨t, t', hrun, hstep, hpost⟩

/-- Every label of a run was taken by one of its steps. -/
theorem exists_step {s u : σ} {evs : List ε} (h : Run step s evs u) {e : ε} (he : e ∈ evs) :
    ∃ t t', step t e t' := by
  induction h with
  | nil => simp at he
  | snoc _ hstep ih =>
    rcases List.mem_append.mp he with he | he
    · exact ih he
    · obtain rfl : e = _ := by simpa using he
      exact ⟨_, _, hstep⟩

/-- A run of a relation is one of any relation that takes its steps, under other labels. -/
theorem map {ε' : Type*} {step' : σ → ε' → σ → Prop} {s u : σ} {evs : List ε}
    (h : Run step s evs u) (f : ε → ε') (hstep : ∀ t e t', step t e t' → step' t (f e) t') :
    Run step' s (evs.map f) u := by
  induction h with
  | nil => exact .nil
  | snoc _ hlast ih => simpa using ih.snoc (hstep _ _ _ hlast)

/-- A run of a relation is one of any relation that takes its steps. -/
theorem mono {step' : σ → ε → σ → Prop} {s u : σ} {evs : List ε} (h : Run step s evs u)
    (hstep : ∀ t e t', step t e t' → step' t e t') : Run step' s evs u := by
  simpa using h.map id hstep

/-- A run whose labels have a property in every state. -/
theorem and_labels {P : σ → ε → Prop} {s u : σ} {evs : List ε} (h : Run step s evs u)
    (hlabels : ∀ e ∈ evs, ∀ t, P t e) : Run (fun t e t' => step t e t' ∧ P t e) s evs u := by
  induction h with
  | nil => exact .nil
  | snoc _ hlast ih =>
    rw [List.forall_mem_append] at hlabels
    exact (ih hlabels.1).snoc ⟨hlast, hlabels.2 _ (List.mem_singleton_self _) _⟩

/-- The invariant rule for a property of the state alone. -/
theorem invariant {s : σ} {inv : σ → Prop} (start : inv s)
    (preserved : ∀ t e t', inv t → step t e t' → inv t')
    {evs : List ε} {t : σ} (h : Run step s evs t) : inv t := by
  induction h with
  | nil => exact start
  | snoc _ hstep ih => exact preserved _ _ _ ih hstep

end Run

/-! ## Histories with states -/

/-- A step that was taken. -/
structure Event (σ ε : Type*) where
  before : σ
  label : ε
  after : σ

/-- The steps of a relation, labelled with all there is to know about them. -/
def Observed (step : σ → ε → σ → Prop) : σ → Event σ ε → σ → Prop := fun s e t =>
  e.before = s ∧ e.after = t ∧ step s e.label t

/-- The labels of a history are those of a run. -/
theorem Run.labels {s t : σ} {evs : List (Event σ ε)} (h : Run (Observed step) s evs t) :
    Run step s (evs.map Event.label) t :=
  h.map Event.label fun _ _ _ hstep => by
    obtain ⟨rfl, rfl, hstep⟩ := hstep
    exact hstep

/-- Every run has a history. -/
theorem Run.observe {s t : σ} {labels : List ε} (h : Run step s labels t) :
    ∃ evs : List (Event σ ε), evs.map Event.label = labels ∧ Run (Observed step) s evs t := by
  induction h with
  | nil => exact ⟨[], rfl, .nil⟩
  | @snoc labels t t' label _ hstep ih =>
    obtain ⟨evs, rfl, hrun⟩ := ih
    exact ⟨evs ++ [⟨t, label, t'⟩], by simp, hrun.snoc ⟨rfl, rfl, hstep⟩⟩

/-- A history that ends in a step is cut at this step or before it. -/
theorem cut_snoc {evs before after : List ε} {e cut : ε} (h : evs ++ [e] = before ++ cut :: after) :
    (before = evs ∧ after = [] ∧ cut = e) ∨
      ∃ rest, after = rest ++ [e] ∧ evs = before ++ cut :: rest := by
  induction after using List.reverseRecOn with
  | nil =>
    obtain ⟨hbefore, hlast⟩ := List.append_inj' h rfl
    exact .inl ⟨hbefore.symm, rfl, (List.singleton_inj.mp hlast).symm⟩
  | append_singleton rest last =>
    rw [← List.cons_append, ← List.append_assoc] at h
    obtain ⟨hevs, hlast⟩ := List.append_inj' h rfl
    exact .inr ⟨rest, by rw [List.singleton_inj.mp hlast], hevs⟩

end Transition
