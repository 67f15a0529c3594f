import Mathlib.Control.Basic

/-!
# Scripts

A script changes a state step by step and may abort. What it wrote before aborting stays: the error
is in the result, not instead of the state. `Script.Meets post fail` is the weakest precondition of
a script: what it returns satisfies `post`, and where it aborts the state left behind satisfies
`fail`. `Script.Keeps` is the rule for what a script never breaks, whether it aborts or not.
-/

/-- A state transformer that may abort with an error text, keeping its writes. -/
abbrev Script (σ α : Type) : Type := ExceptT String (StateM σ) α

namespace Script

variable {σ α β : Type}

/-- The result of a script and the state it leaves. -/
def exec (x : Script σ α) (s : σ) : Except String α × σ := x.run.run s

/-- Aborts. -/
def abort (error : String) : Script σ α := throw error

/-- Reads something off the state. -/
def read (f : σ → α) : Script σ α := do return f (← get)

/-- Rewrites the state. -/
def write (f : σ → σ) : Script σ Unit := modify f

@[simp] theorem exec_pure (a : α) (s : σ) : exec (pure a) s = (.ok a, s) := rfl

@[simp] theorem exec_abort (error : String) (s : σ) :
    exec (abort error : Script σ α) s = (.error error, s) := rfl

@[simp] theorem exec_read (f : σ → α) (s : σ) : exec (read f) s = (.ok (f s), s) := rfl

@[simp] theorem exec_write (f : σ → σ) (s : σ) : exec (write f) s = (.ok (), f s) := rfl

/-- A sequence goes on after a result and stops at an error. -/
theorem exec_bind (x : Script σ α) (f : α → Script σ β) (s : σ) :
    exec (x >>= f) s = match exec x s with
      | (.ok a, t) => exec (f a) t
      | (.error e, t) => (.error e, t) := by
  simp only [exec, ExceptT.run_bind, StateT.run_bind]
  rcases x.run.run s with ⟨r, t⟩
  cases r <;> rfl

/-- Where the first script ends well the second goes on from the state and the result it left. -/
theorem exec_bind_ok {x : Script σ α} {f : α → Script σ β} {s t : σ} {a : α}
    (h : exec x s = (.ok a, t)) : exec (x >>= f) s = exec (f a) t := by
  rw [exec_bind, h]

/-- Where the first script aborts the second is not run, and the writes of the first stay. -/
theorem exec_bind_error {x : Script σ α} {f : α → Script σ β} {s t : σ} {e : String}
    (h : exec x s = (.error e, t)) : exec (x >>= f) s = (.error e, t) := by
  rw [exec_bind, h]

/-- A loop does its first round and then the others. -/
theorem exec_forM_cons {ι : Type} (x : ι) (xs : List ι) (f : ι → Script σ Unit) (s : σ) :
    exec ((x :: xs).forM f) s = match exec (f x) s with
      | (.ok _, t) => exec (xs.forM f) t
      | (.error e, t) => (.error e, t) := by
  have h : (x :: xs).forM f = f x >>= fun _ => xs.forM f := rfl
  rw [h, exec_bind]
  rcases exec (f x) s with ⟨r, t⟩
  cases r <;> rfl

/-- A conditional script runs as the branch that its condition takes. -/
@[simp] theorem exec_ite (c : Prop) [Decidable c] (x y : Script σ α) (s : σ) :
    exec (if c then x else y) s = if c then exec x s else exec y s := by
  split <;> rfl

/-! ## Weakest preconditions -/

/-- From `s` the script returns with `post`, or aborts with `fail`. -/
def Meets (x : Script σ α) (post : α → σ → Prop) (fail : σ → Prop) (s : σ) : Prop :=
  match exec x s with
  | (.ok a, t) => post a t
  | (.error _, t) => fail t

section Meets

variable {post post' : α → σ → Prop} {fail fail' : σ → Prop} {s : σ}

/-- A script that returns at once meets exactly what holds of its result and the state. -/
@[simp] theorem meets_pure (a : α) : (pure a : Script σ α).Meets post fail s ↔ post a s := Iff.rfl

/-- A script that aborts meets exactly what the state must meet on failure. -/
@[simp] theorem meets_abort (error : String) :
    (abort error : Script σ α).Meets post fail s ↔ fail s := Iff.rfl

/-- A read meets exactly what holds of what is read. -/
@[simp] theorem meets_read (f : σ → α) : (read f).Meets post fail s ↔ post (f s) s := Iff.rfl

/-- A write meets exactly what holds of the written state. -/
@[simp] theorem meets_write {post : Unit → σ → Prop} (f : σ → σ) :
    (write f).Meets post fail s ↔ post () (f s) := Iff.rfl

/-- The rule of composition: the first script has to meet what the second needs of each result. -/
@[simp] theorem meets_bind {x : Script σ α} {f : α → Script σ β} {post : β → σ → Prop} :
    (x >>= f).Meets post fail s ↔ x.Meets (fun a t => (f a).Meets post fail t) fail s := by
  simp only [Meets, exec_bind]
  rcases exec x s with ⟨r, t⟩
  cases r <;> rfl

/-- A conditional script meets what the branch that its condition takes meets. -/
@[simp] theorem meets_ite {c : Prop} [Decidable c] {x y : Script σ α} :
    (if c then x else y).Meets post fail s ↔
      if c then x.Meets post fail s else y.Meets post fail s := by
  split <;> rfl

/-- Weakening both postconditions. -/
theorem Meets.mono {x : Script σ α} (h : x.Meets post fail s) (hpost : ∀ a t, post a t → post' a t)
    (hfail : ∀ t, fail t → fail' t) : x.Meets post' fail' s := by
  unfold Meets at h ⊢
  rcases hx : exec x s with ⟨r, t⟩
  rw [hx] at h
  cases r with
  | ok a => exact hpost a t h
  | error e => exact hfail t h

/-- A script meets what always holds. -/
theorem meets_of_forall {x : Script σ α} (hpost : ∀ a t, post a t) (hfail : ∀ t, fail t) :
    x.Meets post fail s := by
  unfold Meets
  split
  · exact hpost _ _
  · exact hfail _

/-- What holds at the end, whatever the result. -/
theorem Meets.final {x : Script σ α} (h : x.Meets (fun _ => fail) fail s) : fail (exec x s).2 := by
  unfold Meets at h
  rcases hx : exec x s with ⟨r, t⟩
  rw [hx] at h
  cases r <;> exact h

end Meets

/-! ## Invariants of scripts -/

/-- Whatever a script does, it does not break `inv`. -/
def Keeps (inv : σ → Prop) (x : Script σ α) : Prop := ∀ s, inv s → inv (exec x s).2

variable {inv : σ → Prop}

/-- Returning keeps every property of the state. -/
theorem keeps_pure (a : α) : Keeps inv (pure a : Script σ α) := fun _ h => h

/-- Aborting keeps every property of the state, for it writes nothing. -/
theorem keeps_abort (error : String) : Keeps inv (abort error : Script σ α) := fun _ h => h

/-- Reading keeps every property of the state. -/
theorem keeps_read (f : σ → α) : Keeps inv (read f) := fun _ h => h

/-- A write keeps a property that it carries from each state to the written one. -/
theorem keeps_write {f : σ → σ} (h : ∀ s, inv s → inv (f s)) : Keeps inv (write f) := h

/-- Scripts that keep a property keep it one after the other, wherever the first aborts. -/
theorem keeps_bind {x : Script σ α} {f : α → Script σ β} (hx : Keeps inv x)
    (hf : ∀ a, Keeps inv (f a)) : Keeps inv (x >>= f) := by
  intro s hs
  have hmid := hx s hs
  rw [exec_bind]
  rcases hx' : exec x s with ⟨r, t⟩
  rw [hx'] at hmid
  cases r with
  | ok a => exact hf a t hmid
  | error e => exact hmid

/-- A conditional script keeps a property that both its branches keep. -/
theorem keeps_ite {c : Prop} [Decidable c] {x y : Script σ α} (hx : Keeps inv x)
    (hy : Keeps inv y) : Keeps inv (if c then x else y) := by
  split <;> assumption

end Script
