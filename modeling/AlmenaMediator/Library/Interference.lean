import AlmenaMediator.Library.Program
import Mathlib.Logic.Relation

/-!
# Interference

A program that others come between the calls of, and an interface whose operations are themselves
programs over another one. Both are environments: `Interfered` lets others take steps before each
call, and `Implemented` answers a call by an execution of its program. What the steps of others keep
holds until the next call (`kept_until`), so that a property stable under them can be carried
through an execution.
-/

namespace Program

variable {I J : Interface} {α β ε σ : Type}

/-- Others may take any number of steps before a call. -/
def Interfered (others : σ → σ → Prop) (env : Environment I σ) : Environment I σ := fun s c t =>
  ∃ u, Relation.ReflTransGen others s u ∧ env u c t

/-- A call is answered by an execution of what implements the operation. -/
def Implemented (impl : (op : I.Op) → Program J (I.Reply op)) (env : Environment J σ) :
    Environment I σ := fun s c t =>
  ∃ calls, Executes env (impl c.op) s calls c.reply t

variable {others : σ → σ → Prop} {env : Environment I σ} {s t : σ} {c : Call I}
    {calls : List (Call I)}

/-- Without a step of others, a call is an interfered one. -/
theorem interfered (h : env s c t) : Interfered others env s c t := ⟨s, .refl, h⟩

/-- What others keep holds when they are done. -/
theorem kept_until (inv : σ → Prop) (hkeep : ∀ s t, inv s → others s t → inv t)
    (h : Relation.ReflTransGen others s t) (hs : inv s) : inv t := by
  induction h with
  | refl => exact hs
  | tail _ hstep ih => exact hkeep _ _ ih hstep

/-! ## Executions from their first call on -/

namespace Executes

variable {p : Program I α} {a : α}

/-- What an environment says of every call, an execution says of its calls. -/
theorem and_inv {P : Call I → Prop} (h : Executes (fun s c t => env s c t ∧ P c) p s calls a t) :
    Executes env p s calls a t ∧ ∀ c ∈ calls, P c := by
  induction h with
  | done => exact ⟨.done, by simp⟩
  | call hstep _ ih => exact ⟨.call hstep.1 ih.1, List.forall_mem_cons.mpr ⟨hstep.2, ih.2⟩⟩

/-- A program that is done makes no call. -/
theorem done_inv {b : α} (h : Executes env (.done a) s calls b t) : calls = [] ∧ b = a ∧ t = s := by
  cases h
  exact ⟨rfl, rfl, rfl⟩

/-- One call is one step. -/
theorem request_inv {op : I.Op} {r : I.Reply op} (h : Executes env (request op) s calls r t) :
    calls = [⟨op, r⟩] ∧ env s ⟨op, r⟩ t := by
  cases h with
  | call hstep hrest =>
    obtain ⟨rfl, rfl, rfl⟩ := hrest.done_inv
    exact ⟨rfl, hstep⟩

/-- A program that can fail goes on after a result, and stops at an error. -/
theorem exceptT_bind_inv {x : ExceptT ε (Program I) α} {f : α → ExceptT ε (Program I) β}
    {r : Except ε β} (h : Executes env (x >>= f).run s calls r t) :
    (∃ e, Executes env x.run s calls (.error e) t ∧ r = .error e) ∨
      ∃ calls₁ calls₂ a u, calls = calls₁ ++ calls₂ ∧ Executes env x.run s calls₁ (.ok a) u ∧
        Executes env (f a).run u calls₂ r t := by
  rw [ExceptT.run_bind] at h
  obtain ⟨calls₁, calls₂, result, u, rfl, hfirst, hrest⟩ := h.bind_inv
  cases result with
  | error e =>
    left
    obtain ⟨rfl, rfl, rfl⟩ := done_inv hrest
    rw [List.append_nil]
    exact ⟨e, hfirst, rfl⟩
  | ok a => exact .inr ⟨calls₁, calls₂, a, u, rfl, hfirst, hrest⟩

end Executes

end Program
