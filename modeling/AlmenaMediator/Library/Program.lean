import AlmenaMediator.Library.Transition
import Mathlib.Control.Basic

/-!
# Programs over an interface

A `Program I α` computes an `α` by calling the operations of an interface `I` one at a time: it is
either `done` or a `call` with what to do for each reply. An `Environment` says which replies an
operation may get in a state; `Program.Executes` are the uninterrupted executions in one, with the
calls they make. A sequential state machine that answers the operations is a `Handler`, and
`Program.run` the one execution against it.

`Program.Ensures rely guar post` is the weakest precondition of a program whose environment only
gives replies that satisfy `rely`: every operation called satisfies `guar` and the result satisfies
`post`. It computes over `pure`, `>>=` and the `ExceptT` operations (`ensures_bind`, ...), and
`Ensures.sound` brings it down to executions: a state invariant kept by every permitted operation is
kept by the whole program.
-/

/-- Operations and the type each is answered with. -/
structure Interface where
  /-- The operations, with their arguments. -/
  Op : Type
  /-- What an operation is answered with. -/
  Reply : Op → Type

/-- A program over the operations of `I`. -/
inductive Program (I : Interface) (α : Type) : Type
  | done (a : α)
  | call (op : I.Op) (next : I.Reply op → Program I α)

/-- A state machine that answers the operations of `I`, one at a time. -/
abbrev Handler (I : Interface) (σ : Type) : Type := (op : I.Op) → σ → I.Reply op × σ

/-- An operation together with the reply it got. -/
structure Call (I : Interface) where
  /-- The operation called. -/
  op : I.Op
  /-- The answer. -/
  reply : I.Reply op

namespace Program

variable {I : Interface} {α β γ ε σ : Type}

/-- Sequencing: what `f` does goes after every result of the program. -/
def bind : Program I α → (α → Program I β) → Program I β
  | done a, f => f a
  | call op next, f => call op fun r => (next r).bind f

instance : Monad (Program I) where
  pure := done
  bind := bind

/-- The program that calls `op` and returns its reply. -/
def request (op : I.Op) : Program I (I.Reply op) := call op done

@[simp] theorem pure_eq (a : α) : (pure a : Program I α) = done a := rfl

@[simp] theorem done_bind (a : α) (f : α → Program I β) : (done a >>= f) = f a := rfl

@[simp] theorem call_bind (op : I.Op) (next : I.Reply op → Program I α) (f : α → Program I β) :
    (call op next >>= f) = call op fun r => next r >>= f := rfl

/-- Returning what a program returns is the program itself. -/
theorem bind_done (x : Program I α) : x.bind done = x := by
  induction x with
  | done a => rfl
  | call op next ih => exact congrArg (call op) (funext ih)

/-- Composition of programs is associative. -/
theorem bind_bind (x : Program I α) (f : α → Program I β) (g : β → Program I γ) :
    (x.bind f).bind g = x.bind fun a => (f a).bind g := by
  induction x with
  | done a => rfl
  | call op next ih => exact congrArg (call op) (funext ih)

instance : LawfulMonad (Program I) :=
  LawfulMonad.mk' _ bind_done (fun _ _ => rfl) bind_bind

/-! ## Execution -/

/-- Executes a program against a handler, without interruption. -/
def run (h : Handler I σ) : Program I α → σ → α × σ
  | done a, s => (a, s)
  | call op next, s => (next (h op s).1).run h (h op s).2

/-- The calls an uninterrupted execution makes, oldest first. -/
def trace (h : Handler I σ) : Program I α → σ → List (Call I)
  | done _, _ => []
  | call op next, s => ⟨op, (h op s).1⟩ :: (next (h op s).1).trace h (h op s).2

/-- What is left of a program after at most `n` calls, those calls, and the state after them. -/
def upTo (h : Handler I σ) : ℕ → Program I α → σ → Program I α × List (Call I) × σ
  | n + 1, call op next, s =>
    let (q, calls, t) := upTo h n (next (h op s).1) (h op s).2
    (q, ⟨op, (h op s).1⟩ :: calls, t)
  | _, p, s => (p, [], s)

@[simp] theorem run_done (h : Handler I σ) (a : α) (s : σ) : (done a).run h s = (a, s) := rfl

@[simp] theorem run_call (h : Handler I σ) (op : I.Op) (next : I.Reply op → Program I α) (s : σ) :
    (call op next).run h s = (next (h op s).1).run h (h op s).2 := rfl

@[simp] theorem run_request (h : Handler I σ) (op : I.Op) (s : σ) :
    (request op).run h s = h op s := rfl

/-- A composed program runs its second part on the result and the state that the first part leaves.
-/
@[simp] theorem run_bind (h : Handler I σ) (p : Program I α) (f : α → Program I β) (s : σ) :
    (p >>= f).run h s = (f (p.run h s).1).run h (p.run h s).2 := by
  induction p generalizing s with
  | done a => rfl
  | call op next ih => exact ih _ _

/-- The calls of a composed program are those of its first part and then those of its second. -/
theorem trace_bind (h : Handler I σ) (p : Program I α) (f : α → Program I β) (s : σ) :
    (p >>= f).trace h s = p.trace h s ++ (f (p.run h s).1).trace h (p.run h s).2 := by
  induction p generalizing s with
  | done a => rfl
  | call op next ih => exact congrArg (_ :: ·) (ih _ _)

/-- A program goes on after a result. -/
theorem run_exceptT_bind_ok {h : Handler I σ} {x : ExceptT ε (Program I) α}
    {f : α → ExceptT ε (Program I) β} {s t : σ} {a : α} (hx : x.run.run h s = (.ok a, t)) :
    (x >>= f).run.run h s = (f a).run.run h t ∧
      (x >>= f).run.trace h s = x.run.trace h s ++ (f a).run.trace h t := by
  rw [ExceptT.run_bind, run_bind, trace_bind, hx]
  exact ⟨rfl, rfl⟩

/-- A program goes on after one that cannot fail. -/
theorem run_lift_bind {h : Handler I σ} (x : Program I α) (f : α → ExceptT ε (Program I) β)
    (s : σ) : ((liftM x : ExceptT ε (Program I) α) >>= f).run.run h s =
        (f (x.run h s).1).run.run h (x.run h s).2 ∧
      ((liftM x : ExceptT ε (Program I) α) >>= f).run.trace h s =
        x.trace h s ++ (f (x.run h s).1).run.trace h (x.run h s).2 := by
  have hrun : (liftM x : ExceptT ε (Program I) α).run.run h s =
    (.ok (x.run h s).1, (x.run h s).2) :=
    run_bind h x (fun a => pure (Except.ok a)) s
  have htrace : (liftM x : ExceptT ε (Program I) α).run.trace h s = x.trace h s :=
    (trace_bind h x (fun a => pure (Except.ok a)) s).trans (List.append_nil _)
  obtain ⟨hresult, hcalls⟩ := run_exceptT_bind_ok (f := f) hrun
  exact ⟨hresult, by rw [hcalls, htrace]⟩

/-- A program stops at an error. -/
theorem run_exceptT_bind_error {h : Handler I σ} {x : ExceptT ε (Program I) α}
    {f : α → ExceptT ε (Program I) β} {s t : σ} {e : ε} (hx : x.run.run h s = (.error e, t)) :
    (x >>= f).run.run h s = (.error e, t) ∧ (x >>= f).run.trace h s = x.run.trace h s := by
  rw [ExceptT.run_bind, run_bind, trace_bind, hx]
  exact ⟨rfl, List.append_nil _⟩

/-! ### Environments -/

/-- What a call may be answered in a state, and the state after it. -/
abbrev Environment (I : Interface) (σ : Type) : Type := σ → Call I → σ → Prop

/-- A handler is the environment with its one answer. -/
def Handled (h : Handler I σ) : Environment I σ := fun s c t => h c.op s = (c.reply, t)

/-- A handler's answer is a step. -/
theorem handled (h : Handler I σ) (op : I.Op) (s : σ) : Handled h s ⟨op, (h op s).1⟩ (h op s).2 :=
  rfl

/-- A handled call got the handler's reply and left the handler's state. -/
theorem Handled.eq {h : Handler I σ} {s t : σ} {op : I.Op} {r : I.Reply op}
    (hstep : Handled h s ⟨op, r⟩ t) : r = (h op s).1 ∧ t = (h op s).2 :=
  ⟨(congrArg Prod.fst hstep).symm, (congrArg Prod.snd hstep).symm⟩

/-- `Executes env p s calls a t`: from `s` the program may make `calls`, oldest first, return `a`
and leave the state `t`. -/
inductive Executes (env : Environment I σ) : Program I α → σ → List (Call I) → α → σ → Prop
  | done {a : α} {s : σ} : Executes env (.done a) s [] a s
  | call {op : I.Op} {next : I.Reply op → Program I α} {r : I.Reply op} {s t u : σ}
      {calls : List (Call I)} {a : α} :
      env s ⟨op, r⟩ t → Executes env (next r) t calls a u →
        Executes env (.call op next) s (⟨op, r⟩ :: calls) a u

namespace Executes

variable {env : Environment I σ} {p : Program I α} {f : α → Program I β} {s t u : σ}
  {calls calls' : List (Call I)} {a : α} {b : β}

/-- An execution is a run of the environment over the calls it makes. -/
theorem toRun (h : Executes env p s calls a t) : Transition.Run env s calls t := by
  induction h with
  | done => exact .nil
  | call hstep _ ih => exact .cons hstep ih

/-- An execution is one in any surroundings that may answer the same. -/
theorem mono {env' : Environment I σ} (h : Executes env p s calls a t)
    (henv : ∀ s c t, env s c t → env' s c t) : Executes env' p s calls a t := by
  induction h with
  | done => exact .done
  | call hstep _ ih => exact .call (henv _ _ _ hstep) ih

/-- An execution takes only its own calls. -/
theorem among (h : Executes env p s calls a t) :
    Executes (fun s c t => env s c t ∧ c ∈ calls) p s calls a t := by
  induction h with
  | done => exact .done
  | call hstep _ ih =>
    exact .call ⟨hstep, List.mem_cons_self⟩
      (ih.mono fun _ _ _ h => ⟨h.1, List.mem_cons_of_mem _ h.2⟩)

/-- Executions in sequence. -/
theorem bind (h : Executes env p s calls a t) (h' : Executes env (f a) t calls' b u) :
    Executes env (p >>= f) s (calls ++ calls') b u := by
  induction h with
  | done => simpa using h'
  | call hstep _ ih => exact .call hstep (ih h')

/-- An execution of a sequence is one of its first part and then one of the rest. -/
theorem bind_inv (h : Executes env (p >>= f) s calls b u) :
    ∃ calls₁ calls₂ a t, calls = calls₁ ++ calls₂ ∧ Executes env p s calls₁ a t ∧
      Executes env (f a) t calls₂ b u := by
  induction p generalizing s calls with
  | done a => exact ⟨[], calls, a, s, rfl, .done, h⟩
  | call op next ih =>
    rw [call_bind] at h
    cases h with
    | call hstep hrest =>
      obtain ⟨calls₁, calls₂, a, t, rfl, hfirst, hsecond⟩ := ih _ hrest
      exact ⟨_ :: calls₁, calls₂, a, t, rfl, .call hstep hfirst, hsecond⟩

end Executes

/-- Running a program against a handler is an execution. -/
theorem run_executes (h : Handler I σ) (p : Program I α) (s : σ) :
    Executes (Handled h) p s (p.trace h s) (p.run h s).1 (p.run h s).2 := by
  induction p generalizing s with
  | done a => exact .done
  | call op next ih => exact .call rfl (ih _ _)

/-! ## Weakest preconditions -/

/-- Every operation called satisfies `guar` and every result satisfies `post`, as long as the
replies satisfy `rely`. -/
def Ensures (rely : (op : I.Op) → I.Reply op → Prop) (guar : I.Op → Prop) :
    Program I α → (α → Prop) → Prop
  | done a, post => post a
  | call op next, post => guar op ∧ ∀ r, rely op r → (next r).Ensures rely guar post

variable {rely : (op : I.Op) → I.Reply op → Prop} {guar : I.Op → Prop}

/-- A program that has ended ensures exactly what holds of its result. -/
@[simp] theorem ensures_done {a : α} {post : α → Prop} :
    (done a : Program I α).Ensures rely guar post ↔ post a := Iff.rfl

/-- A call has to be one that is guaranteed, and for every reply to be relied on the rest has to
ensure its part. -/
@[simp] theorem ensures_call {op : I.Op} {next : I.Reply op → Program I α} {post : α → Prop} :
    (call op next).Ensures rely guar post ↔
      guar op ∧ ∀ r, rely op r → (next r).Ensures rely guar post := Iff.rfl

/-- The rule of composition: the first part has to ensure that the second, given its result, ensures
its part. -/
@[simp] theorem ensures_bind {p : Program I α} {f : α → Program I β} {post : β → Prop} :
    (p >>= f).Ensures rely guar post ↔
      p.Ensures rely guar fun a => (f a).Ensures rely guar post := by
  induction p with
  | done a => rfl
  | call op next ih =>
    simp only [call_bind, ensures_call]
    exact and_congr_right fun _ => forall₂_congr fun r _ => ih r

/-- Weakening: a smaller set of replies to expect, a larger set of calls to allow, a weaker
postcondition. -/
theorem Ensures.mono {rely' : (op : I.Op) → I.Reply op → Prop} {guar' : I.Op → Prop}
    {p : Program I α} {post post' : α → Prop} (h : p.Ensures rely guar post)
    (hrely : ∀ op r, rely' op r → rely op r) (hguar : ∀ op, guar op → guar' op)
    (hpost : ∀ a, post a → post' a) : p.Ensures rely' guar' post' := by
  induction p with
  | done a => exact hpost a h
  | call op next ih => exact ⟨hguar op h.1, fun r hr => ih r (h.2 r (hrely op r hr))⟩

/-- Weakening the postcondition alone. -/
theorem Ensures.imp {p : Program I α} {post post' : α → Prop} (h : p.Ensures rely guar post)
    (hpost : ∀ a, post a → post' a) : p.Ensures rely guar post' :=
  h.mono (fun _ _ hr => hr) (fun _ hg => hg) hpost

/-- Soundness: a state invariant that every permitted operation keeps, answering with a reply the
program relies on, is kept by an execution of the whole program; its calls are all permitted and
its result is as promised. -/
theorem Ensures.sound {env : Environment I σ} {p : Program I α} {post : α → Prop}
    (hp : p.Ensures rely guar post) (inv : σ → Prop)
    (hstep : ∀ s c t, inv s → guar c.op → env s c t → rely c.op c.reply ∧ inv t)
    {s t : σ} {calls : List (Call I)} {a : α} (hs : inv s) (h : Executes env p s calls a t) :
    post a ∧ inv t ∧ ∀ c ∈ calls, guar c.op ∧ rely c.op c.reply := by
  induction h with
  | done => exact ⟨hp, hs, by simp⟩
  | call henv _ ih =>
    obtain ⟨hreply, hinv⟩ := hstep _ _ _ hs hp.1 henv
    obtain ⟨hpost, hend, hcalls⟩ := ih (hp.2 _ hreply) hinv
    refine ⟨hpost, hend, ?_⟩
    rw [List.forall_mem_cons]
    exact ⟨⟨hp.1, hreply⟩, hcalls⟩

/-! ## Programs that can fail -/

/-- The rule for a program that may stop with an error before its continuation. -/
@[simp] theorem ensures_exceptT_bind {p : ExceptT ε (Program I) α}
    {f : α → ExceptT ε (Program I) β} {post : Except ε β → Prop} :
    Ensures rely guar (ExceptT.run (p >>= f)) post ↔
      Ensures rely guar (ExceptT.run p) fun
        | .ok a => Ensures rely guar (ExceptT.run (f a)) post
        | .error e => post (.error e) := by
  simp only [ExceptT.run_bind, ensures_bind]
  constructor <;> intro h <;> refine h.imp fun a ha => ?_ <;> cases a <;> simpa using ha

/-- What both parts of a program that can fail call, the whole calls. -/
theorem Ensures.seq {p : ExceptT ε (Program I) α} {f : α → ExceptT ε (Program I) β}
    (hp : Ensures rely guar p.run fun _ => True)
    (hf : ∀ a, Ensures rely guar (f a).run fun _ => True) :
    Ensures rely guar (p >>= f).run fun _ => True := by
  rw [ensures_exceptT_bind]
  refine hp.imp fun result _ => ?_
  cases result with
  | ok a => exact hf a
  | error e => trivial

end Program
