import AlmenaMediator.Library.Program

/-!
# Programs that may stop anywhere

A process can be killed between any two of its calls, and somebody starts another one later.
`Program.Attempts` are the executions that come to a result or stop before it. `Program.Survives env
crash post` is the weakest precondition for them: `crash` holds of every state they may stop in,
`post` of every result and the state it leaves. A call that is cut short is up to the environment,
which may answer an error and leave any part of the call done.

Processes one after the other are `Sessions`, each an attempt of the program for its task. What each
attempt keeps is kept by any number of them (`Sessions.invariant`), and what each does to an
abstraction of the state is a run over the abstraction (`Sessions.simulate`).
-/

namespace Program

variable {I : Interface} {α β ε σ τ : Type} {env : Environment I σ}

/-- `Attempts env p s calls out t`: from `s` the program may make `calls`, oldest first, and leave
the state `t`, with a result or stopped before it. -/
inductive Attempts (env : Environment I σ) : Program I α → σ → List (Call I) → Option α → σ → Prop
  | done {a : α} {s : σ} : Attempts env (.done a) s [] (some a) s
  | stop {p : Program I α} {s : σ} : Attempts env p s [] none s
  | call {op : I.Op} {next : I.Reply op → Program I α} {r : I.Reply op}
      {s t u : σ} {calls : List (Call I)}
      {out : Option α} : env s ⟨op, r⟩ t → Attempts env (next r) t calls out u →
        Attempts env (.call op next) s (⟨op, r⟩ :: calls) out u

/-- An execution is an attempt that comes to its result. -/
theorem Executes.attempts {p : Program I α} {s t : σ} {calls : List (Call I)} {a : α}
    (h : Executes env p s calls a t) : Attempts env p s calls (some a) t := by
  induction h with
  | done => exact .done
  | call hstep _ ih => exact .call hstep ih

/-- Wherever the program stops `crash` holds, and every result satisfies `post` in the state it
leaves. -/
def Survives (env : Environment I σ) (crash : σ → Prop) : Program I α → (α → σ → Prop) → σ → Prop
  | done a, post, s => crash s ∧ post a s
  | call op next, post, s => crash s ∧ ∀ r t, env s ⟨op, r⟩ t → (next r).Survives env crash post t

variable {crash crash' : σ → Prop} {p : Program I α} {s t : σ}

/-- A program that has ended survives a crash exactly where the state it left does, and leaves its
result. -/
@[simp] theorem survives_done {a : α} {post : α → σ → Prop} :
    (done a : Program I α).Survives env crash post s ↔ crash s ∧ post a s := Iff.rfl

/-- A crash before a call finds the state as it is, and one after it is a crash of what goes on. -/
@[simp] theorem survives_call {op : I.Op} {next : I.Reply op → Program I α} {post : α → σ → Prop} :
    (call op next).Survives env crash post s ↔
      crash s ∧ ∀ r t, env s ⟨op, r⟩ t → (next r).Survives env crash post t := Iff.rfl

/-- A program may stop before its first call. -/
theorem Survives.stopped {post : α → σ → Prop} (h : p.Survives env crash post s) : crash s := by
  cases p with
  | done a => exact h.1
  | call op next => exact h.1

/-- A program and what follows it may stop in either. -/
@[simp] theorem survives_bind {f : α → Program I β} {post : β → σ → Prop} :
    (p >>= f).Survives env crash post s ↔
      p.Survives env crash (fun a t => (f a).Survives env crash post t) s := by
  induction p generalizing s with
  | done a => exact ⟨fun h => ⟨h.stopped, h⟩, And.right⟩
  | call op next ih =>
    simp only [call_bind, survives_call]
    exact and_congr_right fun _ => forall₂_congr fun r t => imp_congr_right fun _ => ih r

/-- Weakening, of what holds where a program stops and of what its results satisfy. -/
theorem Survives.mono {post post' : α → σ → Prop} (h : p.Survives env crash post s)
    (hcrash : ∀ t, crash t → crash' t) (hpost : ∀ a t, crash t → post a t → post' a t) :
    p.Survives env crash' post' s := by
  induction p generalizing s with
  | done a => exact ⟨hcrash s h.1, hpost a s h.1 h.2⟩
  | call op next ih => exact ⟨hcrash s h.1, fun r t hstep => ih r (h.2 r t hstep)⟩

/-- A program whose result is only put into another form. -/
theorem Survives.map {post : α → σ → Prop} (h : p.Survives env crash post s) (f : α → β) :
    (p >>= fun a => pure (f a)).Survives env crash (fun b t => ∃ a, b = f a ∧ post a t) s :=
  survives_bind.mpr (h.mono (fun _ => id) fun a _ hcrash hpost => ⟨hcrash, a, rfl, hpost⟩)

/-- Soundness: what holds where a program may stop holds after any attempt. -/
theorem Survives.sound {post : α → σ → Prop} (h : p.Survives env crash post s)
    {calls : List (Call I)} {out : Option α} (hattempt : Attempts env p s calls out t) :
    crash t ∧ ∀ a ∈ out, post a t := by
  induction hattempt with
  | done => exact ⟨h.1, fun a ha => Option.some_inj.mp ha ▸ h.2⟩
  | stop => exact ⟨h.stopped, fun a ha => by cases ha⟩
  | call hstep _ ih => exact ih (h.2 _ _ hstep)

/-- The rule for a program that may end with an error before its continuation. -/
@[simp] theorem survives_exceptT_bind {x : ExceptT ε (Program I) α}
    {f : α → ExceptT ε (Program I) β} {post : Except ε β → σ → Prop} :
    Survives env crash (ExceptT.run (x >>= f)) post s ↔
      Survives env crash (ExceptT.run x) (fun result t =>
        match result with
        | .ok a => Survives env crash (ExceptT.run (f a)) post t
        | .error e => post (.error e) t) s := by
  simp only [ExceptT.run_bind, survives_bind]
  constructor <;> intro h <;> refine h.mono (fun _ => id) fun result t hcrash hresult => ?_
  · cases result with
    | ok a => exact hresult
    | error e => exact hresult.2
  · cases result with
    | ok a => exact hresult
    | error e => exact ⟨hcrash, hresult⟩

end Program

/-! ## One process after the other -/

/-- A process: its task, the calls it made and its result, if it came to one. -/
structure Program.Session (I : Interface) (τ α : Type) where
  task : τ
  calls : List (Call I)
  outcome : Option α

/-- A session is an attempt of the program for its task. -/
def Sessions {I : Interface} {τ α σ : Type} (env : Program.Environment I σ)
    (program : τ → Program I α) : σ → Program.Session I τ α → σ → Prop :=
  fun s session t => Program.Attempts env (program session.task) s session.calls session.outcome t

namespace Sessions

variable {I : Interface} {τ α σ κ : Type} {env : Program.Environment I σ}
    {program : τ → Program I α} {sessions : List (Program.Session I τ α)} {s t : σ}

/-- What holds wherever a program may stop that was started while it held, holds after any
sessions. -/
theorem invariant {inv : σ → Prop} (hstart : inv s)
    (hkeeps : ∀ task s, inv s → (program task).Survives env inv (fun _ _ => True) s)
    (hrun : Transition.Run (Sessions env program) s sessions t) : inv t :=
  hrun.invariant hstart fun s session _ hinv hattempt =>
    ((hkeeps session.task s hinv).sound hattempt).1

/-- When every session does an abstract step to what the state stands for, sessions are a run of
those. -/
theorem simulate {stands : κ → σ → Prop} {step : κ → Program.Session I τ α → κ → Prop} {k : κ}
    (hstart : stands k s) (hstep : ∀ k s session t, stands k s → Sessions env program s session t →
      ∃ k', step k session k' ∧ stands k' t)
    (hrun : Transition.Run (Sessions env program) s sessions t) :
    ∃ k', Transition.Run step k sessions k' ∧ stands k' t := by
  induction hrun with
  | nil => exact ⟨k, .nil, hstart⟩
  | snoc _ hlast ih =>
    obtain ⟨k₁, hbefore, hstands⟩ := ih
    obtain ⟨k₂, hnext, hstands'⟩ := hstep _ _ _ _ hstands hlast
    exact ⟨k₂, hbefore.snoc hnext, hstands'⟩

end Sessions
