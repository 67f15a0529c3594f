import AlmenaMediator.Library.Program
import Mathlib.Logic.Function.Basic

/-!
# Pools of tasks

Tasks run programs against a shared state, one call of one task at a time, in any order. A thread
remembers the calls its task made, so that an invariant can speak about how far it is:
`Reachable.unfolds` says that what is left of a task is what its program comes to after those calls,
and `Reachable.guaranteed` brings what a program ensures down to every call of every interleaving.
-/

namespace Program

variable {I : Interface} {α : Type}

/-- After `calls`, oldest first, the program comes to another. -/
inductive Unfolds (p : Program I α) : List (Call I) → Program I α → Prop
  | nil : Unfolds p [] p
  | snoc {calls : List (Call I)} {op : I.Op} {next : I.Reply op → Program I α} (r : I.Reply op) :
      Unfolds p calls (.call op next) → Unfolds p (calls ++ [⟨op, r⟩]) (next r)

/-- What a program ensures, the rest of it ensures after replies it relies on. -/
theorem Unfolds.ensures {rely : (op : I.Op) → I.Reply op → Prop} {guar : I.Op → Prop}
    {post : α → Prop} {p q : Program I α} {calls : List (Call I)} (h : Unfolds p calls q)
    (hp : p.Ensures rely guar post) (hcalls : ∀ c ∈ calls, rely c.op c.reply) :
    q.Ensures rely guar post := by
  induction h with
  | nil => exact hp
  | snoc r _ ih =>
    rw [List.forall_mem_append] at hcalls
    exact (ih hcalls.1).2 r (hcalls.2 _ (List.mem_singleton_self _))

/-- A program made no call yet, or what is left of it is left of what followed its first one. -/
theorem Unfolds.first {p q : Program I α} {calls : List (Call I)} (h : p.Unfolds calls q) :
    (calls = [] ∧ q = p) ∨ ∃ op next r rest, p = .call op next ∧ calls = ⟨op, r⟩ :: rest ∧
      (next r).Unfolds rest q := by
  induction h with
  | nil => exact .inl ⟨rfl, rfl⟩
  | @snoc calls op next r _ ih =>
    right
    rcases ih with ⟨rfl, rfl⟩ | ⟨op', next', r', rest, rfl, rfl, hrest⟩
    · exact ⟨op, next, r, [], rfl, rfl, .nil⟩
    · exact ⟨op', next', r', rest ++ [⟨op, r⟩], rfl, rfl, hrest.snoc r⟩

/-- What follows the first call follows the program. -/
theorem Unfolds.cons {op : I.Op} {next : I.Reply op → Program I α} {r : I.Reply op}
    {q : Program I α} {calls : List (Call I)} (h : (next r).Unfolds calls q) :
    (Program.call op next).Unfolds (⟨op, r⟩ :: calls) q := by
  induction h with
  | nil => exact Unfolds.nil.snoc r
  | snoc r' _ ih => exact .snoc r' ih

/-- Nothing is left of a program that is done. -/
theorem Unfolds.of_done {a : α} {q : Program I α} {calls : List (Call I)}
    (h : (Program.done a).Unfolds calls q) : calls = [] ∧ q = .done a := by
  rcases h.first with h | ⟨_, _, _, _, hcall, -⟩
  · exact h
  · exact nomatch hcall

/-- The calls of a program that goes on with `next`. -/
theorem Unfolds.of_call {op : I.Op} {next : I.Reply op → Program I α} {q : Program I α}
    {calls : List (Call I)} (h : (Program.call op next).Unfolds calls q) :
    (calls = [] ∧ q = .call op next) ∨ ∃ r rest, calls = ⟨op, r⟩ :: rest ∧
      (next r).Unfolds rest q := by
  rcases h.first with h | ⟨_, _, r, rest, hcall, rfl, hrest⟩
  · exact .inl h
  · cases hcall
    exact .inr ⟨r, rest, rfl, hrest⟩

end Program

namespace Pool

/-- A task under way: what it is, the calls it made, and what is left of it. -/
structure Thread (I : Interface) (T : Type) where
  task : T
  /-- Oldest first. -/
  calls : List (Call I)
  rest : Program I Unit

/-- The tasks under way and the shared state. -/
structure Config (I : Interface) (T σ : Type) where
  threads : ℕ → Option (Thread I T)
  shared : σ

/-- What tasks run, and what they and time do to the shared state. -/
structure System (I : Interface) (T σ : Type) where
  /-- What a task runs. -/
  program : T → Program I Unit
  /-- Which task may start as which thread, and what that changes. -/
  start : ℕ → T → σ → σ → Prop
  /-- What a call of a thread may be answered. -/
  env : ℕ → Program.Environment I σ
  /-- What may happen between calls. -/
  idle : Config I T σ → σ → Prop

/-- What happens in a pool. -/
inductive Label (I : Interface) (T : Type)
  | start (i : ℕ) (task : T)
  /-- A call of a thread's task, which made `before` already. -/
  | call (i : ℕ) (task : T) (before : List (Call I)) (c : Call I)
  | stop (i : ℕ) (task : T)
  | idle

namespace Config

variable {I : Interface} {T σ : Type}

/-- No task is under way. -/
def empty (s : σ) : Config I T σ := ⟨fun _ => none, s⟩

/-- A thread becomes another, or none. -/
def set (c : Config I T σ) (i : ℕ) (t : Option (Thread I T)) (s : σ) : Config I T σ where
  threads := Function.update c.threads i t
  shared := s

/-- The thread that was set is the one found in its place. -/
@[simp] theorem set_threads_self (c : Config I T σ) (i : ℕ) (t : Option (Thread I T)) (s : σ) :
    (c.set i t s).threads i = t := by
  simp [set]

/-- Setting one thread leaves the others as they were. -/
theorem set_threads_of_ne (c : Config I T σ) {i j : ℕ} (h : j ≠ i) (t : Option (Thread I T))
    (s : σ) : (c.set i t s).threads j = c.threads j := by
  simp [set, h]

/-- Setting a thread sets the shared state with it. -/
@[simp] theorem set_shared (c : Config I T σ) (i : ℕ) (t : Option (Thread I T)) (s : σ) :
    (c.set i t s).shared = s := rfl

end Config

variable {I : Interface} {T σ : Type} (S : System I T σ)

/-- One step of a pool. -/
inductive Step : Config I T σ → Label I T → Config I T σ → Prop
  | start {c : Config I T σ} {i : ℕ} {task : T} {s : σ} :
      c.threads i = none → S.start i task c.shared s →
        Step c (.start i task) (c.set i (some ⟨task, [], S.program task⟩) s)
  | call {c : Config I T σ} {i : ℕ} {task : T} {calls : List (Call I)} {op : I.Op}
      {next : I.Reply op → Program I Unit} {r : I.Reply op} {s : σ} :
      c.threads i = some ⟨task, calls, .call op next⟩ → S.env i c.shared ⟨op, r⟩ s →
        Step c (.call i task calls ⟨op, r⟩) (c.set i (some ⟨task, calls ++ [⟨op, r⟩], next r⟩) s)
  | stop {c : Config I T σ} {i : ℕ} {task : T} {calls : List (Call I)} :
      c.threads i = some ⟨task, calls, .done ()⟩ →
        Step c (.stop i task) (c.set i none c.shared)
  | idle {c : Config I T σ} {s : σ} : S.idle c s → Step c .idle { c with shared := s }

/-- What is left of every task is what its program comes to after its calls. -/
def Unfolded (c : Config I T σ) : Prop :=
  ∀ i t, c.threads i = some t → (S.program t.task).Unfolds t.calls t.rest

variable {S} {c c' : Config I T σ} {label : Label I T}

/-- A pool without threads is unfolded. -/
theorem unfolded_empty (s : σ) : Unfolded S (.empty s) := by
  intro i t h
  simp [Config.empty] at h

/-- Steps unfold programs. -/
theorem Step.unfolded (h : Step S c label c') (hc : Unfolded S c) : Unfolded S c' := by
  cases h with
  -- the thread that moves is looked at; the others stand where they stood
  | @start i task s _ _ =>
    intro j t ht
    by_cases hj : j = i
    · subst hj
      obtain rfl : _ = t := by simpa using ht
      exact .nil
    · rw [Config.set_threads_of_ne c hj] at ht
      exact hc j t ht
  | @call i task calls op next r s hthread _ =>
    intro j t ht
    by_cases hj : j = i
    · subst hj
      obtain rfl : _ = t := by simpa using ht
      -- the call is one more step into the program
      exact (hc j _ hthread).snoc r
    · rw [Config.set_threads_of_ne c hj] at ht
      exact hc j t ht
  | @stop i task calls _ =>
    intro j t ht
    by_cases hj : j = i
    · subst hj
      simp at ht
    · rw [Config.set_threads_of_ne c hj] at ht
      exact hc j t ht
  | idle _ => exact hc

/-- In a run from a pool without tasks, every program is unfolded. -/
theorem unfolded_of_run {s : σ} {labels : List (Label I T)}
    (h : Transition.Run (Step S) (.empty s) labels c) : Unfolded S c :=
  h.invariant (unfolded_empty s) fun _ _ _ hc hstep => hstep.unfolded hc

/-- Every call the threads made satisfies `P`. -/
def CallsMeet (P : Call I → Prop) (c : Config I T σ) : Prop :=
  ∀ i t, c.threads i = some t → ∀ k ∈ t.calls, P k

/-- What holds of every call the surroundings answer holds of the calls every thread made. -/
theorem callsMeet_of_run {P : Call I → Prop} (henv : ∀ i s k t, S.env i s k t → P k) {s : σ}
    {labels : List (Label I T)} (h : Transition.Run (Step S) (.empty s) labels c) :
    CallsMeet P c := by
  have hstart : CallsMeet P (.empty s : Config I T σ) := fun i t ht => by simp [Config.empty] at ht
  refine h.invariant hstart fun c label c' hc hstep j t ht => ?_
  cases hstep with
  | @start i task s _ _ =>
    by_cases hj : j = i
    · subst hj
      obtain rfl : _ = t := by simpa using ht
      simp
    · exact hc j t (by rwa [Config.set_threads_of_ne c hj] at ht)
  | @call i task calls op next r s hthread hreply =>
    by_cases hj : j = i
    · subst hj
      obtain rfl : _ = t := by simpa using ht
      rw [List.forall_mem_append]
      -- the calls so far meet the property by induction and the new one by the environment
      exact ⟨hc j _ hthread, by simpa using henv _ _ _ _ hreply⟩
    · exact hc j t (by rwa [Config.set_threads_of_ne c hj] at ht)
  | @stop i task calls _ =>
    by_cases hj : j = i
    · subst hj
      simp at ht
    · exact hc j t (by rwa [Config.set_threads_of_ne c hj] at ht)
  | idle _ => exact hc j t ht

/-- The replies a task got. -/
def Answered (calls : List (Call I)) (op : I.Op) (r : I.Reply op) : Prop := ⟨op, r⟩ ∈ calls

/-- The calls the threads made are in the history. -/
theorem called_of_run {s : σ} {labels : List (Label I T)}
    (h : Transition.Run (Step S) (.empty s) labels c) {i : ℕ} {t : Thread I T}
    (ht : c.threads i = some t) {k : Call I} (hk : k ∈ t.calls) :
    ∃ before, Label.call i t.task before k ∈ labels := by
  induction h generalizing t with
  | nil => simp [Config.empty] at ht
  | @snoc labels c c' label _ hstep ih =>
    -- what was called before the last step is among the labels already
    have hbefore : ∀ t, c.threads i = some t → k ∈ t.calls →
        ∃ before, Label.call i t.task before k ∈ labels ++ [label] := by
      intro t ht hk
      obtain ⟨before, hmem⟩ := ih ht hk
      exact ⟨before, List.mem_append_left _ hmem⟩
    cases hstep with
    | @start j task s _ _ =>
      by_cases hj : i = j
      · subst hj
        obtain rfl : _ = t := by simpa using ht
        exact absurd hk List.not_mem_nil
      · exact hbefore t (by rwa [Config.set_threads_of_ne c hj] at ht) hk
    | @call j task calls op next r s hthread _ =>
      by_cases hj : i = j
      · subst hj
        obtain rfl : _ = t := by simpa using ht
        rcases List.mem_append.mp hk with hk | hk
        · obtain ⟨before, hmem⟩ := hbefore _ hthread hk
          exact ⟨before, hmem⟩
        · obtain rfl := List.mem_singleton.mp hk
          -- the new call is the last label
          exact ⟨calls, List.mem_append_right _ (List.mem_singleton_self _)⟩
      · exact hbefore t (by rwa [Config.set_threads_of_ne c hj] at ht) hk
    | @stop j task calls _ =>
      by_cases hj : i = j
      · subst hj
        simp at ht
      · exact hbefore t (by rwa [Config.set_threads_of_ne c hj] at ht) hk
    | idle _ => exact hbefore t ht hk

/-- How a thread came to be what it is after a step: it was so before, it started, or it made a
call. -/
theorem Step.thread_cases (h : Step S c label c') {j : ℕ} {t : Thread I T}
    (ht : c'.threads j = some t) :
    (c.threads j = some t ∧ ∀ task, label ≠ .start j task ∧ ∀ calls k,
      label ≠ .call j task calls k) ∨ (label = .start j t.task ∧ t.calls = [] ∧
        S.start j t.task c.shared c'.shared) ∨ ∃ before k rest, label = .call j t.task before k ∧
          t.calls = before ++ [k] ∧ c.threads j = some ⟨t.task, before, rest⟩ := by
  -- a thread stays, has just started, or has just called
  cases h with
  | @start i task s _ hstart =>
    by_cases hj : j = i
    · subst hj
      obtain rfl : _ = t := by simpa using ht
      exact .inr (.inl ⟨rfl, rfl, hstart⟩)
    · rw [Config.set_threads_of_ne c hj] at ht
      exact .inl ⟨ht, fun task => ⟨fun heq => hj (Label.start.inj heq).1.symm, fun _ _ => nofun⟩⟩
  | @call i task calls op next r s hthread _ =>
    by_cases hj : j = i
    · subst hj
      obtain rfl : _ = t := by simpa using ht
      exact .inr (.inr ⟨calls, _, _, rfl, rfl, hthread⟩)
    · rw [Config.set_threads_of_ne c hj] at ht
      exact .inl ⟨ht, fun task => ⟨nofun, fun _ _ heq => hj (Label.call.inj heq).1.symm⟩⟩
  | @stop i task calls _ =>
    by_cases hj : j = i
    · subst hj
      simp at ht
    · rw [Config.set_threads_of_ne c hj] at ht
      exact .inl ⟨ht, fun task => ⟨nofun, fun _ _ => nofun⟩⟩
  | idle _ => exact .inl ⟨ht, fun task => ⟨nofun, fun _ _ => nofun⟩⟩

/-- A thread that is about to make a call still is, or made it. -/
theorem waits_of_run {i : ℕ} {task : T} {calls : List (Call I)} {op : I.Op}
    {next : I.Reply op → Program I Unit} (hthread : c.threads i = some ⟨task, calls, .call op next⟩)
    {evs : List (Transition.Event (Config I T σ) (Label I T))}
    (h : Transition.Run (Transition.Observed (Step S)) c evs c') :
    c'.threads i = some ⟨task, calls, .call op next⟩ ∨
      ∃ before e after r, evs = before ++ e :: after ∧ e.label = .call i task calls ⟨op, r⟩ := by
  induction h with
  | nil => exact .inl hthread
  | @snoc evs c₁ c₂ e _ hstep ih =>
    rcases ih with hwaits | ⟨before, made, after, r, rfl, hmade⟩
    swap
    · exact .inr ⟨before, made, after ++ [e], r, by simp, hmade⟩
    obtain ⟨-, -, hstep⟩ := hstep
    generalize hlabel : e.label = label at hstep
    -- a step of another thread leaves this one waiting
    have hother : ∀ {j : ℕ} {t : Option (Thread I T)} {s : σ}, j ≠ i →
        (c₁.set j t s).threads i = some ⟨task, calls, .call op next⟩ := fun hj => by
      rw [Config.set_threads_of_ne c₁ hj.symm, hwaits]
    cases hstep with
    | @start j task' s hnone _ =>
      refine .inl (hother ?_)
      rintro rfl
      rw [hwaits] at hnone
      exact nomatch hnone
    | @call j task' calls' op' next' r s hthread' _ =>
      by_cases hj : j = i
      · -- the thread makes its call
        subst hj
        rw [hwaits] at hthread'
        obtain ⟨rfl, rfl, hcall⟩ := Thread.mk.inj (Option.some_inj.mp hthread')
        obtain ⟨rfl, -⟩ := Program.call.inj hcall
        exact .inr ⟨evs, e, [], r, rfl, hlabel⟩
      · exact .inl (hother hj)
    | @stop j task' calls' hthread' =>
      refine .inl (hother ?_)
      rintro rfl
      rw [hwaits] at hthread'
      exact nomatch (Thread.mk.inj (Option.some_inj.mp hthread')).2.2
    | idle _ => exact .inl hwaits

/-- Every call of a task is one its program ensures, given the replies the task got before. -/
theorem Step.guaranteed {i : ℕ} {task : T} {calls : List (Call I)} {k : Call I} {guar : I.Op → Prop}
    {post : Unit → Prop} (h : Step S c (.call i task calls k) c') (hc : Unfolded S c)
    (hp : (S.program task).Ensures (Answered calls) guar post) : guar k.op := by
  cases h with
  | call hthread _ => exact ((hc i _ hthread).ensures hp fun _ hk => hk).1

/-- What happens when a task that made the calls `before` makes these and stops. -/
def finishing (i : ℕ) (task : T) : List (Call I) → List (Call I) → List (Label I T)
  | _, [] => [.stop i task]
  | before, k :: rest => .call i task before k :: finishing i task (before ++ [k]) rest

/-- The calls among the labels of a thread that runs to its end are the calls it makes. -/
theorem mem_finishing {i j : ℕ} {task task' : T} {before before' calls : List (Call I)} {k : Call I}
    (h : .call j task' before' k ∈ finishing i task before calls) : k ∈ calls := by
  induction calls generalizing before with
  | nil => simp [finishing] at h
  | cons k' rest ih =>
    rcases List.mem_cons.mp h with hk | h
    · cases hk
      exact List.mem_cons_self
    · exact List.mem_cons_of_mem _ (ih h)

/-- What is left of a task can run to its end without interruption. -/
theorem Run.finish {i : ℕ} (task : T) {p : Program I Unit} {s u : σ} {calls : List (Call I)}
    (hexec : Program.Executes (S.env i) p s calls () u) (before : List (Call I))
    (threads : ℕ → Option (Thread I T)) (hthread : threads i = some ⟨task, before, p⟩) :
    Transition.Run (Step S) ⟨threads, s⟩ (finishing i task before calls)
      ⟨Function.update threads i none, u⟩ := by
  generalize hunit : () = result at hexec
  induction hexec generalizing before threads with
  | @done a s => exact .single (Step.stop hthread)
  | @call op next r s t u calls a hreply _ ih =>
    have hrun := ih (before ++ [⟨op, r⟩])
      (Function.update threads i (some ⟨task, before ++ [⟨op, r⟩], next r⟩)) (by simp) hunit
    rw [Function.update_idem] at hrun
    exact .cons (Step.call hthread hreply) hrun

/-- The calls of a task that made the calls `before`. -/
def calling (i : ℕ) (task : T) : List (Call I) → List (Call I) → List (Label I T)
  | _, [] => []
  | before, k :: rest => .call i task before k :: calling i task (before ++ [k]) rest

/-- A task can make some of its calls without interruption. -/
theorem Run.upTo {i : ℕ} (task : T) {h : Handler I σ}
    (henv : ∀ s k t, Program.Handled h s k t → S.env i s k t) (n : ℕ) (p : Program I Unit) (s : σ)
    (before : List (Call I)) (threads : ℕ → Option (Thread I T))
    (hthread : threads i = some ⟨task, before, p⟩) :
    Transition.Run (Step S) ⟨threads, s⟩ (calling i task before (p.upTo h n s).2.1)
      ⟨Function.update threads i (some ⟨task, before ++ (p.upTo h n s).2.1, (p.upTo h n s).1⟩),
        (p.upTo h n s).2.2⟩ := by
  induction n generalizing p s before threads with
  | zero =>
    simp only [Program.upTo, calling, List.append_nil, ← hthread, Function.update_eq_self]
    exact .nil
  | succ n ih =>
    cases p with
    | done a =>
      simp only [Program.upTo, calling, List.append_nil, ← hthread, Function.update_eq_self]
      exact .nil
    -- the first call is one step of the pool, and the rest runs from the state after it
    | call op next =>
      have hrun := ih (next (h op s).1) (h op s).2 (before ++ [⟨op, (h op s).1⟩])
        (Function.update threads i (some ⟨task, before ++ [⟨op, (h op s).1⟩], next (h op s).1⟩))
          (by simp)
      rw [Function.update_idem, List.append_assoc] at hrun
      exact .cons (Step.call hthread (henv _ _ _ (Program.handled h op s))) hrun

/-- A task that runs alone is a run of the pool. -/
theorem run_of_executes (i : ℕ) (task : T) {s t u : σ} {calls : List (Call I)}
    (hstart : S.start i task s t)
    (hexec : Program.Executes (S.env i) (S.program task) t calls () u) : Transition.Run (Step S)
    (.empty s) (.start i task :: finishing i task [] calls) (.empty u) := by
  have hrun := Run.finish task hexec []
    (Function.update (fun _ => none) i (some ⟨task, [], S.program task⟩)) (by simp)
  refine .cons (Step.start rfl hstart) ?_
  simpa [Config.empty, Config.set] using hrun

end Pool
