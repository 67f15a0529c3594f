import AlmenaMediator.Library.Turns
import AlmenaMediator.Store.Estates

/-!
# Push pacing

A successful `claim_push` takes the mediation's turn to be woken, a pickup cuts it, and the cleanup
drops it with the mediation. A `PushStore` keeps what it takes to tell whether the last turn has
lapsed; both stores are one.

## Main results

* `PushStore.not_held_of_claimed`: a claim succeeds only when the last turn has lapsed;
* `Inner.claim_iff`: in memory, with up-to-date clock readings, it succeeds exactly then.
-/

namespace Store

open Turns

/-- What a call does to the turns of `m`. -/
def turnEvent (m : String) : Call StoreCall → Option Turns.Event
  | ⟨.claimPush m' now hold, .ok true⟩ => if m' = m then some (.taken now hold) else none
  | ⟨.releasePush m' _ minInterval, .ok _⟩ => if m' = m then some (.cut minInterval) else none
  | ⟨.removeIdleMediations _ _, .ok removed⟩ => if m ∈ removed then some .dropped else none
  | _ => none

/-- What calls, between which time may pass, do to the turns of `m`. -/
def turnEvents (m : String) (labels : List (Option (Call StoreCall))) : List Turns.Event :=
  labels.filterMap fun label => label.bind (turnEvent m)

/-- The turn events of a run that is one step longer are those of the run and that of the step. -/
@[simp] theorem turnEvents_snoc (m : String) (labels : List (Option (Call StoreCall)))
    (label : Option (Call StoreCall)) :
    turnEvents m (labels ++ [label]) = turnEvents m labels ++
      (label.bind (turnEvent m)).toList := by
  cases h : label.bind (turnEvent m) <;> simp [turnEvents, h]

/-- The last turn after one more call. -/
def afterCall (m : String) (turn : Option Turn) (c : Call StoreCall) : Option Turn :=
  (turnEvent m c).elim turn (after turn)

section AfterCall

variable {m : String} {turn : Option Turn} {now : ℕ}

/-- A granted claim opens a turn that lasts for the hold. -/
@[simp] theorem afterCall_claimed {hold : ℕ} :
    afterCall m turn ⟨.claimPush m now hold, .ok true⟩ = some ⟨now, now + hold⟩ := by
  simp [afterCall, turnEvent, after]

/-- A refused claim leaves the turn as it was. -/
@[simp] theorem afterCall_refused {m' : String} {hold : ℕ} :
    afterCall m turn ⟨.claimPush m' now hold, .ok false⟩ = turn := by
  simp [afterCall, turnEvent]

/-- A release cuts the turn down to the least interval. -/
@[simp] theorem afterCall_released {minInterval : ℕ} :
    afterCall m turn ⟨.releasePush m now minInterval, .ok ()⟩ = turn.map fun last =>
      last.cut minInterval := by
  simp [afterCall, turnEvent, after]

/-- Removing the mediation of a turn ends the turn; removing others leaves it. -/
@[simp] theorem afterCall_removed {cutoff limit : ℕ} {removed : List String} :
    afterCall m turn ⟨.removeIdleMediations cutoff limit, .ok removed⟩ =
      if m ∈ removed then none else turn := by
  by_cases hm : m ∈ removed <;> simp [afterCall, turnEvent, after, hm]

end AfterCall

/-- The turn after one more call is what the call makes of the turn before it. -/
theorem current_snoc_call (m : String) (labels : List (Option (Call StoreCall)))
    (c : Call StoreCall) :
    current (turnEvents m (labels ++ [some c])) =
      afterCall m (current (turnEvents m labels)) c := by
  have hbind : (some c).bind (turnEvent m) = turnEvent m c := rfl
  rw [turnEvents_snoc, hbind, afterCall]
  cases turnEvent m c <;> simp

/-- A turn is taken by a claim that succeeds. -/
theorem turnEvent_eq_taken {m : String} {c : Call StoreCall} {now hold : ℕ}
    (h : turnEvent m c = some (.taken now hold)) : c = ⟨.claimPush m now hold, .ok true⟩ := by
  unfold turnEvent at h
  split at h
  · rename_i m' now' hold'
    obtain ⟨rfl, he⟩ := Option.ite_none_right_eq_some.mp h
    obtain ⟨rfl, rfl⟩ := Turns.Event.taken.inj (Option.some_inj.mp he)
    rfl
  · cases (Option.ite_none_right_eq_some.mp h).2
  · cases (Option.ite_none_right_eq_some.mp h).2
  · cases h

/-- A turn is cut by a pickup. -/
theorem turnEvent_eq_cut {m : String} {c : Call StoreCall} {least : ℕ}
    (h : turnEvent m c = some (.cut least)) : ∃ now, c = ⟨.releasePush m now least, .ok ()⟩ := by
  unfold turnEvent at h
  split at h
  · cases (Option.ite_none_right_eq_some.mp h).2
  · rename_i m' now minInterval answer
    obtain ⟨rfl, he⟩ := Option.ite_none_right_eq_some.mp h
    obtain rfl := Turns.Event.cut.inj (Option.some_inj.mp he)
    exact ⟨now, rfl⟩
  · cases (Option.ite_none_right_eq_some.mp h).2
  · cases h

/-- A call that may not write the push marker does nothing to turns. -/
theorem turnEvent_eq_none {m : String} {c : Call StoreCall} (h : ¬ c.op.Writes .pushMarker m) :
    turnEvent m c = none := by
  obtain ⟨op, reply⟩ := c
  cases op with
  | claimPush m' now hold =>
    have hne : m' ≠ m := fun hm => h ⟨hm, rfl⟩
    rcases reply with error | _ | _ <;> simp [turnEvent, hne]
  | releasePush m' now minInterval =>
    have hne : m' ≠ m := fun hm => h ⟨hm, rfl⟩
    cases reply <;> simp [turnEvent, hne]
  | removeIdleMediations cutoff limit => exact absurd trivial h
  | _ => rfl

/-- The clock reading of a push method is one of these. -/
def Op.Reads (readings : ℕ → Prop) : Op → Prop
  | .claimPush _ now _ | .releasePush _ now _ => readings now
  | _ => True

/-- Clock readings that meet a condition meet a weaker one. -/
theorem Op.Reads.imp {readings readings' : ℕ → Prop} {op : Op} (h : op.Reads readings)
    (himp : ∀ now, readings now → readings' now) : op.Reads readings' := by
  cases op with
  | claimPush m now hold => exact himp now h
  | releasePush m now minInterval => exact himp now h
  | _ => exact h

/-- A store of turns, with the clock of its callers in seconds. -/
structure PushStore (σ : Type) where
  env : Program.Environment StoreCall σ
  clock : σ → ℕ
  /-- Time passes. -/
  later : σ → σ → Prop
  /-- What is kept of the last turn. -/
  HasTurn : String → Option Turn → σ → Prop
  clock_call : ∀ {s t c}, env s c t → clock t = clock s
  clock_later : ∀ {s t}, later s t → clock s ≤ clock t
  hasTurn_call : ∀ {s t c m turn}, HasTurn m turn s → env s c t → c.op.Reads (· ≤ clock s) →
    HasTurn m (afterCall m turn c) t
  hasTurn_later : ∀ {s t m turn}, HasTurn m turn s → later s t → HasTurn m turn t
  /-- A claim succeeds when the last turn has lapsed. -/
  lapsed : ∀ {s t m now hold turn}, HasTurn m turn s →
    env s ⟨.claimPush m now hold, .ok true⟩ t → now ≤ clock s → ∀ last ∈ turn, last.until_ ≤ clock s

namespace PushStore

variable {σ : Type} (S : PushStore σ)

/-- A call whose clock reading is as told, or time passing. -/
inductive Step (reads : ℕ → ℕ → Prop) : σ → Option (Call StoreCall) → σ → Prop
  | call {s t : σ} {c : Call StoreCall} : c.op.Reads (reads (S.clock s)) → S.env s c t →
      Step reads s (some c) t
  | later {s t : σ} : S.later s t → Step reads s none t

variable {S} {s₀ s t : σ} {m : String} {labels : List (Option (Call StoreCall))}

/-- A step that reads its clock in one way reads it in every weaker way too. -/
theorem Step.imp {reads reads' : ℕ → ℕ → Prop} {label : Option (Call StoreCall)}
    (h : S.Step reads s label t) (himp : ∀ clock now, reads clock now → reads' clock now) :
    S.Step reads' s label t := by
  cases h with
  | call htimely hstep => exact .call (htimely.imp (himp _)) hstep
  | later hlater => exact .later hlater

/-- The store keeps up with the turns of a run. -/
theorem hasTurn_of_run {reads : ℕ → ℕ → Prop} (hreads : ∀ clock now, reads clock now → now ≤ clock)
    (hrun : Transition.Run (S.Step reads) s₀ labels s) (h : S.HasTurn m none s₀) :
    S.HasTurn m (current (turnEvents m labels)) s := by
  induction hrun with
  | nil => exact h
  | snoc _ hstep ih =>
    cases hstep with
    | call htimely hcall =>
      rw [current_snoc_call]
      exact S.hasTurn_call ih hcall (htimely.imp (hreads _))
    | later hlater =>
      rw [turnEvents_snoc, Option.bind_none, Option.toList_none, List.append_nil]
      exact S.hasTurn_later ih hlater

/-- A claim succeeds only when the last turn has lapsed. -/
theorem not_held_of_claimed (hrun : Transition.Run (S.Step fun clock now =>
    now ≤ clock) s₀ labels s) (h : S.HasTurn m none s₀) {now hold : ℕ} (hnow : now ≤ S.clock s)
    (hclaimed : S.env s ⟨.claimPush m now hold, .ok true⟩ t) :
    ¬ Held (S.clock s) (turnEvents m labels) := by
  intro hheld
  obtain ⟨last, hlast, huntil⟩ := held_iff.mp hheld
  have hturn := hasTurn_of_run (fun _ _ h => h) hrun h
  exact absurd (S.lapsed hturn hclaimed hnow last hlast) (Nat.not_le.mpr huntil)

end PushStore

/-! ## The in-process store -/

namespace Inner

/-- What the marker keeps of a turn. -/
def marker (turn : Turn) : ℕ × ℕ := (turn.sent, turn.until_)

/-- The marker is that of the last turn, or it is gone and the turn has lapsed. -/
def HasTurn (m : String) (turn : Option Turn) (s : Inner × ℕ) : Prop :=
  s.1.pushSent m = turn.map marker ∨ (s.1.pushSent m = none ∧ ∀ last ∈ turn, last.until_ ≤ s.2)

variable {s t : Inner} {m : String} {turn : Option Turn} {clock : ℕ} {c : Call StoreCall}

/-- Removing other mediations leaves the push marker of a mediation as it was. -/
theorem foldl_removeMediation_pushSent (removed : List String) (s : Inner) (hm : m ∉ removed) :
    (removed.foldl removeMediation s).pushSent m = s.pushSent m := by
  induction removed generalizing s with
  | nil => rfl
  | cons first rest ih =>
    rw [List.mem_cons, not_or] at hm
    rw [List.foldl_cons, ih _ hm.2]
    exact Function.update_of_ne hm.1 _ _

/-- Releasing the turn shortens the push marker to the least interval, and drops it where that is
over. -/
theorem releasePush_pushSent (s : Inner) (m : String) (now minInterval : ℕ) :
    (s.releasePush m now minInterval).pushSent m = (s.pushSent m).bind fun p =>
      if min p.2 (p.1 + minInterval) ≤ now then none else some (p.1,
        min p.2 (p.1 + minInterval)) := by
  unfold releasePush
  split
  · rename_i sent until_ hmarker
    rw [hmarker]
    simp
  · rename_i hnone
    rw [hnone]
    rfl

/-- A call of the in-process store that reads the clock no later than it is keeps the marker and the
turn in step. -/
theorem hasTurn_call (h : HasTurn m turn (s, clock)) (hstep : MemoryStep s c t)
    (htimely : c.op.Reads (· ≤ clock)) : HasTurn m (afterCall m turn c) (t, clock) := by
  by_cases hwrites : c.op.Writes .pushMarker m
  -- a call that does not write the marker is no event of the turns
  swap
  · have hsame : t.pushSent m = s.pushSent m := hstep.same hwrites
    rw [afterCall, turnEvent_eq_none hwrites]
    show t.pushSent m = turn.map marker ∨ _
    rwa [hsame]
  obtain ⟨order, -, hstep⟩ := hstep
  obtain ⟨op, reply⟩ := c
  obtain ⟨rfl, rfl⟩ := hstep.eq
  cases op with
  | removeIdleMediations cutoff limit =>
    dsimp only [memory]
    rw [afterCall_removed]
    split
    · rename_i hm
      -- the mediation is removed, and its marker with it
      have hgone : ¬ (s.removeIdleMediations order cutoff limit).2.Has .pushMarker m :=
        foldl_removeMediation_lacks _ s (.inl hm)
      exact .inl (not_not.mp hgone)
    · rename_i hm
      have hsame : (s.removeIdleMediations order cutoff limit).2.pushSent m = s.pushSent m :=
        foldl_removeMediation_pushSent _ s hm
      show (s.removeIdleMediations order cutoff limit).2.pushSent m = turn.map marker ∨ _
      rwa [hsame]
  | claimPush m' now hold =>
    obtain ⟨rfl, -⟩ := hwrites
    dsimp only [memory, claimPush]
    split
    · rwa [afterCall_refused]
    · rw [afterCall_claimed]
      exact .inl (Function.update_self ..)
  | releasePush m' now minInterval =>
    obtain ⟨rfl, -⟩ := hwrites
    have hnow : now ≤ clock := htimely
    dsimp only [memory]
    rw [afterCall_released]
    show (s.releasePush m' now minInterval).pushSent m' = _ ∨
      (s.releasePush m' now minInterval).pushSent m' = none ∧ _
    rw [releasePush_pushSent]
    rcases h with hmarker | ⟨hnone, hlapsed⟩
    · replace hmarker : s.pushSent m' = turn.map marker := hmarker
      rw [hmarker]
      cases turn with
      | none => exact .inl rfl
      | some last =>
        show (if min last.until_ (last.sent + minInterval) ≤ now then none else _) = _ ∨ _
        split
        · -- the pickup ends the turn at once
          rename_i hover
          right
          refine ⟨if_pos hover, fun last' hlast' => ?_⟩
          obtain rfl : last.cut minInterval = last' := Option.some_inj.mp hlast'
          exact hover.trans hnow
        · exact .inl rfl
    -- the marker has lapsed, and a shorter turn has lapsed too
    · replace hnone : s.pushSent m' = none := hnone
      rw [hnone]
      refine .inr ⟨rfl, fun last' hlast' => ?_⟩
      obtain ⟨last, hlast, rfl⟩ := Option.mem_map.mp hlast'
      exact (last.cut_until_le minInterval).trans (hlapsed last hlast)
  | grantMediation | touchMediation | addRecipient | removeRecipient | enqueue | summary | peek
  | remove | setDevice | removeDevice =>
    simp [Op.Writes] at hwrites
  | _ => exact hwrites.elim

/-- What a claim answers. -/
theorem claimed_eq {now hold : ℕ} {claimed : Bool}
    (hstep : MemoryStep s ⟨.claimPush m now hold, .ok claimed⟩ t) :
    claimed = !(s.pushSent m).any fun p => now < p.2 := by
  obtain ⟨order, -, hstep⟩ := hstep
  obtain ⟨hreply, -⟩ := hstep.eq
  have hclaimed : claimed = (s.claimPush m now hold).1 := Except.ok.inj hreply
  rw [hclaimed, claimPush]
  split <;> simp_all

/-- `MemoryStore`, with a clock beside it. -/
def pushStore : PushStore (Inner × ℕ) where
  env s c t := MemoryStep s.1 c t.1 ∧ t.2 = s.2
  clock := Prod.snd
  later s t := t.1 = s.1 ∧ s.2 ≤ t.2
  HasTurn := HasTurn
  clock_call h := h.2
  clock_later h := h.2
  hasTurn_call := by
    rintro ⟨s, clock⟩ ⟨t, clock'⟩ c m turn h ⟨hstep, heq⟩ htimely
    obtain rfl : clock' = clock := heq
    exact hasTurn_call h hstep htimely
  hasTurn_later := by
    rintro ⟨s, clock⟩ ⟨t, clock'⟩ m turn h ⟨heq, hle⟩
    obtain rfl : t = s := heq
    exact h.imp id fun h => ⟨h.1, fun last hlast => (h.2 last hlast).trans hle⟩
  lapsed := by
    rintro s t m now hold turn h ⟨hstep, -⟩ hnow last hlast
    obtain rfl : turn = some last := hlast
    rcases h with hmarker | ⟨-, hlapsed⟩
    · have hfree := claimed_eq hstep
      rw [hmarker] at hfree
      have huntil : last.until_ ≤ now := by simpa [marker] using hfree
      exact huntil.trans hnow
    · exact hlapsed last rfl

/-- A claim is refused only when the last turn has not lapsed. -/
theorem held_of_refused {reads : ℕ → ℕ → Prop} (hreads : ∀ clock now, reads clock now → now ≤ clock)
    {labels : List (Option (Call StoreCall))} {s t : Inner × ℕ}
    (hrun : Transition.Run (pushStore.Step reads) (empty, clock) labels s) {now hold : ℕ}
    (hrefused : MemoryStep s.1 ⟨.claimPush m now hold, .ok false⟩ t.1) :
    Held now (turnEvents m labels) := by
  have hturn : HasTurn m (current (turnEvents m labels)) s :=
    PushStore.hasTurn_of_run hreads hrun (.inl rfl)
  have hmarked := claimed_eq hrefused
  rcases hturn with hmarker | ⟨hnone, -⟩
  · rw [hmarker] at hmarked
    cases hlast : current (turnEvents m labels) with
    | none => simp [hlast] at hmarked
    | some last =>
      refine held_iff.mpr ⟨last, hlast, ?_⟩
      simpa [hlast, marker] using hmarked
  · simp [hnone] at hmarked

/-- With clock readings up to date, a claim is refused exactly when the last turn has not lapsed. -/
theorem claim_refused_iff {labels : List (Option (Call StoreCall))} {s : Inner × ℕ} {t : Inner}
    (hrun : Transition.Run (pushStore.Step fun clock now => now = clock) (empty, clock) labels s)
    {hold : ℕ} {claimed : Bool} (hclaim : MemoryStep s.1 ⟨.claimPush m s.2 hold, .ok claimed⟩ t) :
    claimed = false ↔ Held s.2 (turnEvents m labels) := by
  constructor
  · rintro rfl
    exact held_of_refused (fun _ _ h => h.le) hrun (t := (t, s.2)) hclaim
  · intro hheld
    cases claimed with
    | false => rfl
    | true =>
      have hrun' : Transition.Run (pushStore.Step fun clock now =>
        now ≤ clock) (empty, clock) labels s := by
        simpa using hrun.mono fun _ _ _ hstep => hstep.imp fun _ _ h => h.le
      exact absurd hheld (PushStore.not_held_of_claimed hrun' (.inl rfl) le_rfl
        (t := (t, s.2)) ⟨hclaim, rfl⟩)

/-- A push at 0 for a minute, and at 10 a pickup, with pushes at least half a minute apart. -/
def pickedUp : List (Option (Call StoreCall)) :=
  [some ⟨.claimPush "m" 0 60, .ok true⟩, none, some ⟨.releasePush "m" 10 30, .ok ()⟩]

/-- In the example the claim at 10 is granted, and no turn is held then. -/
theorem claim_refused_iff_pickedUp : false = false ↔ Held 10 (turnEvents "m" pickedUp) := by
  have hclaimed : MemoryStep empty ⟨.claimPush "m" 0 60, .ok true⟩
      { empty with pushSent := Function.update empty.pushSent "m" (some (0, 60)) } :=
        ⟨[], .refl _, rfl⟩
  have hcut : MemoryStep
      { empty with pushSent := Function.update empty.pushSent "m" (some (0, 60)) }
      ⟨.releasePush "m" 10 30, .ok ()⟩
      { empty with
        pushSent := Function.update (Function.update empty.pushSent "m" (some (0, 60))) "m"
          (some (0, 30)) } :=
    ⟨[], .refl _, rfl⟩
  have hrun : Transition.Run (pushStore.Step fun clock now => now = clock) (empty, 0) pickedUp _ :=
    .cons (.call (t := (_, 0)) rfl ⟨hclaimed, rfl⟩)
      (.cons (.later (t := (_, 10)) ⟨rfl, by decide⟩)
        (.single (.call (t := (_, 10)) rfl ⟨hcut, rfl⟩)))
  exact @claim_refused_iff "m" 0 pickedUp _ _ hrun 60 false ⟨[], .refl _, rfl⟩

end Inner

end Store
