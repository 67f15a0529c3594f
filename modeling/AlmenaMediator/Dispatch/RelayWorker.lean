import AlmenaMediator.Dispatch.Receive
import AlmenaMediator.Library.Pool
import AlmenaMediator.Store.Relays

/-!
# Rounds of relay workers and deliveries

A worker's round reads the clock, leases what is due and tries one relay after another; a delivery
tries a payload and stores it for the workers if that fails. `Round` and `Delivery` say where one
is, read off the calls it made; what is left of its program follows from that.
-/

namespace Dispatch

open Didcomm (Primitives)
open Store (PendingRelay)

/-- Where a round of a worker is. -/
inductive Round
  | begun
  /-- It has read the clock. -/
  | read (now : ℕ)
  /-- It has these of its relays left to try, and is posting the first. -/
  | trying (now : ℕ) (relays : List PendingRelay)
  /-- It has tried a relay and not settled it yet; the others are left. -/
  | tried (now : ℕ) (relay : PendingRelay) (posted : Except String Unit)
      (relays : List PendingRelay)
  | ended

namespace Round

/-- Where a round is after one more call. -/
def next : Round → Call Surroundings → Round
  | begun, ⟨.now, now⟩ => read now
  | read now, ⟨.store (.dueRelays _ _ _), .ok relays⟩ => trying now relays
  | trying now (relay :: relays), ⟨.post _ _, posted⟩ => tried now relay posted relays
  | tried now _ _ relays, ⟨.store _, .ok _⟩ => trying now relays
  | _, _ => ended

/-- What is left of a round. -/
def program : Round → Task Unit
  | begun => do
    let now : ℕ ← call .now
    void (retryDue now).run
  | read now => void (retryDue now).run
  | trying now relays => void (retryEach now relays).run
  | tried now relay posted relays => void (do
      settle now relay posted
      retryEach now relays : StoreTask Unit).run
  | ended => return ()

/-- The store call that settles a relay. -/
def settleOp (now : ℕ) (relay : PendingRelay) : Except String Unit → Store.Op
  | .ok _ => .finishRelay relay.id
  | .error _ =>
    match backoff[relay.retries + 1]? with
    | some wait =>
      .scheduleRelay { relay with retries := relay.retries + 1 } (now + wait) maxPending
    | none => .finishRelay relay.id

/-- The next call of a round. -/
def call? : Round → Option Effect
  | begun => some .now
  | read now => some (.store (.dueRelays now leaseSecs batch))
  | trying _ (relay :: _) => some (.post relay.uri relay.message)
  | tried now relay posted _ => some (.store (settleOp now relay posted))
  | _ => none

/-- The relays a round has leased and not settled. -/
def held : Round → List PendingRelay
  | trying _ relays => relays
  | tried _ relay _ relays => relay :: relays
  | _ => []

/-- The relay a round is trying: from the start of its POST until it is settled. -/
def relay? (round : Round) : Option PendingRelay := round.held.head?

/-- When the leases of a round end. -/
def leaseEnd : Round → ℕ
  | trying now _ | tried now _ _ _ => now + leaseSecs
  | _ => 0

/-- The next call of a round, and what is left after it. -/
theorem program_next {r : Round} {op : Effect} {rest : Surroundings.Reply op → Task Unit}
    (h : r.program = .call op rest) (reply : Surroundings.Reply op) :
    r.call? = some op ∧ rest reply = (r.next ⟨op, reply⟩).program := by
  -- the program of a round is its next call, and what follows the answer is the next round
  cases r with
  | begun =>
    cases h
    exact ⟨rfl, rfl⟩
  | read now =>
    cases h
    cases reply <;> exact ⟨rfl, rfl⟩
  | trying now relays =>
    cases relays with
    | nil => cases h
    | cons relay relays =>
      cases h
      exact ⟨rfl, rfl⟩
  | tried now relay posted relays =>
    cases posted with
    | ok =>
      cases h
      cases reply <;> exact ⟨rfl, rfl⟩
    | error e =>
      -- the last retry drops the relay, an earlier one puts it back
      cases hwait : backoff[relay.retries + 1]? with
      | none =>
        simp only [program, settle, hwait] at h
        cases h
        cases reply <;> exact ⟨by simp only [call?, settleOp, hwait], rfl⟩
      | some wait =>
        simp only [program, settle, hwait] at h
        cases h
        cases reply <;> exact ⟨by simp only [call?, settleOp, hwait], rfl⟩
  | ended => cases h

/-- A round makes its next call. -/
theorem program_call {r : Round} {op : Effect} (h : r.call? = some op) :
    ∃ rest, r.program = .call op rest := by
  cases r with
  | begun | read =>
    cases h
    exact ⟨_, rfl⟩
  | trying now relays =>
    cases relays with
    | nil => cases h
    | cons relay relays =>
      cases h
      exact ⟨_, rfl⟩
  | tried now relay posted relays =>
    cases posted with
    | ok =>
      cases h
      exact ⟨_, rfl⟩
    | error e =>
      cases hwait : backoff[relay.retries + 1]? with
      | none =>
        simp only [call?, settleOp, hwait] at h
        cases h
        simp only [program, settle, hwait]
        exact ⟨_, rfl⟩
      | some wait =>
        simp only [call?, settleOp, hwait] at h
        cases h
        simp only [program, settle, hwait]
        exact ⟨_, rfl⟩
  | ended => cases h

/-- A round holds nothing at its end. -/
theorem held_of_done {r : Round} (h : r.program = .done ()) : r.held = [] := by
  -- a round ends with nothing left to try
  cases r with
  | begun | read => cases h
  | trying now relays =>
    cases relays with
    | nil => rfl
    | cons => cases h
  | tried now relay posted relays =>
    cases posted with
    | ok => cases h
    | error e =>
      cases hwait : backoff[relay.retries + 1]? with
      | none =>
        simp only [program, settle, hwait] at h
        cases h
      | some wait =>
        simp only [program, settle, hwait] at h
        cases h
  | ended => rfl

end Round

/-- Where a round is after the calls it made, oldest first. -/
def round (calls : List (Call Surroundings)) : Round := calls.foldl Round.next .begun

/-- The round after one more call is what the call makes of it. -/
@[simp] theorem round_append (calls : List (Call Surroundings)) (c : Call Surroundings) :
    round (calls ++ [c]) = (round calls).next c := by
  simp [round]

/-- The round of each thread of a pool, if these are workers. -/
def roundOf {σ : Type} (c : Pool.Config Surroundings Job σ) (i : ℕ) : Round :=
  ((c.threads i).map fun t => round t.calls).getD .ended

/-- Setting a thread sets its round and no other. -/
theorem roundOf_set {σ : Type} (c : Pool.Config Surroundings Job σ) (i : ℕ)
    (t : Option (Pool.Thread Surroundings Job)) (s : σ) :
    roundOf (c.set i t s) =
      Function.update (roundOf c) i ((t.map fun t => round t.calls).getD .ended) := by
  funext j
  by_cases hj : j = i
  · subst hj
    simp [roundOf]
  · simp [roundOf, hj, Pool.Config.set_threads_of_ne c hj]

/-- A worker of a pool makes the next call of its round. -/
theorem round_step {σ : Type} {S : Pool.System Surroundings Job σ}
    {c : Pool.Config Surroundings Job σ} {i : ℕ} {before : List (Call Surroundings)} {r : Round}
    {op : Effect} {answer : Surroundings.Reply op} {s : σ}
    (hthread : c.threads i = some ⟨.retry, before, r.program⟩) (hcall : r.call? = some op)
    (henv : S.env i c.shared ⟨op, answer⟩ s) :
    Pool.Step S c (.call i .retry before ⟨op, answer⟩)
      (c.set i (some ⟨.retry, before ++ [⟨op, answer⟩], (r.next ⟨op, answer⟩).program⟩) s) := by
  obtain ⟨rest, hrest⟩ := Round.program_call hcall
  rw [hrest] at hthread
  rw [← (Round.program_next hrest answer).2]
  exact .call hthread henv

/-- Where a delivery is. -/
inductive Delivery
  | posting
  /-- The POST failed. -/
  | failed
  /-- It has read the clock, and is to store the relay. -/
  | read (now : ℕ)
  | ended

namespace Delivery

/-- Where a delivery is after one more call. -/
def next : Delivery → Call Surroundings → Delivery
  | posting, ⟨.post _ _, .error _⟩ => failed
  | failed, ⟨.now, now⟩ => read now
  | _, _ => ended

variable (prim : Primitives) (uri message : String)

/-- The next call of a delivery. -/
def call? : Delivery → Option Effect
  | posting => some (.post uri message)
  | failed => some .now
  | read now =>
    some (.store (.scheduleRelay (newRelay prim uri message) (now + backoff.headD 0) maxPending))
  | ended => none

/-- What is left of a delivery. -/
def program : Delivery → Task Unit
  | posting => deliver prim uri message
  | failed => do
    let now : ℕ ← call .now
    let _ ← (store (.scheduleRelay (newRelay prim uri message)
      (now + backoff.headD 0) maxPending)).run
    return ()
  | read now => do
    let _ ← (store (.scheduleRelay (newRelay prim uri message)
      (now + backoff.headD 0) maxPending)).run
    return ()
  | ended => return ()

variable {prim : Primitives} {uri message : String}

/-- The next call of a delivery, and what is left after it. -/
theorem program_next {d : Delivery} {op : Effect} {rest : Surroundings.Reply op → Task Unit}
    (h : d.program prim uri message = .call op rest) (reply : Surroundings.Reply op) :
    d.call? prim uri message = some op ∧
      rest reply = (d.next ⟨op, reply⟩).program prim uri message := by
  cases d with
  | posting =>
    cases h
    cases reply <;> exact ⟨rfl, rfl⟩
  | failed | read =>
    cases h
    exact ⟨rfl, rfl⟩
  | ended => cases h

end Delivery

/-- Where a delivery is after the calls it made, oldest first. -/
def delivery (calls : List (Call Surroundings)) : Delivery := calls.foldl Delivery.next .posting

/-- The delivery after one more call is what the call makes of it. -/
@[simp] theorem delivery_append (calls : List (Call Surroundings)) (c : Call Surroundings) :
    delivery (calls ++ [c]) = (delivery calls).next c := by
  simp [delivery]

/-! ## What they do to the relays -/

section Moves

open Store (Relays RelayStep)

/-- What a call does to the relays. -/
def Changes (a : Relays) (c : Call Surroundings) (a' : Relays) : Prop :=
  match c with
  | ⟨.store op, answer⟩ => RelayStep a ⟨op, answer⟩ a'
  | _ => a' = a

/-- A call leaves a store with the relays that its answer says. -/
theorem changes_of_onStore {σ : Type} {store : Store.RelayStore σ} {s t : σ} {a : Relays}
    {k : Call Surroundings} (hhas : store.Has s a) (h : onStore store.env s k t) :
    ∃ a', store.Has t a' ∧ Changes a k a' := by
  obtain ⟨op, answer⟩ := k
  cases op with
  | store op =>
    obtain ⟨a', hstep, hhas'⟩ := store.step hhas h
    exact ⟨a', hhas', hstep⟩
  | _ =>
    obtain rfl : t = s := h
    exact ⟨a, hhas, rfl⟩

/-- A call of a round: the relays and the round before and after it. -/
inductive RoundMoves (a : Relays) : Round → Call Surroundings → Relays → Round → Prop
  | now {now : ℕ} : RoundMoves a .begun ⟨.now, now⟩ a (.read now)
  | lease {now : ℕ} {relays : List PendingRelay} {a' : Relays}
      (h : Agenda.Step PendingRelay.id a (.take now (now + leaseSecs) batch relays) a') :
      RoundMoves a (.read now) ⟨.store (.dueRelays now leaseSecs batch), .ok relays⟩ a'
        (.trying now relays)
  | leaseFailed {now : ℕ} {error : Store.StoreError} :
      RoundMoves a (.read now) ⟨.store (.dueRelays now leaseSecs batch), .error error⟩ a .ended
  | post {now : ℕ} {relay : PendingRelay} {relays : List PendingRelay}
      {posted : Except String Unit} :
      RoundMoves a (.trying now (relay :: relays)) ⟨.post relay.uri relay.message, posted⟩ a
        (.tried now relay posted relays)
  /-- The relay was delivered, or this was its last attempt. -/
  | finish {now : ℕ} {relay : PendingRelay} {relays : List PendingRelay}
      {posted : Except String Unit}
      (h : posted.isOk ∨ 3 ≤ relay.retries) :
      RoundMoves a (.tried now relay posted relays) ⟨.store (.finishRelay relay.id), .ok ()⟩
        (Function.update a relay.id none) (.trying now relays)
  | again {now due : ℕ} {relay : PendingRelay} {relays : List PendingRelay} {error : String}
      {stored : Bool} {a' : Relays} (hretries : relay.retries < 3)
      (h : Agenda.Step PendingRelay.id a
        (.put { relay with retries := relay.retries + 1 } due maxPending stored) a') :
      RoundMoves a (.tried now relay (.error error) relays)
        ⟨.store (.scheduleRelay { relay with retries := relay.retries + 1 } due maxPending),
          .ok stored⟩
        a' (.trying now relays)

/-- A call of a delivery. -/
inductive DeliveryMoves (prim : Primitives) (uri message : String) (a : Relays) :
    Delivery → Call Surroundings → Relays → Delivery → Prop
  | delivered : DeliveryMoves prim uri message a .posting ⟨.post uri message, .ok ()⟩ a .ended
  | failed {error : String} :
      DeliveryMoves prim uri message a .posting ⟨.post uri message, .error error⟩ a .failed
  | now {now : ℕ} : DeliveryMoves prim uri message a .failed ⟨.now, now⟩ a (.read now)
  | stores {now : ℕ} {stored : Bool} {a' : Relays}
      (h : Agenda.Step PendingRelay.id a
        (.put (newRelay prim uri message) (now + backoff.headD 0) maxPending stored) a') :
      DeliveryMoves prim uri message a (.read now)
        ⟨.store (.scheduleRelay (newRelay prim uri message) (now + backoff.headD 0) maxPending),
          .ok stored⟩ a' .ended

variable {a a' : Relays} {op : Effect} {answer : Surroundings.Reply op}

/-- A relay is settled by storing it again with one more retry, or by finishing it. -/
theorem settleOp_cases (now : ℕ) (relay : PendingRelay) (posted : Except String Unit) :
    (Round.settleOp now relay posted = .finishRelay relay.id ∧
        (posted.isOk ∨ 3 ≤ relay.retries)) ∨
      ∃ error due, posted = .error error ∧ relay.retries < 3 ∧ Round.settleOp now relay posted =
        .scheduleRelay { relay with retries := relay.retries + 1 } due maxPending := by
  cases posted with
  | ok => exact .inl ⟨rfl, .inl rfl⟩
  | error error =>
    cases hwait : backoff[relay.retries + 1]? with
    | none =>
      have hlast : 3 ≤ relay.retries := by simpa [backoff] using hwait
      exact .inl ⟨by simp only [Round.settleOp, hwait], .inr hlast⟩
    | some wait =>
      have hretries : relay.retries + 1 < 4 := (List.getElem?_eq_some_iff.mp hwait).1
      exact .inr ⟨error, now + wait, rfl, by omega, by simp only [Round.settleOp, hwait]⟩

/-- What a round does next. -/
theorem round_moves {r : Round} (hcall : r.call? = some op) (h : Changes a ⟨op, answer⟩ a') :
    RoundMoves a r ⟨op, answer⟩ a' (r.next ⟨op, answer⟩) := by
  -- a round's call fixes which change of the agenda its answer can mean
  cases r with
  | begun =>
    cases hcall
    obtain rfl : a' = a := h
    exact .now
  | read now =>
    cases hcall
    cases h with
    | due htake => exact .lease htake
    | overLimit => exact .leaseFailed
    | other hop => exact absurd trivial hop
  | trying now relays =>
    cases relays with
    | nil => cases hcall
    | cons relay relays =>
      cases hcall
      obtain rfl : a' = a := h
      exact .post
  | tried now relay posted relays =>
    have hop : Effect.store (Round.settleOp now relay posted) = op := Option.some_inj.mp hcall
    rcases settleOp_cases now relay posted with
      ⟨hfinish, hlast⟩ | ⟨error, due, rfl, hretries, hagain⟩
    · rw [hfinish] at hop
      subst hop
      cases h with
      | finish => exact .finish hlast
      | other hop => exact absurd trivial hop
    · rw [hagain] at hop
      subst hop
      cases h with
      | schedule hput => exact .again hretries hput
      | other hop => exact absurd trivial hop
  | ended => cases hcall

/-- What a delivery does next. -/
theorem delivery_moves {prim : Primitives} {uri message : String} {d : Delivery}
    (hcall : d.call? prim uri message = some op) (h : Changes a ⟨op, answer⟩ a') :
    DeliveryMoves prim uri message a d ⟨op, answer⟩ a' (d.next ⟨op, answer⟩) := by
  cases d with
  | posting =>
    cases hcall
    obtain rfl : a' = a := h
    cases answer with
    | ok => exact .delivered
    | error => exact .failed
  | failed =>
    cases hcall
    obtain rfl : a' = a := h
    exact .now
  | read now =>
    cases hcall
    cases h with
    | schedule hput => exact .stores hput
    | other hop => exact absurd trivial hop
  | ended => cases hcall

end Moves

end Dispatch
