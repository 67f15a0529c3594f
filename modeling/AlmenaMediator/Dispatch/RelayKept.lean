import AlmenaMediator.Dispatch.RelayRetries
import AlmenaMediator.Dispatch.RelayLease

/-!
# No relay is forgotten

The worker settles a relay on the strength of the copy it leased, so that a delivery that stores the
relay anew in between can be undone. As long as that does not happen, a stored relay stays until it
is delivered or has failed four times more, and one delivery makes at most five POSTs
(`relay_kept`); a delivery between the last attempt and its settlement is enough to lose a relay
(`relay_forgotten`).
-/

namespace Dispatch

open Didcomm (Primitives)
open Store (PendingRelay Relays RelayStore RelayStep)

/-! ## What happens to one relay -/

section Labels

variable (prim : Primitives) (id : String)

/-- A POST of the relay. -/
def isPost : Pool.Label Surroundings Job → Bool
  | .call _ _ _ k => posts prim id k
  | _ => false

/-- A POST of the relay that succeeds. -/
def isDelivery : Pool.Label Surroundings Job → Bool
  | .call _ _ _ k => delivers prim id k
  | _ => false

/-- A retry of the relay that fails. -/
def isFailedRetry : Pool.Label Surroundings Job → Bool
  | .call _ .retry _ k => posts prim id k && !delivers prim id k
  | _ => false

/-- A delivery of the relay begins. -/
def isBegin : Pool.Label Surroundings Job → Bool
  | .start _ (.deliver uri message) => relayId prim uri message == id
  | _ => false

/-- A delivery has stored the relay. -/
def isStore : Pool.Label Surroundings Job → Bool
  | .call _ (.deliver _ _) _ ⟨.store (.scheduleRelay relay _ _), .ok stored⟩ =>
    stored && relay.id == id
  | _ => false

/-- What a step does to the relay's entry in the store and to the worker's copy. -/
inductive EntryMoves (label : Pool.Label Surroundings Job) : Option (ℕ × PendingRelay) →
    Option (ℕ × Option Bool) → Option (ℕ × PendingRelay) → Option (ℕ × Option Bool) → Prop
  | round {before : List (Call Surroundings)} {k : Call Surroundings}
      {entry entry' : Option (ℕ × PendingRelay)} {copy copy' : Option (ℕ × Option Bool)}
      (hlabel : label = .call 0 .retry before k) (h : CopyMoves prim id k entry copy entry' copy') :
      EntryMoves label entry copy entry' copy'
  | store {entry : Option (ℕ × PendingRelay)} {copy : Option (ℕ × Option Bool)} {due : ℕ}
      {relay : PendingRelay} (hretries : relay.retries = 0)
        (h : isFailedRetry prim id label = false) :
      EntryMoves label entry copy (some (due, relay)) copy
  | other {entry : Option (ℕ × PendingRelay)} {copy : Option (ℕ × Option Bool)}
      (hstore : isStore id label = false) (h : isFailedRetry prim id label = false) :
      EntryMoves label entry copy entry copy

end Labels

section OneRelay

variable {prim : Primitives} {id : String} {v v' : View} {label : Pool.Label Surroundings Job}

/-- A round that holds nothing has a copy of nothing. -/
theorem copy_of_held {r : Round} (h : r.held = []) : r.copy id = none := by
  cases r with
  | trying now relays =>
    obtain rfl : relays = [] := h
    rfl
  | tried => cases h
  | _ => rfl

/-- Only a call that POSTs a payload delivers it. -/
theorem delivers_posts {k : Call Surroundings} (h : posts prim id k = false) :
    delivers prim id k = false := by
  obtain ⟨op, answer⟩ := k
  cases op with
  | post uri message =>
    cases answer with
    | ok => exact h
    | error => rfl
  | _ => rfl

/-- Steps keep ids in order. -/
theorem Moves.sane (h : Moves prim v label v') (hsane : Sane prim v.relays v.round) :
    Sane prim v'.relays v'.round := by
  cases h with
  | startRound | stopRound =>
    exact ⟨hsane.keyed, hsane.stored, fun _ hmem => absurd hmem List.not_mem_nil, List.nodup_nil⟩
  | round h => exact hsane.round h
  | start | stop => exact hsane
  | delivery _ hd => exact hsane.delivery hd

/-- What a step does to everything it does to the entry and the copy of one relay. -/
theorem Moves.entry (h : Moves prim v label v') (hsane : Sane prim v.relays v.round) (id : String) :
    EntryMoves prim id label (v.relays id) (v.round.copy id) (v'.relays id) (v'.round.copy id) := by
  cases h with
  | startRound hheld | stopRound hheld =>
    rw [copy_of_held hheld]
    exact .other rfl rfl
  | round h => exact .round rfl (h.copy hsane id)
  | start | stop => exact .other rfl rfl
  | @delivery i uri message d d' before k a _ hd =>
    cases hd with
    | stores hput =>
      cases hput with
      | put =>
        by_cases hid : (newRelay prim uri message).id = id
        · subst hid
          simp only [Function.update_self]
          exact .store rfl rfl
        · simp only [Function.update_of_ne (Ne.symm hid)]
          exact .other (by rw [isStore, Bool.true_and, beq_eq_false_iff_ne]; exact hid) rfl
      | full => exact .other rfl rfl
    | _ => exact .other rfl rfl

/-! ## A stored relay waits -/

/-- A copy of a relay that failed at most `n` times. -/
def Within (n : ℕ) : Option (ℕ × Option Bool) → Prop
  | none => True
  | some (retries, none) => retries ≤ n
  | some (retries, some ok) => ok = false ∧ retries < n

/-- A relay that was not delivered and failed at most `n` times. -/
structure Waits (n : ℕ) (entry : Option (ℕ × PendingRelay)) (copy : Option (ℕ × Option Bool)) :
    Prop where
  stored : ∃ due relay, entry = some (due, relay) ∧ relay.retries ≤ n
  copy : Within n copy

variable {entry entry' : Option (ℕ × PendingRelay)} {copy copy' : Option (ℕ × Option Bool)} {n : ℕ}

/-- A call of a round. -/
theorem CopyMoves.waits {k : Call Surroundings} (h : CopyMoves prim id k entry copy entry' copy')
    (hwaits : Waits n entry copy) (hk : delivers prim id k = false) :
    4 ≤ n ∨ Waits (n + (posts prim id k).toNat) entry' copy' := by
  obtain ⟨⟨due, relay, hentry, hretries⟩, hcopy⟩ := hwaits
  cases h with
  | same hposts =>
    right
    rw [hposts]
    exact ⟨⟨due, relay, hentry, hretries⟩, hcopy⟩
  | @lease _ due' relay' hposts =>
    right
    obtain rfl : relay' = relay := by
      rw [Option.some_inj, Prod.mk.injEq] at hentry
      exact hentry.2
    rw [hposts]
    exact ⟨⟨due', relay', rfl, hretries⟩, hretries⟩
  | post hposts =>
    right
    have hle : _ ≤ n := hcopy
    rw [hposts]
    exact ⟨⟨due, relay, hentry, hretries.trans (Nat.le_add_right n 1)⟩, hk, Nat.lt_succ_of_le hle⟩
  | finish hposts hlast =>
    -- the copy failed as often as the relay has, which includes its last retry
    left
    obtain ⟨hok, hlt⟩ := hcopy
    rw [hok] at hlast
    have hthree := hlast.resolve_left Bool.false_ne_true
    omega
  | @again _ m due' relay' hposts hm hretries' =>
    right
    have hlt : m < n := hcopy.2
    rw [hposts]
    exact ⟨⟨due', relay', rfl, hretries'.trans_le hlt⟩, trivial⟩
  | full => exact nomatch hentry

/-- Any other step. -/
theorem EntryMoves.waits (h : EntryMoves prim id label entry copy entry' copy')
    (hwaits : Waits n entry copy) (hlabel : isDelivery prim id label = false) :
    4 ≤ n ∨ Waits (n + (isFailedRetry prim id label).toNat) entry' copy' := by
  cases h with
  | @round before k _ _ _ _ hround h =>
    subst hround
    have hk : delivers prim id k = false := hlabel
    have hfailed : isFailedRetry prim id (.call 0 .retry before k) = posts prim id k := by
      rw [isFailedRetry, hk, Bool.not_false, Bool.and_true]
    rw [hfailed]
    exact h.waits hwaits hk
  | store hretries h =>
    right
    rw [h]
    exact ⟨⟨_, _, rfl, hretries.trans_le (Nat.zero_le n)⟩, hwaits.copy⟩
  | other _ h =>
    right
    rw [h]
    exact hwaits

end OneRelay

/-! ## One delivery -/

/-- Where a delivery is, unless it is over. -/
def Delivery.left : Delivery → Option Delivery
  | .ended => none
  | d => some d

section OneDelivery

variable (prim : Primitives) (id : String)

/-- Where a delivery is, if it is one of the relay and not over. -/
def pending : Option (String × String × Delivery) → Option Delivery
  | some (uri, message, d) => if relayId prim uri message = id then d.left else none
  | none => none

/-- Where the only delivery of the relay is that is not over, if there is one. -/
def Lone (deliveries : ℕ → Option (String × String × Delivery)) (status : Option Delivery) : Prop :=
  ∃ i, ∀ j, pending prim id (deliveries j) = if j = i then status else none

/-- What a step does to the only delivery of a relay, to its entry and to the worker's copy. -/
inductive LoneMoves (label : Pool.Label Surroundings Job) :
    Option Delivery → Option (ℕ × PendingRelay) → Option (ℕ × Option Bool) →
    Option Delivery → Option (ℕ × PendingRelay) → Option (ℕ × Option Bool) → Prop
  | round {before : List (Call Surroundings)} {k : Call Surroundings} {status : Option Delivery}
      {entry entry' : Option (ℕ × PendingRelay)} {copy copy' : Option (ℕ × Option Bool)}
      (hlabel : label = .call 0 .retry before k) (h : CopyMoves prim id k entry copy entry' copy') :
      LoneMoves label status entry copy status entry' copy'
  | begins {entry : Option (ℕ × PendingRelay)} {copy : Option (ℕ × Option Bool)}
      (hbegin : isBegin prim id label) (hpost : isPost prim id label = false) :
      LoneMoves label none entry copy (some .posting) entry copy
  | delivered {entry : Option (ℕ × PendingRelay)} {copy : Option (ℕ × Option Bool)}
      (hpost : isPost prim id label) (hdelivery : isDelivery prim id label) :
      LoneMoves label (some .posting) entry copy none entry copy
  | failed {entry : Option (ℕ × PendingRelay)} {copy : Option (ℕ × Option Bool)}
      (hpost : isPost prim id label) (hdelivery : isDelivery prim id label = false) :
      LoneMoves label (some .posting) entry copy (some .failed) entry copy
  | now {now : ℕ} {entry : Option (ℕ × PendingRelay)} {copy : Option (ℕ × Option Bool)}
      (hbegin : isBegin prim id label = false) (hpost : isPost prim id label = false) :
      LoneMoves label (some .failed) entry copy (some (.read now)) entry copy
  | stores {now due : ℕ} {relay : PendingRelay} {entry : Option (ℕ × PendingRelay)}
      {copy : Option (ℕ × Option Bool)} (hbegin : isBegin prim id label = false)
      (hpost : isPost prim id label = false) (hretries : relay.retries = 0) :
      LoneMoves label (some (.read now)) entry copy none (some (due, relay)) copy
  | full {now : ℕ} {entry : Option (ℕ × PendingRelay)} {copy : Option (ℕ × Option Bool)}
      (hbegin : isBegin prim id label = false) (hpost : isPost prim id label = false) :
      LoneMoves label (some (.read now)) entry copy none entry copy
  | other {status : Option Delivery} {entry : Option (ℕ × PendingRelay)}
      {copy : Option (ℕ × Option Bool)} (hbegin : isBegin prim id label = false)
      (hpost : isPost prim id label = false) :
      LoneMoves label status entry copy status entry copy

/-- How far a relay is that one delivery was asked for: how many deliveries began, how many POSTs
were made, and whether one of them succeeded. -/
inductive Stage : Option Delivery → Option (ℕ × PendingRelay) → Option (ℕ × Option Bool) →
    ℕ → ℕ → Bool → Prop
  | unknown : Stage none none none 0 0 false
  | posting : Stage (some .posting) none none 1 0 false
  | failed {d : Delivery} (h : d ≠ .posting) : Stage (some d) none none 1 1 false
  | stored {due : ℕ} {relay : PendingRelay} (h : relay.retries ≤ 3) :
      Stage none (some (due, relay)) none 1 (relay.retries + 1) false
  | held {due : ℕ} {relay : PendingRelay} (h : relay.retries ≤ 3) :
      Stage none (some (due, relay)) (some (relay.retries, none)) 1 (relay.retries + 1) false
  | tried {due : ℕ} {relay : PendingRelay} {ok : Bool} (h : relay.retries ≤ 3) :
      Stage none (some (due, relay)) (some (relay.retries, some ok)) 1 (relay.retries + 2) ok
  | gone {posts : ℕ} {ok : Bool} (h : posts ≤ 5) : Stage none none none 1 posts ok

variable {prim : Primitives} {id : String} {v v' : View} {label : Pool.Label Surroundings Job}
  {deliveries : ℕ → Option (String × String × Delivery)} {status : Option Delivery}

/-- The delivery itself moves on, or the first one starts. -/
theorem Lone.move (h : Lone prim id deliveries status) {i : ℕ}
    (hi : pending prim id (deliveries i) = status) (d : Option (String × String × Delivery)) :
    Lone prim id (Function.update deliveries i d) (pending prim id d) := by
  obtain ⟨k, hk⟩ := h
  refine ⟨i, fun j => ?_⟩
  by_cases hj : j = i
  · subst hj
    rw [Function.update_self, if_pos rfl]
  · -- every other thread is none of the relay's deliveries
    rw [if_neg hj, Function.update_of_ne hj, hk j]
    by_cases hjk : j = k
    · rw [if_pos hjk, ← hi, hk i, if_neg fun hik => hj (hjk.trans hik.symm)]
    · rw [if_neg hjk]

/-- Another delivery moves on. -/
theorem Lone.keep (h : Lone prim id deliveries status) {i : ℕ}
    {d : Option (String × String × Delivery)}
    (hi : pending prim id (deliveries i) = pending prim id d) :
    Lone prim id (Function.update deliveries i d) status := by
  obtain ⟨k, hk⟩ := h
  refine ⟨k, fun j => ?_⟩
  by_cases hj : j = i
  · subst hj
    rw [Function.update_self, ← hi]
    exact hk j
  · rw [Function.update_of_ne hj]
    exact hk j

/-- The only delivery of a relay is the one that is pending. -/
theorem Lone.unique (h : Lone prim id deliveries status) {i : ℕ} {d : Delivery}
    (hi : pending prim id (deliveries i) = some d) : status = some d := by
  obtain ⟨k, hk⟩ := h
  rw [hk i] at hi
  by_cases hik : i = k
  · rwa [if_pos hik] at hi
  · rw [if_neg hik] at hi
    exact nomatch hi

/-- A delivery of the relay is pending as far as it has come. -/
theorem pending_of_eq {uri message : String} {d : Delivery} (hid : relayId prim uri message = id) :
    pending prim id (some (uri, message, d)) = d.left := if_pos hid

/-- A delivery of another relay leaves nothing of this one pending. -/
theorem pending_of_ne {uri message : String} {d : Delivery} (hid : relayId prim uri message ≠ id) :
    pending prim id (some (uri, message, d)) = none := if_neg hid

/-- What a step does, as far as a relay and its only delivery are concerned. -/
theorem Moves.lone (h : Moves prim v label v') (hsane : Sane prim v.relays v.round)
    (hlone : Lone prim id v.deliveries status) (hfirst : isBegin prim id label → status = none) :
    ∃ status', Lone prim id v'.deliveries status' ∧ LoneMoves prim id label status (v.relays id)
      (v.round.copy id) status' (v'.relays id) (v'.round.copy id) := by
  cases h with
  | startRound hheld | stopRound hheld =>
    rw [copy_of_held hheld]
    exact ⟨status, hlone, .other rfl rfl⟩
  | round h => exact ⟨status, hlone, .round rfl (h.copy hsane id)⟩
  | @start i uri message hnone =>
    have hpending : pending prim id (v.deliveries i) = none := by rw [hnone, pending]
    by_cases hid : relayId prim uri message = id
    · have hbegin : isBegin prim id (.start i (.deliver uri message)) = true := beq_iff_eq.mpr hid
      obtain rfl := hfirst hbegin
      refine ⟨some .posting, ?_, .begins hbegin rfl⟩
      rw [show some Delivery.posting = Delivery.posting.left from rfl, ← pending_of_eq hid]
      exact hlone.move hpending _
    · refine ⟨status, hlone.keep ?_, .other (beq_eq_false_iff_ne.mpr hid) rfl⟩
      rw [hpending, pending_of_ne hid]
  | @stop i uri message hover =>
    refine ⟨status, hlone.keep ?_, .other rfl rfl⟩
    rw [hover]
    exact ite_self none
  | @delivery i uri message d d' before k a hd hmoves =>
    by_cases hid : relayId prim uri message = id
    · -- it is the relay's only delivery, and the status is what is left of it
      have hpending : pending prim id (v.deliveries i) = d.left := by rw [hd, pending_of_eq hid]
      have hmoved : status = d.left → Lone prim id
          (Function.update v.deliveries i (some (uri, message, d'))) d'.left := by
        intro hstatus
        rw [← pending_of_eq (d := d') hid]
        exact hlone.move (hpending.trans hstatus.symm) _
      cases hmoves with
      | delivered =>
        obtain rfl := hlone.unique hpending
        have hpost : relayId prim uri message == id := beq_iff_eq.mpr hid
        exact ⟨none, hmoved rfl, .delivered hpost hpost⟩
      | failed =>
        obtain rfl := hlone.unique hpending
        have hpost : relayId prim uri message == id := beq_iff_eq.mpr hid
        exact ⟨some .failed, hmoved rfl, .failed hpost rfl⟩
      | now =>
        obtain rfl := hlone.unique hpending
        exact ⟨some (.read _), hmoved rfl, .now rfl rfl⟩
      | stores hput =>
        obtain rfl := hlone.unique hpending
        refine ⟨none, hmoved rfl, ?_⟩
        cases hput with
        | put =>
          have hput : (newRelay prim uri message).id = id := hid
          simp only [hput, Function.update_self]
          exact .stores rfl rfl rfl
        | full => exact .full rfl rfl
    · refine ⟨status, hlone.keep (by rw [hd, pending_of_ne hid, pending_of_ne hid]), ?_⟩
      cases hmoves with
      | delivered | failed => exact .other rfl (beq_eq_false_iff_ne.mpr hid)
      | now => exact .other rfl rfl
      | stores hput =>
        have hentry : a id = v.relays id := by
          cases hput with
          | put => exact Function.update_of_ne (Ne.symm hid) _ _
          | full => rfl
        simp only [hentry]
        exact .other rfl rfl

/-- A step that is no POST of the relay does not deliver it. -/
theorem isDelivery_of_isPost (h : isPost prim id label = false) :
    isDelivery prim id label = false := by
  cases label with
  | call => exact delivers_posts h
  | _ => rfl

/-- A step that is a POST of the relay does not begin a delivery. -/
theorem isBegin_of_isPost (h : isPost prim id label = true) : isBegin prim id label = false := by
  cases label with
  | call => rfl
  | _ => exact nomatch h

/-- At every stage at most five POSTs were made. -/
theorem Stage.posts_le {entry : Option (ℕ × PendingRelay)} {copy : Option (ℕ × Option Bool)}
    {b p : ℕ} {ok : Bool} (h : Stage status entry copy b p ok) : p ≤ 5 := by
  cases h <;> omega

/-- Before the one delivery began nothing of it is pending. -/
theorem Stage.status_of_begun {entry : Option (ℕ × PendingRelay)} {copy : Option (ℕ × Option Bool)}
    {p : ℕ} {ok : Bool} (h : Stage status entry copy 0 p ok) : status = none := by
  cases h
  rfl

variable {entry entry' : Option (ℕ × PendingRelay)} {copy copy' : Option (ℕ × Option Bool)}
  {b p : ℕ} {ok : Bool} {status' : Option Delivery}

/-- A call of the worker. A relay that was delivered is not posted again. -/
theorem CopyMoves.stage {k : Call Surroundings} (h : CopyMoves prim id k entry copy entry' copy')
    (hstage : Stage status entry copy b p ok) : (ok = true → posts prim id k = false) ∧
      Stage status entry' copy' b (p + (posts prim id k).toNat) (ok || delivers prim id k) := by
  -- the worker's part: each move takes the relay from one stage to the next
  cases h with
  | same hposts =>
    refine ⟨fun _ => hposts, ?_⟩
    rw [hposts, delivers_posts hposts, Bool.or_false]
    exact hstage
  | lease hposts =>
    refine ⟨fun _ => hposts, ?_⟩
    rw [hposts, delivers_posts hposts, Bool.or_false]
    cases hstage with
    | stored h => exact .held h
  | post hposts =>
    cases hstage with
    | held h =>
      refine ⟨Bool.false_ne_true.elim, ?_⟩
      rw [hposts, Bool.false_or]
      exact .tried h
  | finish hposts hlast =>
    refine ⟨fun _ => hposts, ?_⟩
    rw [hposts, delivers_posts hposts, Bool.or_false]
    cases hstage with
    | tried h => exact .gone (by simpa using h)
  -- the copy is stored anew with one retry more, which its stage counts
  | @again _ n due relay hposts hn hretries =>
    refine ⟨fun _ => hposts, ?_⟩
    rw [hposts, delivers_posts hposts, Bool.or_false]
    cases hstage with
    | tried h =>
      have hstored : Stage none (some (due, relay)) none 1 (relay.retries + 1) false :=
        .stored (hretries.trans_le hn)
      rw [hretries] at hstored
      exact hstored
  | full => cases hstage

/-- Any step, as long as there is one delivery at most. -/
theorem LoneMoves.stage (h : LoneMoves prim id label status entry copy status' entry' copy')
    (hstage : Stage status entry copy b p ok) (hone : b + (isBegin prim id label).toNat ≤ 1) :
    (ok = true → isPost prim id label = false) ∧
      Stage status' entry' copy' (b + (isBegin prim id label).toNat)
        (p + (isPost prim id label).toNat) (ok || isDelivery prim id label) := by
  -- the delivery's part: the relay is stored only after its first POST has failed
  cases h with
  | round hlabel h =>
    subst hlabel
    exact h.stage hstage
  | begins hbegin hpost =>
    refine ⟨fun _ => hpost, ?_⟩
    rw [hbegin] at hone ⊢
    rw [hpost, isDelivery_of_isPost hpost, Bool.or_false]
    cases hstage with
    | unknown => exact .posting
    | _ => exact absurd hone (by decide)
  | delivered hpost hdelivery =>
    cases hstage with
    | posting =>
      refine ⟨Bool.false_ne_true.elim, ?_⟩
      rw [isBegin_of_isPost hpost, hpost, hdelivery]
      exact .gone (by decide)
    | failed h => exact absurd rfl h
  | failed hpost hdelivery =>
    cases hstage with
    | posting =>
      refine ⟨Bool.false_ne_true.elim, ?_⟩
      rw [isBegin_of_isPost hpost, hpost, hdelivery]
      exact .failed fun h => nomatch h
    | failed h => exact absurd rfl h
  | now hbegin hpost =>
    refine ⟨fun _ => hpost, ?_⟩
    rw [hbegin, hpost, isDelivery_of_isPost hpost, Bool.or_false]
    cases hstage with
    | failed => exact .failed fun h => nomatch h
  | @stores now due relay _ _ hbegin hpost hretries =>
    refine ⟨fun _ => hpost, ?_⟩
    rw [hbegin, hpost, isDelivery_of_isPost hpost, Bool.or_false]
    cases hstage with
    | failed =>
      have hstored : Stage none (some (due, relay)) none 1 (relay.retries + 1) false :=
        .stored (hretries.trans_le (Nat.zero_le 3))
      rw [hretries] at hstored
      exact hstored
  | full hbegin hpost =>
    refine ⟨fun _ => hpost, ?_⟩
    rw [hbegin, hpost, isDelivery_of_isPost hpost, Bool.or_false]
    cases hstage with
    | failed => exact .gone (by decide)
  -- nothing of this relay moved
  | other hbegin hpost =>
    refine ⟨fun _ => hpost, ?_⟩
    rw [hbegin, hpost, isDelivery_of_isPost hpost, Bool.or_false]
    exact hstage

end OneDelivery

/-! ## Runs -/

section Histories

variable (prim : Primitives) (id : String)

/-- A relay that was stored stays until it is delivered or four retries of it fail. -/
def NotForgotten (labels : List (Pool.Label Surroundings Job)) (a : Relays) : Prop :=
  ∀ before label after, labels = before ++ label :: after → isStore id label →
    (∃ l ∈ after, isDelivery prim id l) ∨ 4 ≤ after.countP (isFailedRetry prim id) ∨ (a id).isSome

/-- A relay is not posted more than five times, nor after it was delivered. -/
structure NotOverdone (labels : List (Pool.Label Surroundings Job)) : Prop where
  posts : labels.countP (isPost prim id) ≤ 5
  delivered : ∀ before label after, labels = before ++ label :: after → isDelivery prim id label →
    ∀ l ∈ after, ¬ isPost prim id l

/-- A delivery stores no relay while the worker holds a copy of it that it tried already, or that
was retried before. -/
def Undisturbed {σ : Type} (c : Pool.Config Surroundings Job σ)
    (label : Pool.Label Surroundings Job) : Prop :=
  ∀ id, isStore id label → ∀ copy, (roundOf c 0).copy id = some copy → copy = (0, none)

variable {prim id} {labels : List (Pool.Label Surroundings Job)}
  {label : Pool.Label Surroundings Job}

/-- Every relay that was stored and neither delivered nor given up waits. -/
def AllWait (prim : Primitives) (id : String) (labels : List (Pool.Label Surroundings Job))
    (entry : Option (ℕ × PendingRelay)) (copy : Option (ℕ × Option Bool)) : Prop :=
  ∀ before label after, labels = before ++ label :: after → isStore id label →
    (∃ l ∈ after, isDelivery prim id l) ∨ 4 ≤ after.countP (isFailedRetry prim id) ∨
      Waits (after.countP (isFailedRetry prim id)) entry copy

/-- A step that stores the relay while the worker's copy of it is as good as new. -/
theorem EntryMoves.stored {entry entry' : Option (ℕ × PendingRelay)}
    {copy copy' : Option (ℕ × Option Bool)} (h : EntryMoves prim id label entry copy entry' copy')
    (hstore : isStore id label = true) (hcopy : ∀ held, copy = some held → held = (0, none)) :
    Waits 0 entry' copy' := by
  -- only a delivery's own call stores the relay
  cases h with
  | round hlabel =>
    subst hlabel
    exact nomatch hstore
  | store hretries _ =>
    refine ⟨⟨_, _, rfl, hretries.le⟩, ?_⟩
    cases copy with
    | none => trivial
    | some held =>
      rw [hcopy held rfl]
      exact Nat.le_refl 0
  | other hnot _ =>
    rw [hstore] at hnot
    exact nomatch hnot

/-- One more step. -/
theorem AllWait.snoc {entry entry' : Option (ℕ × PendingRelay)}
    {copy copy' : Option (ℕ × Option Bool)} (hall : AllWait prim id labels entry copy)
    (h : EntryMoves prim id label entry copy entry' copy')
    (hcopy : isStore id label = true → ∀ held, copy = some held → held = (0, none)) :
    AllWait prim id (labels ++ [label]) entry' copy' := by
  intro before cut after hcut hstore
  -- the step is the store itself, or comes after it
  rcases Transition.cut_snoc hcut with ⟨-, rfl, rfl⟩ | ⟨rest, rfl, hrest⟩
  · exact .inr (.inr (h.stored hstore (hcopy hstore)))
  · rcases hall before cut rest hrest hstore with ⟨l, hl, hdelivery⟩ | hfailed | hwaits
    · exact .inl ⟨l, List.mem_append_left _ hl, hdelivery⟩
    · rw [List.countP_append]
      exact .inr (.inl (hfailed.trans (Nat.le_add_right _ _)))
    -- it waited until now: the step delivers it, fails a retry, or leaves it waiting
    · by_cases hdelivery : isDelivery prim id label = true
      · exact .inl ⟨label, List.mem_append_right _ (List.mem_singleton_self _), hdelivery⟩
      · have hcount : (rest ++ [label]).countP (isFailedRetry prim id) =
            rest.countP (isFailedRetry prim id) + (isFailedRetry prim id label).toNat := by
          rw [List.countP_append, List.countP_singleton]
          cases isFailedRetry prim id label <;> rfl
        rw [hcount]
        rcases h.waits hwaits (Bool.eq_false_iff.mpr hdelivery) with hfour | hwaits'
        · exact .inr (.inl (hfour.trans (Nat.le_add_right _ _)))
        · exact .inr (.inr hwaits')

/-- A step that does not post a relay that was delivered. -/
theorem NotOverdone.snoc (h : NotOverdone prim id labels)
    (hcount : (labels ++ [label]).countP (isPost prim id) ≤ 5)
    (hlabel : labels.any (isDelivery prim id) = true → isPost prim id label = false) :
    NotOverdone prim id (labels ++ [label]) where
  posts := hcount
  delivered before cut after hcut hdelivery l hl := by
    rcases Transition.cut_snoc hcut with ⟨-, rfl, rfl⟩ | ⟨rest, rfl, hrest⟩
    · exact absurd hl List.not_mem_nil
    · rcases List.mem_append.mp hl with hl | hl
      · exact h.delivered before cut rest hrest hdelivery l hl
      · have hany : labels.any (isDelivery prim id) = true :=
          List.any_eq_true.mpr ⟨cut, by rw [hrest]; simp, hdelivery⟩
        rw [List.mem_singleton.mp hl, hlabel hany]
        exact Bool.false_ne_true

end Histories

section Machine

variable {prim : Primitives} {mediator : Mediator} {σ : Type} {store : RelayStore σ}
  {c c' : Pool.Config Surroundings Job σ} {label : Pool.Label Surroundings Job}
  {labels : List (Pool.Label Surroundings Job)} {a₀ : Relays}

/-- The relay of one delivery. -/
structure OneDelivery (prim : Primitives) (id : String)
    (labels : List (Pool.Label Surroundings Job)) (v : View) : Prop where
  stage : ∃ status, Lone prim id v.deliveries status ∧ Stage status (v.relays id) (v.round.copy id)
    (labels.countP (isBegin prim id)) (labels.countP (isPost prim id))
    (labels.any (isDelivery prim id))
  history : NotOverdone prim id labels

/-- Where a run of the pool is: the relays of its store, and what happened to each. -/
structure Relaying (prim : Primitives) (store : RelayStore σ) (a₀ : Relays)
    (labels : List (Pool.Label Surroundings Job)) (c : Pool.Config Surroundings Job σ)
    (a : Relays) : Prop where
  runs : Runs prim c
  has : store.Has c.shared a
  sane : Sane prim a (roundOf c 0)
  waits : ∀ id, AllWait prim id labels (a id) ((roundOf c 0).copy id)
  one : ∀ id, a₀ id = none → labels.countP (isBegin prim id) ≤ 1 →
    OneDelivery prim id labels (view c a)

/-- A state without threads relays nothing, on a store that names its relays rightly. -/
theorem relaying_empty {s : σ} (hhas : store.Has s a₀)
    (hnamed : ∀ k due relay, a₀ k = some (due, relay) → Named prim relay) :
    Relaying prim store a₀ [] (.empty s) a₀ where
  runs := runs_empty s
  has := hhas
  sane := ⟨store.keyed hhas, hnamed, fun _ hmem => absurd hmem List.not_mem_nil, List.nodup_nil⟩
  waits id before label after hcut := absurd hcut (by simp)
  one id hnone _ := by
    refine ⟨⟨none, ⟨0, fun j => (ite_self none).symm⟩, ?_⟩, Nat.zero_le _, ?_⟩
    · have hentry : (view (.empty s : Pool.Config Surroundings Job σ) a₀).relays id = none := hnone
      rw [hentry]
      exact .unknown
    · intro before label after hcut
      exact absurd hcut (by simp)

/-- One more step. -/
theorem OneDelivery.snoc {id : String} {v v' : View} (h : OneDelivery prim id labels v)
    (hmoves : Moves prim v label v') (hsane : Sane prim v.relays v.round)
    (hone : (labels ++ [label]).countP (isBegin prim id) ≤ 1) :
    OneDelivery prim id (labels ++ [label]) v' := by
  have hcount : ∀ p : Pool.Label Surroundings Job → Bool,
      (labels ++ [label]).countP p = labels.countP p + (p label).toNat := by
    intro p
    rw [List.countP_append, List.countP_singleton]
    cases p label <;> rfl
  obtain ⟨⟨status, hlone, hstage⟩, hhistory⟩ := h
  rw [hcount] at hone
  -- a delivery that begins here is the first one
  have hfirst : isBegin prim id label = true → status = none := by
    intro hbegin
    rw [hbegin] at hone
    have hzero : labels.countP (isBegin prim id) = 0 := Nat.le_zero.mp (Nat.le_of_succ_le_succ hone)
    rw [hzero] at hstage
    exact hstage.status_of_begun
  obtain ⟨status', hlone', hmoved⟩ := hmoves.lone hsane hlone hfirst
  obtain ⟨hquiet, hstage'⟩ := hmoved.stage hstage hone
  refine ⟨⟨status', hlone', ?_⟩, hhistory.snoc ?_ hquiet⟩
  · rw [hcount, hcount, List.any_append, List.any_cons, List.any_nil, Bool.or_false]
    exact hstage'
  · rw [hcount]
    exact hstage'.posts_le

/-- One undisturbed step keeps the account of all relays. -/
theorem Relaying.step {a : Relays} (h : Relaying prim store a₀ labels c a)
    (hstep : Pool.Step (relaying prim mediator store) c label c') (hlabel : Undisturbed c label) :
    ∃ a', Relaying prim store a₀ (labels ++ [label]) c' a' := by
  obtain ⟨hruns', a', hhas', hmoves⟩ := h.runs.step h.has hstep
  refine ⟨a', hruns', hhas', hmoves.sane h.sane, fun id => ?_, fun id hnone hone => ?_⟩
  · exact (h.waits id).snoc (hmoves.entry h.sane id) (hlabel id)
  · rw [List.countP_append] at hone
    have hbefore := h.one id hnone (Nat.le_of_add_right_le hone)
    rw [← List.countP_append] at hone
    exact hbefore.snoc hmoves h.sane hone

/-- In every run in which no delivery disturbs the worker, a relay that was stored stays until it is
delivered or four retries of it fail; and the relay of one delivery is posted at most five times,
and never once it was delivered. -/
theorem relay_kept {s : σ} (hhas : store.Has s a₀)
    (hnamed : ∀ k due relay, a₀ k = some (due, relay) → Named prim relay)
    (hrun : Transition.Run (fun c label c' =>
      Pool.Step (relaying prim mediator store) c label c' ∧
        Undisturbed c label) (.empty s) labels c) :
        ∃ a, store.Has c.shared a ∧ ∀ id, NotForgotten prim id labels a ∧
          (a₀ id = none → labels.countP (isBegin prim id) ≤ 1 → NotOverdone prim id labels) := by
  obtain ⟨a, h⟩ : ∃ a, Relaying prim store a₀ labels c a := by
    induction hrun with
    | nil => exact ⟨a₀, relaying_empty hhas hnamed⟩
    | snoc _ hstep ih =>
      obtain ⟨a, h⟩ := ih
      exact h.step hstep.1 hstep.2
  refine ⟨a, h.has, fun id => ⟨fun before label after hcut hstore => ?_, fun hnone hone => ?_⟩⟩
  · rcases h.waits id before label after hcut hstore with hdelivered | hfailed | hwaits
    · exact .inl hdelivered
    · exact .inr (.inl hfailed)
    · obtain ⟨due, relay, hentry, -⟩ := hwaits.stored
      exact .inr (.inr (by rw [hentry]; rfl))
  · exact (h.one id hnone hone).history

end Machine

/-! ### The last attempt of a relay -/

namespace RetryExample

open Store (Inner)

/-- The pool over the in-process store. -/
abbrev pool : Pool.System Surroundings Job Inner :=
  relaying LeaseExample.prim LeaseExample.mediator Inner.relayStore

/-- The in-process store with a relay. -/
def waiting (due : ℕ) (relay : PendingRelay) : Inner :=
  { Inner.empty with relays := [(due, relay)] }

/-- What a delivery stores. -/
def fresh : PendingRelay := newRelay LeaseExample.prim "https://o/didcomm" "m"

/-- The relay after so many retries. -/
def retried (retries : ℕ) : PendingRelay := { fresh with retries := retries }

/-- The worker and a delivery, or one of them. -/
def pair (worker delivery : Option (Pool.Thread Surroundings Job)) (s : Inner) :
    Pool.Config Surroundings Job Inner :=
  ⟨Function.update (Function.update (fun _ => none) 0 worker) 1 delivery, s⟩

variable {w d : Option (Pool.Thread Surroundings Job)} {s t : Inner}

/-- Setting the first of a pair of threads sets that one. -/
@[simp] theorem pair_set_zero (w' : Option (Pool.Thread Surroundings Job)) :
    (pair w d s).set 0 w' t = pair w' d t := by
  simp [pair, Pool.Config.set, Function.update_comm]

/-- Setting the second of a pair of threads sets that one. -/
@[simp] theorem pair_set_one (d' : Option (Pool.Thread Surroundings Job)) :
    (pair w d s).set 1 d' t = pair w d' t := by
  simp [pair, Pool.Config.set]

/-- A pair of no threads is the empty pool. -/
@[simp] theorem pair_none : pair none none s = .empty s := by
  simp [pair, Pool.Config.empty]

/-- The delivery of a payload. -/
abbrev delivery : Job := .deliver "https://o/didcomm" "m"

/-- The calls of a delivery whose POST fails, before it stores the relay. -/
def refused : List (Call Surroundings) :=
  [⟨.post "https://o/didcomm" "m", .error "refused"⟩, ⟨.now, (0 : ℕ)⟩]

/-- It stores the relay. -/
def storing : Pool.Label Surroundings Job :=
  .call 1 delivery refused ⟨.store (.scheduleRelay fresh 5 maxPending), .ok true⟩

/-- What happens when a delivery fails. -/
def delivering : List (Pool.Label Surroundings Job) :=
  [.start 1 delivery,
    .call 1 delivery [] ⟨.post "https://o/didcomm" "m", .error "refused"⟩,
    .call 1 delivery (refused.take 1) ⟨.now, (0 : ℕ)⟩] ++
  storing :: [.stop 1 delivery]

/-- A call of the delivery. -/
theorem pair_call {before : List (Call Surroundings)} {op : Effect}
    {rest : Surroundings.Reply op → Task Unit} {answer : Surroundings.Reply op}
    (henv : around Store.MemoryStep s ⟨op, answer⟩ t) :
    Pool.Step pool (pair w (some ⟨delivery, before, .call op rest⟩) s)
      (.call 1 delivery before ⟨op, answer⟩)
      (pair w (some ⟨delivery, before ++ [⟨op, answer⟩], rest answer⟩) t) := by
  have hstep : Pool.Step pool (pair w (some ⟨delivery, before, .call op rest⟩) s)
      (.call 1 delivery before ⟨op, answer⟩)
      ((pair w (some ⟨delivery, before, .call op rest⟩) s).set 1
        (some ⟨delivery, before ++ [⟨op, answer⟩], rest answer⟩) t) := .call rfl henv
  rwa [pair_set_one] at hstep

/-- A delivery fails, whatever the worker is doing; it disturbs no worker that has stopped. -/
theorem delivers (hstore : Store.MemoryStep s ⟨.scheduleRelay fresh 5 maxPending, .ok true⟩ t) :
    Transition.Run
      (fun c label c' => Pool.Step pool c label c' ∧ (w = none → Undisturbed c label))
      (pair w none s) delivering (pair w none t) := by
  have hundisturbed : ∀ {thread u label}, w = none → Undisturbed (pair w thread u) label := by
    rintro thread u label rfl id - copy hcopy
    cases hcopy
  have hstart : Pool.Step pool (pair w none s) (.start 1 delivery)
      ((pair w none s).set 1 (some ⟨delivery, [], pool.program delivery⟩) s) :=
    .start rfl ⟨rfl, _, _, rfl⟩
  rw [pair_set_one] at hstart
  have hstop : ∀ before, Pool.Step pool (pair w (some ⟨delivery, before, .done ()⟩) t)
      (.stop 1 delivery) ((pair w (some ⟨delivery, before, .done ()⟩) t).set 1 none t) :=
    fun before => .stop rfl
  simp only [pair_set_one] at hstop
  -- the POST fails, the clock is read and the relay is stored
  refine .cons ⟨hstart, hundisturbed⟩ ?_
  refine .cons ⟨pair_call rfl, hundisturbed⟩ ?_
  refine .cons ⟨pair_call ⟨by decide, rfl⟩, hundisturbed⟩ ?_
  refine .cons ⟨pair_call hstore, hundisturbed⟩ ?_
  exact .single ⟨hstop _, hundisturbed⟩

/-- The worker at a point of its round, with nobody else under way. -/
def working (before : List (Call Surroundings)) (r : Round) (s : Inner) :
    Pool.Config Surroundings Job Inner := pair (some ⟨.retry, before, r.program⟩) none s

/-- A call of the worker. -/
theorem calls {before : List (Call Surroundings)} {r : Round} {op : Effect}
    {answer : Surroundings.Reply op} (hcall : r.call? = some op)
    (henv : around Store.MemoryStep s ⟨op, answer⟩ t) :
    Pool.Step pool (working before r s) (.call 0 .retry before ⟨op, answer⟩)
      (working (before ++ [⟨op, answer⟩]) (r.next ⟨op, answer⟩) t) := by
  have hthread : (working before r s).threads 0 = some ⟨.retry, before, r.program⟩ := rfl
  have hstep : Pool.Step pool _ _ _ := round_step hthread hcall henv
  rwa [working, pair_set_zero] at hstep

/-- The calls of the worker up to a POST that fails. -/
def attempt (now : ℕ) (relay : PendingRelay) : List (Call Surroundings) :=
  [⟨.now, now⟩, ⟨.store (.dueRelays now leaseSecs batch), .ok [relay]⟩,
    ⟨.post relay.uri relay.message, .error "refused"⟩]

/-- What happens then. -/
def attempting (now : ℕ) (relay : PendingRelay) : List (Pool.Label Surroundings Job) :=
  .start 0 .retry :: Pool.calling 0 .retry [] (attempt now relay)

/-- The worker leases a relay and fails to deliver it. -/
theorem attempts {now : ℕ} {relay : PendingRelay} (hnow : now < maxClock)
    (hlease : Store.MemoryStep s ⟨.dueRelays now leaseSecs batch, .ok [relay]⟩ t) :
    Transition.Run (Pool.Step pool) (.empty s) (attempting now relay)
      (working (attempt now relay) (.tried now relay (.error "refused") []) t) := by
  have hstart : Pool.Step pool (pair none none s) (.start 0 .retry)
      ((pair none none s).set 0 (some ⟨.retry, [], Round.begun.program⟩) s) := .start rfl ⟨rfl, rfl⟩
  rw [pair_set_zero, pair_none] at hstart
  refine .cons hstart ?_
  refine .cons (calls (r := .begun) rfl ⟨hnow, rfl⟩) ?_
  refine .cons (calls (r := .read now) rfl hlease) ?_
  exact .single (calls (r := .trying now [relay]) rfl rfl)

/-- A relay that failed three times already waits. -/
theorem waiting_has : ∃ a, Inner.relayStore.Has (waiting 0 (retried 3)) a ∧
    ∀ k due relay, a k = some (due, relay) → Named LeaseExample.prim relay := by
  have hlisted := Store.Listed.of_sorted (List.pairwise_singleton _ (0, retried 3))
  refine ⟨_, hlisted, fun k due stored hstored => ?_⟩
  have hmem : (due, stored) ∈ [(0, retried 3)] := ((hlisted.agrees k due stored).mp hstored).1
  obtain ⟨-, rfl⟩ := Prod.mk.inj (List.mem_singleton.mp hmem)
  exact rfl

/-- The worker settles the last attempt after a delivery has stored the relay anew. -/
def settling : Pool.Label Surroundings Job :=
  .call 0 .retry (attempt 0 (retried 3)) ⟨.store (.finishRelay ""), .ok ()⟩

/-- The run of the example forgets the relay, though its last POST failed and a delivery stored it
anew. -/
theorem forgets : ∃ c, Transition.Run (Pool.Step pool) (.empty (waiting 0 (retried 3)))
    (attempting 0 (retried 3) ++ (delivering ++ [settling])) c ∧ c.shared.relays = [] := by
  have hlease : Store.MemoryStep (waiting 0 (retried 3))
      ⟨.dueRelays 0 leaseSecs batch, .ok [retried 3]⟩ (waiting 60 (retried 3)) := ⟨[], .refl _, rfl⟩
  have hstore : Store.MemoryStep (waiting 60 (retried 3))
      ⟨.scheduleRelay fresh 5 maxPending, .ok true⟩ (waiting 5 fresh) := ⟨[], .refl _, rfl⟩
  have hfinish : Store.MemoryStep (waiting 5 fresh) ⟨.finishRelay "", .ok ()⟩ .empty :=
    ⟨[], .refl _, rfl⟩
  have hattempt := attempts (by decide) hlease
  have hsettle : Pool.Step pool (working (attempt 0 (retried 3))
      (.tried 0 (retried 3) (.error "refused") []) (waiting 5 fresh)) settling _ :=
        calls rfl hfinish
  refine ⟨_, hattempt.append (.append ?_ (.single hsettle)), rfl⟩
  exact (delivers hstore).mono fun _ _ _ hstep => hstep.1

/-- A delivery that stores its relay, and a retry of it that fails. -/
def keeping : List (Pool.Label Surroundings Job) :=
  delivering ++ (attempting 5 fresh ++ [.call 0 .retry (attempt 5 fresh)
    ⟨.store (.scheduleRelay (retried 1) 35 maxPending), .ok true⟩])

/-- Nobody gets the relay in it. -/
theorem not_isDelivery : ∀ l ∈ keeping, isDelivery LeaseExample.prim "" l = false := by decide

/-- Only a delivery that stores its relay can disturb the worker. -/
theorem undisturbed_of_not_isStore {c : Pool.Config Surroundings Job Inner}
    {label : Pool.Label Surroundings Job} (h : ∀ id, ¬ isStore id label) : Undisturbed c label :=
  fun id hstore => absurd hstore (h id)

/-- The other run of the example is undisturbed. -/
theorem keeps :
    ∃ c, Transition.Run (fun c label c' => Pool.Step pool c label c' ∧ Undisturbed c label)
    (.empty .empty) keeping c := by
  have hstore : Store.MemoryStep .empty ⟨.scheduleRelay fresh 5 maxPending, .ok true⟩
      (waiting 5 fresh) := ⟨[], .refl _, rfl⟩
  have hlease : Store.MemoryStep (waiting 5 fresh) ⟨.dueRelays 5 leaseSecs batch, .ok [fresh]⟩
      (waiting 65 fresh) := ⟨[], .refl _, rfl⟩
  have hagain : Store.MemoryStep (waiting 65 fresh)
      ⟨.scheduleRelay (retried 1) 35 maxPending, .ok true⟩ (waiting 35 (retried 1)) :=
    ⟨[], .refl _, rfl⟩
  -- a delivery fails and stores the relay, before the worker looks
  have hdelivery : Transition.Run
    (fun c label c' => Pool.Step pool c label c' ∧ Undisturbed c label)
      (pair none none .empty) delivering (pair none none (waiting 5 fresh)) :=
    (delivers hstore).mono fun _ _ _ hstep => ⟨hstep.1, hstep.2 rfl⟩
  rw [pair_none, pair_none] at hdelivery
  -- the worker leases it, tries once and puts it back for later
  have hattempt := attempts (by decide) hlease
  have hsettle : Pool.Step pool (working (attempt 5 fresh) (.tried 5 fresh (.error "refused") [])
      (waiting 65 fresh)) (.call 0 .retry (attempt 5 fresh)
        ⟨.store (.scheduleRelay (retried 1) 35 maxPending), .ok true⟩) _ := calls rfl hagain
  refine ⟨_, hdelivery.append ((hattempt.snoc hsettle).and_labels fun label hlabel c => ?_)⟩
  refine undisturbed_of_not_isStore fun id => ?_
  simp only [attempting, attempt, Pool.calling, List.cons_append, List.nil_append, List.mem_cons,
    List.not_mem_nil, or_false] at hlabel
  rcases hlabel with rfl | rfl | rfl | rfl | rfl <;> exact Bool.false_ne_true

end RetryExample

/-- The worker fails to deliver a relay for the last time; before it settles that, a delivery of the
same payload fails and stores the relay anew; the worker then deletes it. -/
theorem relay_forgotten :
    ¬ ∀ (prim : Primitives) (mediator : Mediator) (s : Store.Inner) (a₀ : Relays)
      (labels : List (Pool.Label Surroundings Job)) (c : Pool.Config Surroundings Job Store.Inner),
      Store.Inner.relayStore.Has s a₀ →
      (∀ k due relay, a₀ k = some (due, relay) → Named prim relay) →
      Transition.Run (Pool.Step (relaying prim mediator Store.Inner.relayStore))
      (.empty s) labels c → ∃ a, Store.Inner.relayStore.Has c.shared a ∧ ∀ id,
        NotForgotten prim id labels a ∧ (a₀ id = none → labels.countP (isBegin prim id) ≤ 1 →
          NotOverdone prim id labels) := by
  intro h
  obtain ⟨c, hrun, hrelays⟩ := RetryExample.forgets
  obtain ⟨a₀, hhas₀, hnamed⟩ := RetryExample.waiting_has
  obtain ⟨a, hhas, hall⟩ := h _ _ _ _ _ c hhas₀ hnamed hrun
  -- none of the three ways to be remembered holds of the relay that was stored
  rcases (hall "").1 (RetryExample.attempting 0 (RetryExample.retried 3) ++
      RetryExample.delivering.take 3) RetryExample.storing
      [.stop 1 RetryExample.delivery, RetryExample.settling] rfl rfl with
    ⟨l, hl, hdelivery⟩ | hfailed | hstored
  · have hnone : ∀ l ∈ [.stop 1 RetryExample.delivery, RetryExample.settling],
        isDelivery LeaseExample.prim "" l = false := by decide
    rw [hnone l hl] at hdelivery
    cases hdelivery
  · exact absurd hfailed (by decide)
  · obtain ⟨⟨due, relay⟩, hrelay⟩ := Option.isSome_iff_exists.mp hstored
    have hmem := ((hhas.agrees _ _ _).mp hrelay).1
    rw [hrelays] at hmem
    exact absurd hmem List.not_mem_nil

/-- The relay of a delivery waits after a retry of it failed, and was posted twice. -/
theorem relay_kept_stored : ∃ c : Pool.Config Surroundings Job Store.Inner, ∃ a,
    Store.Inner.relayStore.Has c.shared a ∧ (a "").isSome ∧
      NotOverdone LeaseExample.prim "" RetryExample.keeping ∧
      RetryExample.keeping.countP (isPost LeaseExample.prim "") = 2 := by
  obtain ⟨c, hrun⟩ := RetryExample.keeps
  have hnamed : ∀ k due relay, (Agenda.empty : Relays) k = some (due, relay) →
      Named LeaseExample.prim relay := fun _ _ _ hnone => by cases hnone
  obtain ⟨a, hhas, hall⟩ := relay_kept Store.Listed.empty hnamed hrun
  refine ⟨c, a, hhas, ?_, (hall "").2 rfl (by decide), by decide⟩
  rcases (hall "").1 (RetryExample.delivering.take 3) RetryExample.storing _ rfl rfl with
    ⟨l, hl, hdelivery⟩ | hfailed | hwaits
  · have hmem := List.mem_append_right (RetryExample.delivering.take 4) hl
    rw [RetryExample.not_isDelivery l hmem] at hdelivery
    cases hdelivery
  · exact absurd hfailed (by decide)
  · exact hwaits

end Dispatch
