import AlmenaMediator.Dispatch.Loopback
import AlmenaMediator.Store.Hits
import AlmenaMediator.Store.Redis.Hits
import AlmenaMediator.Transport.Addresses

/-!
# The rate limit

`over_limit` of `routes.rs`. A message's task reads the clock before it takes the store, so the hits
reach the store with clock readings in any order. The Redis store counts them all; the in-memory
store counts them all exactly in the sequences in which no hit drops what an earlier one counted for
a later one (`Undisturbed`).

## Main results

* `countP_passed_le`: the limit is kept wherever hits are counted;
* `countedOnce_iff`: the in-memory store counts hits as the Redis store does if and only if they are
  undisturbed.
-/

namespace Transport

/-! ## Texts of addresses -/

namespace Ipv4Addr

/-- `Display`. -/
def display (ip : Ipv4Addr) : String :=
  toString ip.a.toNat ++ "." ++ toString ip.b.toNat ++ "." ++ toString ip.c.toNat ++ "." ++
    toString ip.d.toNat

end Ipv4Addr

namespace Ipv6Addr

def segments (ip : Ipv6Addr) : List UInt16 :=
  [ip.s0, ip.s1, ip.s2, ip.s3, ip.s4, ip.s5, ip.s6, ip.s7]

/-- Segments from `start` on. -/
structure Span where
  start : ℕ
  len : ℕ
  deriving DecidableEq, Repr

/-- The spans of zeros up to a segment: the longest, and the one that ends there. -/
def countZeros (spans : Span × Span) (segment : UInt16 × ℕ) : Span × Span :=
  let (longest, current) := spans
  if segment.1 = 0 then
    let current :=
      { start := if current.len = 0 then segment.2 else current.start, len := current.len + 1 }
    (if longest.len < current.len then current else longest, current)
  else (longest, ⟨0, 0⟩)

/-- Segments in hexadecimal, with colons between them. -/
def displayChunk (chunk : List UInt16) : String :=
  ":".intercalate (chunk.map fun segment => String.ofList (Nat.toDigits 16 segment.toNat))

/-- `Display`. The longest span of zeros, the first of several, is left out. -/
def display (ip : Ipv6Addr) : String :=
  match ip.toIpv4Mapped with
  | some v4 => "::ffff:" ++ v4.display
  | none =>
    let zeros := (ip.segments.zipIdx.foldl countZeros (⟨0, 0⟩, ⟨0, 0⟩)).1
    if 1 < zeros.len then
      displayChunk (ip.segments.take zeros.start) ++ "::" ++
        displayChunk (ip.segments.drop (zeros.start + zeros.len))
    else displayChunk ip.segments

end Ipv6Addr

/-- `Display`. -/
def IpAddr.display : IpAddr → String
  | .v4 ip => ip.display
  | .v6 ip => ip.display

example : (IpAddr.v6 ⟨0x2001, 0xdb8, 0, 0, 1, 0, 0, 1⟩).display = "2001:db8::1:0:0:1" := by decide

/-! ## The limit -/

open Dispatch Store Transition

def rateWindowSecs : ℕ := 60

/-- The key a client's messages are counted under. -/
def rateKey (ip : IpAddr) : String := "didcomm:" ++ ip.display

/-- Whether a store's answer to a hit is over the limit. A storage error lets the message
through. -/
def tooMany (rateLimit : ℕ) : Except StoreError ℕ → Bool
  | .ok hits => rateLimit < hits
  | .error _ => false

/-- `over_limit`: counts one DIDComm message from `ip` and says whether it is over the limit. -/
def overLimit (rateLimit : ℕ) : Option IpAddr → Dispatch.Task Bool
  | some ip =>
    if 0 < rateLimit then do
      let now : ℕ ← call .now
      let hits : Except StoreError ℕ ← call (.store (.hit (rateKey ip) rateWindowSecs now))
      return tooMany rateLimit hits
    else return false
  | none => return false

/-- A DIDComm message, over HTTP or WebSocket: the client's IP and what its task read off the
clock. -/
structure Arrival where
  ip : Option IpAddr
  now : ℕ
  deriving DecidableEq, Repr

/-- The hit of a message. -/
def Arrival.hit (a : Arrival) : Option Hit := a.ip.map fun ip => ⟨rateKey ip, rateWindowSecs, a.now⟩

/-- What is done to the in-memory store next: a message takes it and is over the limit or not, or it
is called for something else. -/
inductive LimitStep (rateLimit : ℕ) : Inner → Option (Arrival × Bool) → Inner → Prop
  | message {s t : Inner} {a : Arrival} {refused : Bool}
      (h : (overLimit rateLimit a.ip).run (Loopback.calm a.now) s = (refused, t)) :
      LimitStep rateLimit s (some (a, refused)) t
  | other {s t : Inner} {c : Call StoreCall} (h : MemoryStep s c t)
      (hother : StoreCall.hitOf c = none) :
      LimitStep rateLimit s none t

/-- The hit of such a step. -/
def hitOf : Option (Arrival × Bool) → Option Hit
  | some (a, _) => a.hit
  | none => none

/-- The hits of a run. -/
def hitsOf (labels : List (Option (Arrival × Bool))) : List Hit := labels.filterMap hitOf

/-- A message from a client in a window that got past `over_limit`. -/
def gotPast (ip : IpAddr) (window : ℕ) : Option (Arrival × Bool) → Bool
  | some (a, refused) => a.ip == some ip && a.now / rateWindowSecs == window && !refused
  | none => false

/-- A hit on a slot that the Redis store answered, and that is not over the limit. -/
def letThrough (rateLimit : ℕ) (slot : String × ℕ) (e : Redis.ServerEvent) : Bool :=
  match e.label with
  | some ⟨.hit key window _, .ok hits⟩ => (key, window) == slot && !tooMany rateLimit (.ok hits)
  | _ => false

/-- The Redis store can answer a hit so, after these hits and no others, with any other requests and
any time between them, if no counter expires that is still hit. -/
def RedisAnswers (past : List Hit) (h : Hit) (answer : ℕ) : Prop :=
  ∃ (clock : ℕ) (evs : List Redis.ServerEvent) (db db' : Redis.Db),
    Run (Observed Redis.ServerStep) (Redis.Db.empty clock) evs db ∧ Redis.Lasting evs ∧
      evs.filterMap Redis.slotOf = past.map Hit.slot ∧
      (0 < Redis.hitsOn h.slot evs → (db.rate h.key h.window).isSome) ∧
      Program.Handled Redis.redis db ⟨.hit h.key h.windowSecs h.now, .ok answer⟩ db'

/-- Both stores answer every hit with the number of hits on its key in its window so far. -/
def CountedOnce (hits : List Hit) : Prop :=
  ∀ past h rest, hits = past ++ h :: rest →
    ((Inner.afterHits past).hit h.key h.windowSecs h.now).1 = hitsOn h.slot past + 1 ∧
      ∀ answer, RedisAnswers past h answer →
        ((Inner.afterHits past).hit h.key h.windowSecs h.now).1 = answer

/-- With either store, at most `rateLimit` messages from a client get past the limit in a window. -/
def LimitKept (hits : List Hit) : Prop :=
  ∀ rateLimit, 0 < rateLimit →
    (∀ labels inner, Run (LimitStep rateLimit) Inner.empty labels inner → hitsOf labels = hits →
      ∀ ip window, labels.countP (gotPast ip window) ≤ rateLimit) ∧
    ∀ clock evs db, Run (Observed Redis.ServerStep) (Redis.Db.empty clock) evs
      db → Redis.Lasting evs →
      evs.filterMap Redis.slotOf = hits.map Hit.slot →
      ∀ slot, evs.countP (letThrough rateLimit slot) ≤ rateLimit

/-- No hit drops what an earlier hit counted for a later one: between two hits on a key in one
window, all hits on the key are in this window, and so are those that find more than `maxHits`
keys. -/
def Undisturbed (hits : List Hit) : Prop :=
  ∀ past e between h rest, hits = past ++ e :: (between ++ h :: rest) → 0 < hitsOn h.slot past →
    ¬ (Inner.afterHits past).Drops e h.slot

/-! ### Redis -/

/-- The Redis store answers with the number of hits so far. -/
theorem RedisAnswers.eq {past : List Hit} {h : Hit} {answer : ℕ}
    (hanswers : RedisAnswers past h answer) : answer = hitsOn h.slot past + 1 := by
  obtain ⟨clock, evs, db, db', hrun, hlasting, hsame, hthere, hhandled⟩ := hanswers
  have hcount : Redis.hitsOn h.slot evs = hitsOn h.slot past := by
    rw [← Redis.count_filterMap_slotOf, hsame, List.count, List.countP_map]
    rfl
  rw [← hcount]
  exact Redis.hit_eq_hitsOn hrun hlasting hthere hhandled.eq.1.symm

/-- A request that is let through was counted within the limit. -/
theorem letThrough_eq_true {rateLimit : ℕ} {slot : String × ℕ} {e : Redis.ServerEvent}
    (h : letThrough rateLimit slot e) : ∃ windowSecs hits : ℕ,
      e.label = some ⟨.hit slot.1 slot.2 windowSecs, .ok hits⟩ ∧ hits ≤ rateLimit := by
  obtain ⟨before, label, after⟩ := e
  match label with
  | some ⟨.hit key window windowSecs, .ok hits⟩ =>
    obtain ⟨hslot, hfew⟩ := Bool.and_eq_true_iff.mp h
    obtain rfl := beq_iff_eq.mp hslot
    refine ⟨windowSecs, hits, rfl, ?_⟩
    simpa [tooMany] using hfew

/-- The Redis store keeps the limit. -/
theorem countP_letThrough_le {clock : ℕ} {evs : List Redis.ServerEvent} {db : Redis.Db}
    (hrun : Run (Observed Redis.ServerStep) (Redis.Db.empty clock) evs db)
    (hlasting : Redis.Lasting evs) (rateLimit : ℕ)
    (slot : String × ℕ) : evs.countP (letThrough rateLimit slot) ≤ rateLimit := by
  apply @countP_le_of_running _ (fun e => Redis.slotOf e == some slot)
  rintro past e rest rfl hthrough
  obtain ⟨windowSecs, hits, hlabel, hfew⟩ := letThrough_eq_true hthrough
  have hslot : Redis.slotOf e = some slot := by
    rw [Redis.slotOf, hlabel]
    rfl
  obtain ⟨before, after, hpast, ⟨rfl, rfl, hstep⟩, -⟩ := hrun.middle_inv
  rw [hlabel] at hstep
  -- the key has not expired since the window's first hit
  have hanswer : hits = Redis.hitsOn slot past + 1 := by
    cases hstep with
    | request handled =>
      exact Redis.hit_eq_hitsOn hpast hlasting.left
        (hlasting past e rest slot rfl hslot) handled.eq.1.symm
  refine ⟨beq_iff_eq.mpr hslot, ?_⟩
  show Redis.hitsOn slot past < rateLimit
  omega

/-! ### In memory -/

variable {rateLimit : ℕ} {s t : Inner} {label : Option (Arrival × Bool)}
  {labels : List (Option (Arrival × Bool))}

/-- A message from a known IP is a hit, and its answer decides. -/
theorem LimitStep.message_hit (hlimit : 0 < rateLimit) {a : Arrival} {refused : Bool}
    (hstep : LimitStep rateLimit s (some (a, refused)) t) {h : Hit} (hhit : a.hit = some h) :
    refused = tooMany rateLimit (.ok (s.hit h.key h.windowSecs h.now).1) ∧
      t = (s.hit h.key h.windowSecs h.now).2 := by
  cases hstep with
  | message hrun =>
    obtain ⟨ip, hip, rfl⟩ := Option.map_eq_some_iff.mp hhit
    rw [hip, overLimit, if_pos hlimit] at hrun
    exact ⟨(congrArg Prod.fst hrun).symm, (congrArg Prod.snd hrun).symm⟩

/-- Whatever else is done to the store, the counters stay. -/
theorem LimitStep.hits_other (hstep : LimitStep rateLimit s label t) (hhit : hitOf label = none) :
    t.hits = s.hits := by
  cases hstep with
  | message hrun =>
    rw [Option.map_eq_none_iff.mp hhit, overLimit] at hrun
    exact congrArg Inner.hits (congrArg Prod.snd hrun).symm
  | other hstep hother => exact MemoryStep.hits_other hstep hother

/-- After a run the counters are those of its hits. -/
theorem hits_eq_of_limitRun (hlimit : 0 < rateLimit)
    (hrun : Run (LimitStep rateLimit) Inner.empty labels s) :
    s.hits = (Inner.afterHits (hitsOf labels)).hits := by
  induction hrun with
  | nil => rfl
  | @snoc labels s t label _ hstep ih =>
    rw [hitsOf, List.filterMap_append, ← hitsOf]
    rcases hhit : hitOf label with _ | h
    · rw [hstep.hits_other hhit, ih, List.filterMap_cons_none hhit,
        List.filterMap_nil, List.append_nil]
    · match label with
      | some (a, refused) =>
        rw [(hstep.message_hit hlimit hhit).2, List.filterMap_cons_some hhit, List.filterMap_nil,
          Inner.afterHits_append]
        exact (Inner.hit_congr ih h.key h.windowSecs h.now).2

/-- Counting the labels that hit a slot counts the hits on it. -/
theorem countP_hitOf (slot : String × ℕ) (labels : List (Option (Arrival × Bool))) :
    labels.countP (fun label => (hitOf label).any fun h => h.slot == slot) =
      hitsOn slot (hitsOf labels) := by
  rw [hitsOn, hitsOf, List.countP_filterMap]
  congr 1
  funext label
  cases hitOf label <;> rfl

/-- Where hits are counted once, the in-memory store keeps the limit. -/
theorem countP_gotPast_le (hlimit : 0 < rateLimit)
    (hrun : Run (LimitStep rateLimit) Inner.empty labels s) (hcounted : CountedOnce (hitsOf labels))
    (ip : IpAddr) (window : ℕ) : labels.countP (gotPast ip window) ≤ rateLimit := by
  apply @countP_le_of_running _ fun label => (hitOf label).any fun h =>
    h.slot == (rateKey ip, window)
  rintro past label rest rfl hpast
  match label with
  | some (a, refused) =>
    obtain ⟨hclient, hunder⟩ := Bool.and_eq_true_iff.mp hpast
    obtain ⟨hip, hwindow⟩ := Bool.and_eq_true_iff.mp hclient
    have hhit : hitOf (some (a, refused)) = some ⟨rateKey ip, rateWindowSecs, a.now⟩ := by
      show a.ip.map _ = _
      rw [beq_iff_eq.mp hip]
      rfl
    have hslot : Hit.slot ⟨rateKey ip, rateWindowSecs, a.now⟩ = (rateKey ip, window) :=
      Prod.ext rfl (beq_iff_eq.mp hwindow)
    obtain ⟨u, v, hbefore, hstep, -⟩ := hrun.middle_inv
    -- the hit was counted exactly, so its answer says how many got past before
    have hcount := (hcounted (hitsOf past) _ (hitsOf rest) (by
      rw [hitsOf, List.filterMap_append, List.filterMap_cons_some hhit]
      rfl)).1
    rw [hslot] at hcount
    have hanswer := (hstep.message_hit hlimit hhit).1
    rw [(Inner.hit_congr (hits_eq_of_limitRun hlimit hbefore) _ _ _).1, hcount] at hanswer
    constructor
    · rw [hhit]
      exact beq_iff_eq.mpr hslot
    · rw [countP_hitOf]
      rw [hanswer] at hunder
      have hfew : ¬ rateLimit < hitsOn (rateKey ip, window) (hitsOf past) + 1 :=
        of_decide_eq_false ((Bool.not_eq_true' _).mp hunder)
      omega

/-- The in-memory store counts hits as the Redis store does, and so keeps the limit, if and only if
no hit drops what an earlier hit counted for a later one. -/
theorem countedOnce_iff (hits : List Hit) :
    CountedOnce hits ∧ LimitKept hits ↔ Undisturbed hits := by
  constructor
  -- an exact count means that no hit of the slot was purged
  · rintro ⟨hcounted, -⟩ past e between h rest hcut hpos hdrops
    have hexact := (Inner.hit_eq_count_iff (past ++ e :: between) h).mp
      (hcounted (past ++ e :: between) h rest (by rw [hcut, List.append_assoc, List.cons_append])).1
    exact absurd (hexact past e between rfl hdrops) (Nat.pos_iff_ne_zero.mp hpos)
  · intro hundisturbed
    have hcounted : CountedOnce hits := by
      intro past h rest hcut
      have hexact : ((Inner.afterHits past).hit h.key h.windowSecs h.now).1 =
        hitsOn h.slot past + 1 := by
        apply (Inner.hit_eq_count_iff past h).mpr
        rintro before e between rfl hdrops
        by_contra hpos
        exact hundisturbed before e between h rest
          (by rw [hcut, List.append_assoc, List.cons_append])
          (Nat.pos_of_ne_zero hpos) hdrops
      exact ⟨hexact, fun answer hanswers => hexact.trans hanswers.eq.symm⟩
    refine ⟨hcounted, fun rateLimit hlimit => ⟨?_, ?_⟩⟩
    -- in process, from the counts themselves; on the server, from the keys that last
    · rintro labels inner hrun rfl ip window
      exact countP_gotPast_le hlimit hrun hcounted ip window
    · intro clock evs db hrun hlasting _ slot
      exact countP_letThrough_le hrun hlasting rateLimit slot

/-- A client's messages around the end of a minute: the task of the second read the clock before it,
and takes the store between two tasks that read it after. -/
def aroundMinute (ip : IpAddr) : List Arrival := [⟨some ip, 60⟩, ⟨some ip, 59⟩, ⟨some ip, 60⟩]

/-- The third hit is answered with 1 again, and a limit of 1 lets both messages of its minute
pass. -/
theorem not_countedOnce :
    ¬ CountedOnce ((aroundMinute (.v4 ⟨1, 2, 3, 4⟩)).filterMap Arrival.hit) ∧
      ¬ LimitKept ((aroundMinute (.v4 ⟨1, 2, 3, 4⟩)).filterMap Arrival.hit) := by
  let ip : IpAddr := .v4 ⟨1, 2, 3, 4⟩
  let first : Hit := ⟨rateKey ip, 60, 60⟩
  let second : Hit := ⟨rateKey ip, 60, 59⟩
  constructor
  · intro hcounted
    have hthird := (hcounted [first, second] first [] rfl).1
    revert hthird
    decide +kernel
  · intro hkept
    -- a limit of one lets the third message past, because its hit counts as the first
    have hstep : ∀ (s : Inner) (now : ℕ), (s.hit (rateKey ip) 60 now).1 = 1 →
        LimitStep 1 s (some (⟨some ip, now⟩, false)) (s.hit (rateKey ip) 60 now).2 := by
      intro s now hone
      apply LimitStep.message
      show (tooMany 1 (.ok (s.hit (rateKey ip) 60 now).1), _) = _
      rw [hone]
      rfl
    have hrun : Run (LimitStep 1) Inner.empty ((aroundMinute ip).map fun a => some (a, false))
        (Inner.afterHits [first, second, first]) := by
      apply Run.cons (hstep Inner.empty 60 (by decide +kernel))
      apply Run.cons (hstep (Inner.afterHits [first]) 59 (by decide +kernel))
      exact Run.single (hstep (Inner.afterHits [first, second]) 60 (by decide +kernel))
    have hfew := (hkept 1 Nat.one_pos).1 _ _ hrun rfl ip 1
    revert hfew
    decide +kernel

end Transport
