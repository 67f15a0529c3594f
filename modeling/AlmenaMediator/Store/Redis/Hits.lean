import AlmenaMediator.Library.Transition
import AlmenaMediator.Store.Redis.Footprint

/-!
# The counters of hits

The server counts every hit for its key and window, and forgets a counter only when it expires. The
induction is over the run of the server, whoever sends the requests; the assumption `Lasting` is
that no counter expires that is still hit.
-/

namespace Store.Redis

open Transition

/-- The number a counter stands at. -/
def Db.hitsAt (db : Db) (slot : String × ℕ) : ℕ :=
  ((db.rate slot.1 slot.2).map Volatile.value).getD 0

variable {db db' : Db}

/-- A hit adds one to its counter, also when setting the deadline fails. -/
theorem exec_hit (key : String) (window windowSecs : ℕ) (db : Db) :
    (∃ deadline, ((hit key window windowSecs).exec db).2.rate =
      Function.update db.rate key (Function.update (db.rate key) window
        (some { value := db.hitsAt (key, window) + 1, deadline := deadline }))) ∧
      ∀ v, ((hit key window windowSecs).exec db).1 = .ok v → v = db.hitsAt (key, window) + 1 := by
  have hvalue : ((db.rate key window).getD { value := 0, deadline := none }).value =
      db.hitsAt (key, window) := by
    rw [Db.hitsAt]
    cases db.rate key window <;> rfl
  simp only [hit, Script.exec_bind, Script.exec_read, Script.exec_write,
    deadlineIn, Script.exec_ite, Script.exec_abort, Script.exec_pure, hvalue]
  split_ifs
  · exact ⟨⟨_, rfl⟩, fun _ h => nomatch h⟩
  · refine ⟨⟨some (db.clock + windowSecs * 1000), ?_⟩, fun v h => (Except.ok.inj h).symm⟩
    simp

/-- What a request counts for. -/
def Request.slotOf : Request → Option (String × ℕ)
  | .hit key window _ => some (key, window)
  | _ => none

variable {label : Option (Call ServerCall)} {slot : String × ℕ} {v : Volatile ℕ}

/-- A hit on a slot adds one to its counter. -/
theorem ServerStep.value_hit (hstep : ServerStep db label db')
    (hslot : (label.bind fun c => c.op.slotOf) = some slot) (hv : db'.rate slot.1 slot.2 = some v) :
    v.value = db.hitsAt slot + 1 := by
  cases hstep with
  | time ms => exact absurd hslot (Option.some_ne_none _).symm
  | @request _ c handled =>
    obtain ⟨op, reply⟩ := c
    obtain ⟨-, rfl⟩ := Program.Handled.eq handled
    cases op with
    | hit key window windowSecs =>
      obtain rfl := Option.some.inj hslot
      obtain ⟨⟨deadline, hrate⟩, -⟩ := exec_hit key window windowSecs db
      have hcounter := congrFun (congrFun hrate key) window
      rw [Function.update_self, Function.update_self] at hcounter
      exact congrArg Volatile.value (Option.some.inj (hv.symm.trans hcounter))
    | _ => exact absurd hslot (Option.some_ne_none _).symm

/-- Whatever else happens, a counter that is there was there. -/
theorem ServerStep.rate_other (hstep : ServerStep db label db')
    (hslot : (label.bind fun c => c.op.slotOf) ≠ some slot) (hv : db'.rate slot.1 slot.2 = some v) :
    db.rate slot.1 slot.2 = some v := by
  cases hstep with
  | time ms => exact (Option.filter_eq_some_iff.mp hv).1
  | @request _ c handled =>
    obtain ⟨op, reply⟩ := c
    obtain ⟨-, rfl⟩ := Program.Handled.eq handled
    by_cases htouches : op.Touches .rate
    -- a request that is no hit leaves the counters
    swap
    · have hkept : (server op db).2.rate = db.rate := server_sameArea htouches db
      exact (congrFun (congrFun hkept slot.1) slot.2).symm.trans hv
    · cases op with
      | hit key window windowSecs =>
        have hne : (key, window) ≠ slot := fun h => hslot (congrArg some h)
        obtain ⟨⟨deadline, hrate⟩, -⟩ := exec_hit key window windowSecs db
        have hcounter := (congrFun (congrFun hrate slot.1) slot.2).symm.trans hv
        -- a hit on another slot writes another counter
        by_cases hkey : slot.1 = key
        · have hwindow : slot.2 ≠ window := fun h => hne (Prod.ext hkey.symm h.symm)
          rw [hkey, Function.update_self, Function.update_of_ne hwindow] at hcounter
          rw [hkey]
          exact hcounter
        · rw [Function.update_of_ne hkey] at hcounter
          exact hcounter
      | _ => exact htouches.elim

/-- The server's steps, with the states around them. -/
abbrev ServerEvent : Type := Event Db (Option (Call ServerCall))

/-- What a step counts for. -/
def slotOf (e : ServerEvent) : Option (String × ℕ) := e.label.bind fun c => c.op.slotOf

/-- How many steps counted for this. -/
def hitsOn (slot : String × ℕ) (evs : List ServerEvent) : ℕ :=
  evs.countP fun e => slotOf e == some slot

/-- Counting a slot among the slots of the events counts the hits on it. -/
theorem count_filterMap_slotOf (slot : String × ℕ) (evs : List ServerEvent) :
    (evs.filterMap slotOf).count slot = hitsOn slot evs := by
  rw [List.count, List.countP_filterMap, hitsOn]
  congr 1
  funext e
  cases slotOf e <;> rfl

/-- No counter is gone when it is hit again. -/
def Lasting (evs : List ServerEvent) : Prop :=
  ∀ past e rest slot, evs = past ++ e :: rest → slotOf e = some slot → 0 < hitsOn slot past →
    (e.before.rate slot.1 slot.2).isSome

/-- A sequence of events that lasts has a beginning that lasts. -/
theorem Lasting.left {evs rest : List ServerEvent} (h : Lasting (evs ++ rest)) : Lasting evs :=
  fun past e rest' slot hcut => h past e (rest' ++ rest) slot (by simp [hcut])

/-- A counter that is not gone stands at the number of its hits. -/
theorem Db.hitsAt_eq {n : ℕ} (hcounts : ∀ v, db.rate slot.1 slot.2 = some v → v.value = n)
    (hthere : 0 < n → (db.rate slot.1 slot.2).isSome) : db.hitsAt slot = n := by
  rw [hitsAt]
  rcases hcounter : db.rate slot.1 slot.2 with _ | v
  · rcases n.eq_zero_or_pos with rfl | hpos
    · rfl
    · have hsome := hthere hpos
      rw [hcounter] at hsome
      exact absurd hsome Bool.false_ne_true
  · exact hcounts v hcounter

/-- While counters last, each that is there stands at the number of its hits. -/
theorem value_eq_hitsOn {clock : ℕ} {evs : List ServerEvent}
    (hrun : Run (Observed ServerStep) (Db.empty clock) evs db) (hlasting : Lasting evs) :
    ∀ slot v, db.rate slot.1 slot.2 = some v → v.value = hitsOn slot evs := by
  induction hrun with
  | nil => exact fun slot v h => nomatch h
  | @snoc evs s t e _ hstep ih =>
    have hcounts := ih hlasting.left
    obtain ⟨rfl, rfl, hstep⟩ := hstep
    intro slot v hv
    rw [hitsOn, List.countP_append, List.countP_singleton, ← hitsOn]
    by_cases hslot : slotOf e = some slot
    · rw [if_pos (beq_iff_eq.mpr hslot), hstep.value_hit hslot hv]
      congr 1
      exact Db.hitsAt_eq (hcounts slot) (hlasting evs e [] slot rfl hslot)
    · rw [if_neg fun h => hslot (beq_iff_eq.mp h)]
      exact hcounts slot v (hstep.rate_other hslot hv)

/-- The server answers a hit with the number of hits on the slot, while counters last. -/
theorem hit_eq_hitsOn {clock : ℕ} {evs : List ServerEvent}
    (hrun : Run (Observed ServerStep) (Db.empty clock) evs db) (hlasting : Lasting evs)
    {key : String} {window windowSecs answer : ℕ}
    (hthere : 0 < hitsOn (key, window) evs → (db.rate key window).isSome)
    (hanswer : (server (.hit key window windowSecs) db).1 = .ok answer) :
    answer = hitsOn (key, window) evs + 1 := by
  rw [(exec_hit key window windowSecs db).2 answer hanswer,
    Db.hitsAt_eq (value_eq_hitsOn hrun hlasting (key, window)) hthere]

end Store.Redis
