import AlmenaMediator.Store.Redis.Estates
import AlmenaMediator.Store.Turns

/-!
# Push pacing in Redis

The marker is the key `push-sent:{M}` with a time to live. A pickup shortens it to what is left of
the least time between two pushes, in whole seconds, and compares with `TTL`, which rounds: so a
turn may last up to two seconds longer than in memory, but never less long.
-/

namespace Store.Redis

open Script Turns

variable {db db' : Db} {m : String} {turn : Option Turn} {c : Call StoreCall}

/-- CLAIM_PUSH is SET NX EX: an error past the latest expiry Redis takes, refused while the marker
stands, and else the marker with its deadline. -/
theorem exec_claimPush (m : String) (now hold : ℕ) (db : Db) :
    (claimPush m now hold).exec db =
      if maxExpiry < db.clock + hold * 1000 then (.error "invalid expire time", db)
      else if (db.pushSent m).isSome then (.ok false, db)
      else (.ok true, { db with
        pushSent := Function.update db.pushSent m
          (some ⟨now, some (db.clock + hold * 1000)⟩) }) := by
  by_cases hmax : maxExpiry < db.clock + hold * 1000
  · simp [claimPush, deadlineIn, exec_bind, hmax]
  · simp only [claimPush, deadlineIn, exec_bind, exec_read, exec_ite, exec_pure,
      exec_write, hmax, ↓reduceIte]

/-- A pickup when nothing was pushed. -/
theorem exec_releasePush_none {now minInterval : ℕ} (h : db.pushSent m = none) :
    (releasePush m now minInterval).exec db = (.ok (), db) := by
  simp [releasePush, exec_bind, h]

/-- A pickup when something was pushed at `sent`, until `d`. -/
theorem exec_releasePush_some {now minInterval sent d : ℕ}
    (h : db.pushSent m = some ⟨sent, some d⟩) : (releasePush m now minInterval).exec db =
      if sent + minInterval ≤ now then
        (.ok (), { db with pushSent := Function.update db.pushSent m none })
      else if sent + minInterval - now < (d - db.clock + 500) / 1000 then
        if maxExpiry < db.clock + (sent + minInterval - now) *
          1000 then (.error "invalid expire time", db)
        else (.ok (), { db with
          pushSent := Function.update db.pushSent m
            (some ⟨sent, some (db.clock + (sent + minInterval - now) * 1000)⟩) })
      else (.ok (), db) := by
  by_cases hmax : maxExpiry < db.clock + (sent + minInterval - now) * 1000
  · simp [releasePush, deadlineIn, exec_bind, h, ttlSecs, hmax]
  · simp [releasePush, deadlineIn, exec_bind, h, ttlSecs, hmax]

/-- A mediation that was not removed keeps what the removal of others keeps. -/
theorem run_removeMediations_kept {inv : Db → Prop} {cutoff : ℕ} {idle removed : List String}
    (hinv : ∀ m', m' ≠ m → Keeps inv (removeMediation m' cutoff))
    (hrun : (removeMediations cutoff idle).run.run server db = (.ok removed, db'))
    (hm : m ∉ removed) (h : inv db) : inv db' := by
  induction idle generalizing db removed with
  | nil =>
    obtain ⟨-, rfl⟩ := Prod.mk.inj hrun
    exact h
  | cons first rest ih =>
    rcases run_removeMediations_cons cutoff first rest db with ⟨-, hskip⟩ | ⟨db₁, hgone, hcons⟩
    · exact ih (hskip ▸ hrun) hm h
    · obtain ⟨removed', db₂, hrest, -⟩ := run_removeMediations cutoff rest db₁
      obtain ⟨hremoved, rfl⟩ := Prod.mk.inj (hrun.symm.trans (hcons removed' db₂ hrest))
      obtain rfl := Except.ok.inj hremoved
      rw [List.mem_cons, not_or] at hm
      have hkept : inv ((removeMediation first cutoff).exec db).2 := hinv first (Ne.symm hm.1) db h
      have hdb₁ : ((removeMediation first cutoff).exec db).2 = db₁ := congrArg Prod.snd hgone
      exact ih hrest hm.2 (hdb₁ ▸ hkept)

/-! ## Seconds and milliseconds -/

section Milliseconds

variable {now clock d sent least until_ : ℕ}

/-- A turn cut down to a least interval that is over has lapsed. -/
theorem min_lapsed (hnow : now ≤ clock / 1000) (hover : sent + least ≤ now) :
    min until_ (sent + least) * 1000 ≤ clock := by
  omega

/-- A key is shortened to no less than the least time. -/
theorem min_le_shortened (hnow : now ≤ clock / 1000) :
    min until_ (sent + least) * 1000 ≤ clock + (sent + least - now) * 1000 := by
  omega

/-- A marker shortened to the rest of the least interval lapses less than two seconds after the
turn. -/
theorem shortened_lt_min (hnow : now = clock / 1000) (hover : ¬ sent + least ≤ now)
    (hleft : sent + least - now < (d - clock + 500) / 1000) (hd : d + 500 < (until_ + 2) * 1000) :
    clock + (sent + least - now) * 1000 + 500 < (min until_ (sent + least) + 2) * 1000 := by
  omega

/-- A key that is not shortened is gone soon after the least time. -/
theorem kept_lt_min (hnow : now = clock / 1000) (hover : ¬ sent + least ≤ now)
    (hleft : ¬ sent + least - now < (d - clock + 500) / 1000) (hd : d + 500 < (until_ + 2) * 1000) :
    d + 500 < (min until_ (sent + least) + 2) * 1000 := by
  have hkept : d - clock + 500 < (sent + least - now + 1) * 1000 :=
    (Nat.div_lt_iff_lt_mul (by decide)).mp (Nat.lt_succ_of_le (Nat.not_lt.mp hleft))
  have hleast : d + 500 < (sent + least + 2) * 1000 := by
    clear hleft hd
    omega
  rcases Nat.le_total until_ (sent + least) with h | h
  · rw [Nat.min_eq_left h]
    exact hd
  · rw [Nat.min_eq_right h]
    exact hleast

end Milliseconds

namespace Db

/-- The marker is there for at least as long as the last turn, and with clock readings up to date
(`exact`) for less than 1.5 s more; or it is gone and the turn has lapsed. -/
def HasTurn (exact : Prop) (m : String) (turn : Option Turn) (db : Db) : Prop :=
  (∃ last d, turn = some last ∧ db.pushSent m = some ⟨last.sent, some d⟩ ∧ db.clock ≤ d ∧
    last.until_ * 1000 ≤ d ∧ (exact → d + 500 < (last.until_ + 2) * 1000)) ∨
  (db.pushSent m = none ∧ ∀ last ∈ turn, last.until_ * 1000 ≤ db.clock)

variable {up : Prop}

/-- Marker and turn stay in step where neither the marker nor the clock changes. -/
theorem HasTurn.of_same {db' : Db} (h : db.HasTurn up m turn)
    (hmarker : db'.pushSent m = db.pushSent m)
    (hclock : db'.clock = db.clock) : db'.HasTurn up m turn := by
  rw [HasTurn, hmarker, hclock]
  exact h

/-- The last turn is that of the marker. -/
theorem HasTurn.later (h : db.HasTurn up m turn) (ms : ℕ) : (db.advance ms).HasTurn up m turn := by
  rcases h with ⟨last, d, rfl, hmarker, hclock, huntil, hexact⟩ | ⟨hnone, hlapsed⟩
  · have hkept : (db.advance ms).pushSent m =
        if db.clock + ms ≤ d then some ⟨last.sent, some d⟩ else none := by
      simp [advance, hmarker, Option.filter_some, Volatile.alive]
    by_cases halive : db.clock + ms ≤ d
    · exact .inl ⟨last, d, rfl, by rw [hkept, if_pos halive], halive, huntil, hexact⟩
    · -- the key expired
      refine .inr ⟨by rw [hkept, if_neg halive], fun last' hlast' => ?_⟩
      obtain rfl : last = last' := Option.some_inj.mp hlast'
      show last.until_ * 1000 ≤ db.clock + ms
      omega
  · refine .inr ⟨by simp [advance, hnone], fun last hlast => ?_⟩
    exact (hlapsed last hlast).trans (Nat.le_add_right _ _)

/-- A claim keeps the marker of the last turn. `SET` wants a second at least, so a turn that is
taken for no time lasts longer than it should. -/
theorem hasTurn_claim {now hold : ℕ} {reply : Except StoreError Bool} (h : db.HasTurn up m turn)
    (hexec : (claimPush m now (max hold 1)).exec db = (reply, db')) (hnow : now ≤ db.clock / 1000)
    (hup : up → now = db.clock / 1000 ∧ 0 < hold) :
    db'.HasTurn up m (afterCall m turn ⟨.claimPush m now hold, reply⟩) := by
  rw [exec_claimPush] at hexec
  split at hexec
  · obtain ⟨rfl, rfl⟩ := Prod.mk.inj hexec
    exact h
  split at hexec
  · obtain ⟨rfl, rfl⟩ := Prod.mk.inj hexec
    rwa [afterCall_refused]
  · obtain ⟨rfl, rfl⟩ := Prod.mk.inj hexec
    rw [afterCall_claimed]
    refine .inl ⟨_, _, rfl, Function.update_self .., by simp, ?_, fun hexact => ?_⟩
    · show (now + hold) * 1000 ≤ db.clock + max hold 1 * 1000
      omega
    · obtain ⟨hnow, hhold⟩ := hup hexact
      show db.clock + max hold 1 * 1000 + 500 < (now + hold + 2) * 1000
      omega

/-- A release on the server keeps the marker and the turn in step, whichever branch the script
takes. -/
theorem hasTurn_release {now minInterval : ℕ} {reply : Except StoreError Unit}
    (h : db.HasTurn up m turn) (hexec : (releasePush m now minInterval).exec db = (reply, db'))
    (hnow : now ≤ db.clock / 1000) (hup : up → now = db.clock / 1000) :
    db'.HasTurn up m (afterCall m turn ⟨.releasePush m now minInterval, reply⟩) := by
  rcases h with ⟨last, d, rfl, hmarker, hclock, huntil, hexact⟩ | ⟨hnone, hlapsed⟩
  · rw [exec_releasePush_some hmarker] at hexec
    split at hexec
    · -- the least time is over, and the key is deleted
      obtain ⟨rfl, rfl⟩ := Prod.mk.inj hexec
      rw [afterCall_released]
      refine .inr ⟨Function.update_self .., fun last' hlast' => ?_⟩
      obtain rfl : last.cut minInterval = last' := Option.some_inj.mp hlast'
      exact min_lapsed hnow ‹_›
    split at hexec
    · split at hexec
      · obtain ⟨rfl, rfl⟩ := Prod.mk.inj hexec
        exact .inl ⟨last, d, rfl, hmarker, hclock, huntil, hexact⟩
      · -- the key expires sooner
        obtain ⟨rfl, rfl⟩ := Prod.mk.inj hexec
        rw [afterCall_released]
        exact .inl ⟨last.cut minInterval, _, rfl, Function.update_self .., Nat.le_add_right _ _,
          min_le_shortened hnow, fun h => shortened_lt_min (hup h) ‹_› ‹_› (hexact h)⟩
    · -- what is left of the key, rounded, is no more than the least time
      obtain ⟨rfl, rfl⟩ := Prod.mk.inj hexec
      rw [afterCall_released]
      exact .inl ⟨last.cut minInterval, d, rfl, hmarker, hclock,
        (Nat.mul_le_mul_right 1000 (last.cut_until_le minInterval)).trans huntil,
        fun h => kept_lt_min (hup h) ‹_› ‹_› (hexact h)⟩
  -- there is no marker, so the turn had lapsed and a shorter one has too
  · rw [exec_releasePush_none hnone] at hexec
    obtain ⟨rfl, rfl⟩ := Prod.mk.inj hexec
    rw [afterCall_released]
    refine .inr ⟨hnone, fun last' hlast' => ?_⟩
    obtain ⟨last, hlast, rfl⟩ := Option.mem_map.mp hlast'
    exact (Nat.mul_le_mul_right 1000 (last.cut_until_le minInterval)).trans (hlapsed last hlast)

/-- Removing another mediation keeps the marker and the turn of this one in step. -/
theorem keeps_hasTurn_removeMediation {m' : String} (cutoff : ℕ) (hm : m' ≠ m) :
    Keeps (HasTurn up m turn) (removeMediation m' cutoff) := by
  intro db h
  rcases exec_removeMediation m' cutoff db with ⟨-, heq⟩ | ⟨-, body, heq⟩
  · rwa [heq]
  · rw [heq]
    exact h.of_same (Function.update_of_ne hm.symm _ _) rfl

/-- A call of the Redis store that reads the clock no later than the server has it keeps marker and
turn in step. -/
theorem hasTurn_call (h : db.HasTurn up m turn) (hstep : Program.Handled redis db c db')
    (hreads : c.op.Reads (· ≤ db.clock / 1000)) (hup : up → c.op.Reads (· = db.clock / 1000))
    (hholds : up → ∀ m' now hold, c.op = .claimPush m' now hold → 0 < hold) :
    db'.HasTurn up m (afterCall m turn c) := by
  have hclock : db'.clock = db.clock := by
    obtain ⟨-, rfl⟩ := hstep.eq
    exact clock_run (method c.op) db
  by_cases hwrites : c.op.Writes .pushMarker m
  -- a call that does not write the marker is no event of the turns
  swap
  · have hsame : db'.pushSent m = db.pushSent m := redis_same hstep hwrites
    rw [afterCall, turnEvent_eq_none hwrites]
    exact h.of_same hsame hclock
  obtain ⟨op, reply⟩ := c
  cases op with
  | removeIdleMediations cutoff limit =>
    have hrun : redis (.removeIdleMediations cutoff limit) db = (reply, db') := hstep
    rw [redis_removeIdleMediations] at hrun
    split at hrun
    · obtain ⟨rfl, rfl⟩ := Prod.mk.inj hrun
      exact h
    · obtain ⟨removed, db₂, hloop, -⟩ := run_removeMediations cutoff
        (zrange cutoff limit db.seen) db
      obtain ⟨rfl, rfl⟩ := Prod.mk.inj (hrun.symm.trans hloop)
      rw [afterCall_removed]
      split
      · rename_i hm
        -- the mediation is removed, and its marker with it
        have hgone : ¬ db'.Has .pushMarker m := run_removeMediations_lacks cutoff _ hloop (.inl hm)
        exact .inr ⟨not_not.mp hgone, fun last hlast => absurd hlast (Option.not_mem_none last)⟩
      · rename_i hm
        exact run_removeMediations_kept
          (fun _ hm' => keeps_hasTurn_removeMediation cutoff hm') hloop hm h
  | claimPush m' now hold =>
    obtain ⟨rfl, -⟩ := hwrites
    have hexec : (claimPush m' now (max hold 1)).exec db = (reply, db') := hstep
    exact hasTurn_claim h hexec hreads fun hexact => ⟨hup hexact, hholds hexact m' now hold rfl⟩
  | releasePush m' now minInterval =>
    obtain ⟨rfl, -⟩ := hwrites
    have hexec : (releasePush m' now minInterval).exec db = (reply, db') := hstep
    exact hasTurn_release h hexec hreads hup
  | grantMediation | touchMediation | addRecipient | removeRecipient | enqueue | summary | peek
  | remove | setDevice | removeDevice =>
    simp [Op.Writes] at hwrites
  | _ => exact hwrites.elim

/-- A claim that is answered finds no marker, or one. -/
theorem claimed_eq {now hold : ℕ} {claimed : Bool}
    (hstep : Program.Handled redis db ⟨.claimPush m now hold, .ok claimed⟩ db') :
    claimed = (db.pushSent m).isNone := by
  have hexec : (claimPush m now (max hold 1)).exec db = (.ok claimed, db') := hstep
  rw [exec_claimPush] at hexec
  split at hexec
  · cases (Prod.mk.inj hexec).1
  split at hexec
  · rename_i hsome
    obtain rfl := Except.ok.inj (Prod.mk.inj hexec).1
    rw [Option.isNone_eq_false_iff.mpr hsome]
  · rename_i hnone
    obtain rfl := Except.ok.inj (Prod.mk.inj hexec).1
    simpa using hnone

end Db

/-- `RedisStore`, whose clock is the server's. -/
def pushStore : PushStore Db where
  env := Program.Handled redis
  clock db := db.clock / 1000
  later db db' := ∃ ms, db' = db.advance ms
  HasTurn := Db.HasTurn False
  clock_call := by
    rintro db db' c hstep
    obtain ⟨-, rfl⟩ := hstep.eq
    rw [show (redis c.op db).2.clock = db.clock from clock_run (method c.op) db]
  clock_later := by
    rintro db db' ⟨ms, rfl⟩
    exact Nat.div_le_div_right (Nat.le_add_right _ _)
  hasTurn_call h hstep hreads := Db.hasTurn_call h hstep hreads False.elim False.elim
  hasTurn_later := by
    rintro db db' m turn h ⟨ms, rfl⟩
    exact h.later ms
  lapsed := by
    rintro db db' m now hold turn h hstep hnow last hlast
    have hfree := Db.claimed_eq hstep
    rcases h with ⟨_, d, -, hmarker, -⟩ | ⟨-, hlapsed⟩
    · simp [hmarker] at hfree
    · exact (Nat.le_div_iff_mul_le (by decide)).mpr (hlapsed last hlast)

variable {labels : List (Option (Call StoreCall))} {clock : ℕ}

/-- With clock readings up to date, the marker is that of the last turn. -/
theorem hasTurn_of_run
    (hrun : Transition.Run (pushStore.Step fun clock now => now = clock) (.empty clock) labels db)
    (hholds : ∀ m' now hold reply, some ⟨.claimPush m' now hold, reply⟩ ∈ labels → 0 < hold) :
    db.HasTurn True m (current (turnEvents m labels)) := by
  induction hrun with
  | nil => exact .inr ⟨rfl, fun last hlast => absurd hlast (Option.not_mem_none last)⟩
  | snoc _ hstep ih =>
    have ih := ih fun m' now hold reply hlabel =>
      hholds m' now hold reply (List.mem_append_left _ hlabel)
    cases hstep with
    | @call _ c hreads hcall =>
      rw [current_snoc_call]
      refine Db.hasTurn_call ih hcall (hreads.imp fun _ h => h.le) (fun _ => hreads) ?_
      intro _ m' now hold hop
      obtain ⟨op, reply⟩ := c
      obtain rfl : op = .claimPush m' now hold := hop
      exact hholds m' now hold reply (by simp)
    | later hlater =>
      obtain ⟨ms, rfl⟩ := hlater
      rw [turnEvents_snoc, Option.bind_none, Option.toList_none, List.append_nil]
      exact ih.later ms

/-- With clock readings up to date, a claim is refused only when the last turn had not lapsed two
seconds ago, and succeeds only when it has lapsed. -/
theorem claim_between
    (hrun : Transition.Run (pushStore.Step fun clock now => now = clock) (.empty clock) labels db)
    (hholds : ∀ m' now hold reply, some ⟨.claimPush m' now hold, reply⟩ ∈ labels → 0 < hold)
    {hold : ℕ} {claimed : Bool}
    (hclaim : Program.Handled redis db ⟨.claimPush m (db.clock / 1000) hold, .ok claimed⟩ db') :
    (claimed = true → ¬ Held (db.clock / 1000) (turnEvents m labels)) ∧
      (claimed = false → ∀ now, now + 2 ≤ db.clock / 1000 → Held now (turnEvents m labels)) := by
  have hturn := @hasTurn_of_run db m labels clock hrun hholds
  have hfree := Db.claimed_eq hclaim
  refine ⟨?_, ?_⟩
  -- the marker lapses no earlier than the turn, and within two seconds after it
  · rintro rfl hheld
    obtain ⟨last, hlast, huntil⟩ := held_iff.mp hheld
    rcases hturn with ⟨_, d, -, hmarker, -⟩ | ⟨-, hlapsed⟩
    · simp [hmarker] at hfree
    · have hover := hlapsed last hlast
      omega
  · rintro rfl now hnow
    rcases hturn with ⟨last, d, hlast, -, halive, -, hexact⟩ | ⟨hnone, -⟩
    · have hd := hexact trivial
      exact held_iff.mpr ⟨last, hlast, by omega⟩
    · simp [hnone] at hfree

/-- Claiming the turn runs CLAIM_PUSH with a hold of at least one second, which SET EX asks for. -/
theorem redis_claimPush (m : String) (now hold : ℕ) (db : Db) :
    redis (.claimPush m now hold) db = (claimPush m now (max hold 1)).exec db := rfl

/-- Releasing the turn runs RELEASE_PUSH with what the caller gives. -/
theorem redis_releasePush (m : String) (now minInterval : ℕ) (db : Db) :
    redis (.releasePush m now minInterval) db = (releasePush m now minInterval).exec db := rfl

/-- The server with a marker. -/
def withMarker (clock : ℕ) (marker : Option (Volatile ℕ)) : Db :=
  { Db.empty clock with pushSent := Function.update (Db.empty clock).pushSent "m" marker }

/-- In the example the granted claim at 10 finds that no turn has been held for two seconds or more.
-/
theorem claim_between_pickedUp :
    (false = true → ¬ Held 10 (turnEvents "m" Inner.pickedUp)) ∧
      (false = false → ∀ now, now + 2 ≤ 10 → Held now (turnEvents "m" Inner.pickedUp)) := by
  have hclaimed : Program.Handled redis (.empty 0) ⟨.claimPush "m" 0 60, .ok true⟩
      (withMarker 0 (some ⟨0, some 60000⟩)) := by
    rw [Program.Handled, redis_claimPush, exec_claimPush, if_neg (by decide), if_neg (by decide)]
    rfl
  obtain ⟨db, hdb⟩ : ∃ db, db = (withMarker 0 (some ⟨0, some 60000⟩)).advance 10000 := ⟨_, rfl⟩
  have hmarker : db.pushSent "m" = some ⟨0, some 60000⟩ := by
    rw [hdb]
    decide
  have hclock : db.clock = 10000 := by rw [hdb]; rfl
  -- the pickup at 10 shortens the marker to the least interval
  have hcut : Program.Handled redis db ⟨.releasePush "m" 10 30, .ok ()⟩ { db with
      pushSent := Function.update db.pushSent "m"
        (some ⟨0, some (db.clock + (0 + 30 - 10) * 1000)⟩) } := by
    rw [Program.Handled, redis_releasePush, exec_releasePush_some hmarker, if_neg (by decide),
      hclock, if_pos (by decide), if_neg (by decide)]
  have hrefused : ∀ db', db'.clock = 10000 → (db'.pushSent "m").isSome →
      Program.Handled redis db' ⟨.claimPush "m" 10 60, .ok false⟩ db' := by
    intro db' hclock hsome
    rw [Program.Handled, redis_claimPush, exec_claimPush, hclock, if_neg (by decide), if_pos hsome]
  have hnow : 10 = db.clock / 1000 := by rw [hclock]
  have hrun : Transition.Run (pushStore.Step fun clock now =>
    now = clock) (.empty 0) Inner.pickedUp _ :=
    .cons (.call rfl hclaimed) (.cons (.later ⟨10000, hdb⟩)
      (.single (.call hnow hcut)))
  obtain ⟨db', hdb'⟩ : ∃ db', db' = { db with
    pushSent := Function.update db.pushSent "m"
      (some ⟨0, some (db.clock + (0 + 30 - 10) * 1000)⟩) } := ⟨_, rfl⟩
  rw [← hdb'] at hrun
  have hclock' : db'.clock = 10000 := by rw [hdb']; exact hclock
  have hseconds : db'.clock / 1000 = 10 := by rw [hclock']
  have hrefused' := hrefused db' hclock' (by rw [hdb']; simp)
  rw [← hseconds] at hrefused' ⊢
  have hholds : ∀ m' now hold reply,
      some ⟨.claimPush m' now hold, reply⟩ ∈ Inner.pickedUp → 0 < hold := by
    intro m' now hold reply hlabel
    obtain ⟨⟨-, -, rfl⟩, -⟩ : (m' = "m" ∧ now = 0 ∧ hold = 60) ∧ reply = Except.ok true := by
      simpa [Inner.pickedUp] using hlabel
    decide
  exact claim_between hrun hholds hrefused'

end Store.Redis
