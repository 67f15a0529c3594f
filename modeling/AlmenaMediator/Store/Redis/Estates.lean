import AlmenaMediator.Store.Estates
import AlmenaMediator.Store.Redis.Queues

/-!
# What a mediation leaves behind in Redis

`RedisStore` as an `EstateStore`. A key that expires only takes something away, and
`REMOVE_MEDIATION` deletes all the keys of a mediation in one script.
-/

namespace Store.Redis

open Script

namespace Db

/-- The mediation has something of the kind. -/
def Has (b : Belonging) (m : String) (db : Db) : Prop :=
  match b with
  | .recipient => db.recipients m ≠ []
  | .queue => db.entries m ≠ []
  | .device => ∃ service, db.devices m service ≠ none
  | .pushMarker => db.pushSent m ≠ none

/-- An owner has the DID among its recipients. -/
def OwnersListed (db : Db) : Prop := ∀ r m, db.owner r = some m → r ∈ db.recipients m

variable {db db' : Db} {m : String} {b : Belonging} {c : Call StoreCall}

/-- Who has what is read off the part it is kept in. -/
theorem Has.of_same (hsame : db.Same b.part m db') (h : db'.Has b m) : db.Has b m := by
  cases b with
  | recipient =>
    have hrecipients : db'.recipients m = db.recipients m := hsame.1
    simpa only [Has, hrecipients] using h
  | queue =>
    have hqueue : db'.queue m = db.queue m := hsame.1
    simpa only [Has, Db.entries, hqueue] using h
  | device =>
    have hdevices : db'.devices m = db.devices m := hsame
    simpa only [Has, hdevices] using h
  | pushMarker =>
    have hmarker : db'.pushSent m = db.pushSent m := hsame
    simpa only [Has, hmarker] using h

/-- Time gives nothing. -/
theorem Has.of_advance {ms : ℕ} (h : (db.advance ms).Has b m) : db.Has b m := by
  cases b with
  | recipient => exact h
  | queue =>
    -- a stream that expired is empty, and so is one that was empty
    intro hnone
    refine h ?_
    rw [Db.entries] at hnone ⊢
    change (((db.queue m).filter _).map _).getD [] = []
    cases hqueue : db.queue m with
    | none => rfl
    | some v =>
      rw [hqueue] at hnone
      rw [Option.filter_some]
      split
      · exact hnone
      · rfl
  | device => exact h
  | pushMarker =>
    intro hnone
    refine h ?_
    change (db.pushSent m).filter _ = none
    rw [hnone, Option.filter_none]

/-- An empty queue is empty after entries are deleted. -/
theorem entries_keepEntries_nil {m' : String} (p : Entry → Bool) (h : db.entries m = []) :
    (db.keepEntries m' p).entries m = [] := by
  by_cases hm : m = m'
  · subst hm
    rw [Db.entries_keepEntries, h, List.filter_nil]
  · rwa [Db.entries, Db.queue_keepEntries db m' p hm]

/-- A mediation that the script removes has nothing left, and the others get nothing. -/
theorem keeps_lacks_removeMediation (m' : String) (cutoff : ℕ) :
    Keeps (fun db => ¬ db.Has b m) (removeMediation m' cutoff) := by
  intro db hlacks
  rcases exec_removeMediation m' cutoff db with ⟨-, heq⟩ | ⟨-, body, heq⟩
  · rwa [heq]
  · rw [heq]
    by_cases hm : m = m'
    · subst hm
      cases b <;> simp [Has, Db.entries]
    · cases b <;> simpa [Has, Db.entries, hm] using hlacks

/-- A queue that is empty stays so when entries are trimmed or removed. -/
theorem keeps_lacks_trim (m' : String) (minId : StreamId) :
    Keeps (fun db => ¬ db.Has .queue m) (trim m' minId) :=
  keeps_trim (fun _ p h hkept => h fun hnone => hkept (entries_keepEntries_nil p hnone))
    (fun _ _ h => h) minId

/-- REMOVE fills no empty queue. -/
theorem keeps_lacks_remove (m' : String) (ids : List String) :
    Keeps (fun db => ¬ db.Has .queue m) (remove m' ids) :=
  keeps_remove (fun _ p h hkept => h fun hnone => hkept (entries_keepEntries_nil p hnone))
    (fun _ _ h => h) (fun _ _ h => h) ids

/-- A mediation without recipients has none to remove. -/
theorem keeps_lacks_removeRecipient (recipient : String) :
    Keeps (fun db => ¬ db.Has .recipient m) (removeRecipient m recipient) := by
  intro db hlacks
  rw [exec_removeRecipient]
  split
  · exact hlacks
  split
  · exact hlacks
  have hnone : db.recipients m = [] := not_not.mp hlacks
  simp [Has, hnone]

/-- Deleting a device gives none. -/
theorem keeps_lacks_setNoDevice (service : Service) :
    Keeps (fun db => ¬ db.Has .device m) (setDevice m service none) := by
  refine keeps_write fun db hlacks => ?_
  rintro ⟨service', hdevice⟩
  refine hlacks ⟨service', fun hnone => hdevice ?_⟩
  by_cases hservice : service' = service <;> simp [hservice, hnone]

/-- A pickup sets no marker. -/
theorem keeps_lacks_releasePush (now minInterval : ℕ) :
    Keeps (fun db => ¬ db.Has .pushMarker m) (releasePush m now minInterval) := by
  intro db hlacks
  have hnone : db.pushSent m = none := not_not.mp hlacks
  simp only [releasePush, exec_bind, exec_read, hnone, exec_pure]
  exact hlacks

/-- A request of a method that only takes gives nothing. -/
theorem keeps_lacks_of_takes {op : Op} {request : Request} (hsends : Sends op request)
    (htakes : op.Takes b m) : Keeps (fun db => ¬ db.Has b m) request.script := by
  cases op with
  | removeIdleMediations cutoff limit =>
    rcases hsends with rfl | ⟨m', rfl⟩
    · exact keeps_zrangeLimit _ _ _
    · exact keeps_lacks_removeMediation m' cutoff
  | removeRecipient m' recipient =>
    obtain ⟨rfl, rfl⟩ := htakes
    obtain rfl : request = _ := hsends
    exact keeps_lacks_removeRecipient recipient
  -- each request of the method only drops what it touches
  | summary m' recipient now ttlSecs =>
    obtain ⟨rfl, rfl⟩ := htakes
    rcases hsends with rfl | rfl
    · exact keeps_lacks_trim _ _
    · exact keeps_read _
  | peek m' recipient limit now ttlSecs =>
    obtain ⟨rfl, rfl⟩ := htakes
    rcases hsends with rfl | rfl | ⟨ids, rfl⟩ | ⟨ids, rfl⟩
    · exact keeps_lacks_trim _ _
    · exact keeps_read _
    · exact keeps_read _
    · exact keeps_lacks_remove _ _
  | remove m' ids =>
    obtain ⟨rfl, rfl⟩ := htakes
    obtain rfl : request = _ := hsends
    exact keeps_lacks_remove _ _
  | setDevice m' service device =>
    cases device with
    | some device => exact htakes.elim
    | none =>
      obtain ⟨rfl, rfl⟩ := htakes
      obtain rfl : request = _ := hsends
      exact keeps_lacks_setNoDevice service
  | removeDevice m' service token =>
    obtain ⟨rfl, rfl⟩ := htakes
    obtain rfl : request = _ := hsends
    exact keeps_bind (keeps_read _) fun _ =>
      keeps_ite (keeps_lacks_setNoDevice service) (keeps_pure _)
  | releasePush m' now minIntervalSecs =>
    obtain ⟨rfl, rfl⟩ := htakes
    obtain rfl : request = _ := hsends
    exact keeps_lacks_releasePush now minIntervalSecs
  | _ => exact htakes.elim

/-- A request gives a mediation something only when the method may. -/
theorem keeps_lacks {op : Op} {request : Request} (hsends : Sends op request)
    (hadds : ¬ op.Adds b m) : Keeps (fun db => ¬ db.Has b m) request.script := by
  by_cases hwrites : op.Writes b.part m
  · exact keeps_lacks_of_takes hsends ((Op.adds_or_takes hwrites).resolve_left hadds)
  · -- the method does not write where it is kept
    intro db hlacks h
    exact hlacks (Has.of_same (keeps_same_script hsends hwrites db (Same.refl _ _ _)) h)

/-- What every request of a method keeps, the method keeps. -/
theorem keeps_method {inv : Db → Prop} {op : Op}
    (hrequest : ∀ request, Sends op request → Keeps inv request.script) (h : inv db) :
    inv (redis op db).2 := by
  refine ((method_sends op).sound inv ?_ h (Program.run_executes server _ db)).2.1
  intro s c' t hs hsends hstep
  have ht : (c'.op.script.exec s).2 = t := congrArg Prod.snd hstep
  exact ⟨trivial, ht ▸ hrequest c'.op hsends s hs⟩

/-- A call gives a mediation something only if it may. -/
theorem gained (hstep : RedisStep db c db') (h : db'.Has b m) : db.Has b m ∨ c.op.Adds b m := by
  obtain ⟨ms, hhandled⟩ := hstep
  obtain ⟨-, rfl⟩ := hhandled.eq
  by_contra hcon
  rw [not_or] at hcon
  have hlacks : ¬ (db.advance ms).Has b m := fun hhas => hcon.1 hhas.of_advance
  exact keeps_method (fun _ hsends => keeps_lacks hsends hcon.2) hlacks h

/-! ## Removing mediations -/

/-- The mediations removed have nothing left. -/
theorem run_removeMediations_lacks (cutoff : ℕ) (idle : List String) {removed : List String}
    (hrun : (removeMediations cutoff idle).run.run server db = (.ok removed, db'))
    (h : m ∈ removed ∨ ¬ db.Has b m) : ¬ db'.Has b m := by
  induction idle generalizing db removed with
  | nil =>
    obtain ⟨hremoved, rfl⟩ := Prod.mk.inj hrun
    obtain rfl := Except.ok.inj hremoved
    exact h.resolve_left List.not_mem_nil
  | cons first rest ih =>
    -- the first one is skipped, or its keys are deleted and the rest are gone through
    rcases run_removeMediations_cons cutoff first rest db with ⟨-, hskip⟩ | ⟨db₁, hgone, hcons⟩
    · exact ih (hskip ▸ hrun) h
    · obtain ⟨removed', db₂, hrest, -⟩ := run_removeMediations cutoff rest db₁
      obtain ⟨hremoved, rfl⟩ := Prod.mk.inj (hrun.symm.trans (hcons removed' db₂ hrest))
      obtain rfl := Except.ok.inj hremoved
      refine ih hrest ?_
      by_cases hm : m = first
      · -- the script has just deleted all its keys
        subst hm
        right
        rcases exec_removeMediation m cutoff db with ⟨-, heq⟩ | ⟨-, body, heq⟩
        · exact nomatch (Prod.mk.inj (heq.symm.trans hgone)).1
        · obtain rfl := (Prod.mk.inj (heq.symm.trans hgone)).2
          cases b <;> simp [Has, Db.entries]
      · refine h.imp (fun hm' => (List.mem_cons.mp hm').resolve_left hm) fun hlacks => ?_
        have hkept : ¬ Has b m ((removeMediation first cutoff).exec db).2 :=
          keeps_lacks_removeMediation first cutoff db hlacks
        have hdb₁ : ((removeMediation first cutoff).exec db).2 = db₁ := congrArg Prod.snd hgone
        rwa [hdb₁] at hkept

/-! ## The agreement of owners and recipients -/

/-- The recipients of a removed mediation have no owner any more, and the others stay listed. -/
theorem keeps_ownersListed_removeMediation (m' : String) (cutoff : ℕ) :
    Keeps OwnersListed (removeMediation m' cutoff) := by
  intro db h
  rcases exec_removeMediation m' cutoff db with ⟨-, heq⟩ | ⟨-, body, heq⟩
  · rwa [heq]
  · rw [heq]
    intro r m howner
    simp only [Option.ite_none_left_eq_some] at howner ⊢
    by_cases hm : m = m'
    · subst hm
      exact absurd ⟨h r m howner.2, howner.2⟩ howner.1
    · rw [Function.update_of_ne hm]
      exact h r m howner.2

/-- A recipient that is added is listed, and the others stay so. -/
theorem keeps_ownersListed_addRecipient (m' recipient : String) (max : ℕ) :
    Keeps OwnersListed (addRecipient m' recipient max) := by
  intro db h
  rw [exec_addRecipient]
  split_ifs with _ _ _ hlists
  · exact h
  · exact h
  · exact h
  · intro r m howner
    by_cases hr : r = recipient
    · subst hr
      obtain rfl : m' = m := by simpa using howner
      simpa only [Function.update_self] using hlists
    · have hlisted := h r m (by simpa [hr] using howner)
      by_cases hm : m = m'
      · subst hm
        simpa only [Function.update_self] using hlisted
      · simpa [hm] using hlisted
  -- the new recipient is put into the set of its mediation
  · intro r m howner
    by_cases hr : r = recipient
    · subst hr
      obtain rfl : m' = m := by simpa using howner
      simp
    · have hlisted := h r m (by simpa [hr] using howner)
      by_cases hm : m = m'
      · subst hm
        simp [hlisted]
      · simpa [hm] using hlisted

/-- A recipient that is removed has no owner, and the others stay listed. -/
theorem keeps_ownersListed_removeRecipient (m' recipient : String) :
    Keeps OwnersListed (removeRecipient m' recipient) := by
  intro db h
  rw [exec_removeRecipient]
  split_ifs
  · exact h
  · exact h
  · intro r m howner
    by_cases hr : r = recipient
    · subst hr
      simp at howner
    · have hlisted := h r m (by simpa [hr] using howner)
      by_cases hm : m = m'
      · subst hm
        simpa using (List.mem_erase_of_ne hr).mpr hlisted
      · simpa [hm] using hlisted

/-- Owners stay listed. -/
theorem keeps_ownersListed (request : Request) : Keeps OwnersListed request.script := by
  by_cases htouches : request.Touches .registry
  · cases request with
    | removeMediation m' cutoff => exact keeps_ownersListed_removeMediation m' cutoff
    | addRecipient m' recipient max => exact keeps_ownersListed_addRecipient m' recipient max
    | removeRecipient m' recipient => exact keeps_ownersListed_removeRecipient m' recipient
    | _ => exact htouches.elim
  · intro db h
    obtain ⟨howner, hrecipients⟩ := server_sameArea htouches db
    intro r m hr
    change r ∈ Db.recipients (server request db).2 m
    rw [hrecipients]
    exact h r m (howner ▸ hr)

/-- A mediation stays granted until it is removed. -/
theorem kept (hstep : RedisStep db c db') (h : (db.granted m).isSome) :
    (db'.granted m).isSome ∨ Removes m c := by
  obtain ⟨ms, hhandled⟩ := hstep
  -- only granting and removing write the grant, and granting `m` again keeps it
  by_cases hwrites : c.op.Writes .grant m
  swap
  · have hsame : db'.granted m = db.granted m := redis_same hhandled hwrites
    exact .inl (hsame ▸ h)
  obtain ⟨op, reply⟩ := c
  obtain ⟨hreply, rfl⟩ := hhandled.eq
  cases op with
  | grantMediation m' now =>
    obtain ⟨rfl, -⟩ := hwrites
    left
    change (Function.update (db.advance ms).granted m' _ m').isSome
    simp
  | removeIdleMediations cutoff limit =>
    rw [redis_removeIdleMediations] at hreply ⊢
    split at hreply
    · rw [if_pos ‹_›]
      exact .inl h
    · rw [if_neg ‹_›]
      obtain ⟨removed, db₂, hrun, hkept⟩ :=
        run_removeMediations cutoff (zrange cutoff limit (db.advance ms).seen) (db.advance ms)
      rw [hrun] at hreply ⊢
      obtain rfl : reply = _ := hreply
      by_cases hm : m ∈ removed
      · exact .inr hm
      · left
        rw [(hkept m hm).2]
        exact h
  | touchMediation | addRecipient | removeRecipient | enqueue | summary | peek | remove | setDevice
  | removeDevice | claimPush | releasePush =>
    obtain ⟨-, hpart⟩ := hwrites
    cases hpart
  | _ => exact hwrites.elim

/-- A mediation that a call removes has nothing left. -/
theorem cleared (hstep : RedisStep db c db') (hremoves : Removes m c) : ¬ db'.Has b m := by
  obtain ⟨ms, hhandled⟩ := hstep
  obtain ⟨op, reply⟩ := c
  cases op with
  | removeIdleMediations cutoff limit =>
    have hrun : redis (.removeIdleMediations cutoff limit) (db.advance ms) = (reply, db') :=
      hhandled
    rw [redis_removeIdleMediations] at hrun
    rcases reply with error | removed
    · exact hremoves.elim
    split at hrun
    · exact nomatch (Prod.mk.inj hrun).1
    · exact run_removeMediations_lacks cutoff _ hrun (.inl hremoves)
  | _ => exact hremoves.elim

/-- Who is found is granted, or has something. -/
theorem found (hsound : db.OwnersListed) (hstep : RedisStep db c db') (hfinds : Finds m c) :
    (db.granted m).isSome ∨ ∃ b, db.Has b m := by
  obtain ⟨ms, hhandled⟩ := hstep
  obtain ⟨op, reply⟩ := c
  obtain ⟨rfl, -⟩ := hhandled.eq
  -- three methods find something of a mediation
  cases op with
  | hasMediation m' =>
    obtain ⟨rfl, hfound⟩ := hfinds
    exact .inl hfound
  | mediationOf r => exact .inr ⟨.recipient, List.ne_nil_of_mem (hsound r m hfinds)⟩
  | devices m' =>
    obtain ⟨rfl, hfound⟩ := hfinds
    refine .inr ⟨.device, ?_⟩
    by_contra hnone
    refine hfound ?_
    simp only [Has, not_exists, not_not] at hnone
    change ([Service.fcm, Service.apns].filterMap fun s => (db.devices m' s).map
      fun d => (s, d)) = []
    simp [hnone]
  | _ => exact hfinds.elim

end Db

/-- `RedisStore`. -/
def estateStore : EstateStore Db where
  toQueueStore := queueStore
  Granted m db := (db.granted m).isSome
  Has := Db.Has
  Sound := Db.OwnersListed
  sound := by
    rintro db db' c h ⟨ms, hhandled⟩
    obtain ⟨-, rfl⟩ := hhandled.eq
    have hadvance : (db.advance ms).OwnersListed := h
    exact Db.keeps_method (fun request _ => Db.keeps_ownersListed request) hadvance
  queued hid hnone := by
    simp only [queueStore, Db.queuedIn, hnone, List.map_nil] at hid
    exact absurd hid List.not_mem_nil
  granted := by
    rintro db db' m now ⟨ms, hhandled⟩
    obtain ⟨-, rfl⟩ := hhandled.eq
    change (Function.update (db.advance ms).granted m _ m).isSome
    simp
  kept := Db.kept
  cleared := Db.cleared
  gained := Db.gained
  found := Db.found

end Store.Redis
