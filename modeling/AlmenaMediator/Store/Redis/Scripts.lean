import AlmenaMediator.Store.Redis.Db

/-!
# The Lua scripts of the Redis store

The scripts of `store/redis.rs`, each run by the server without interruption, and the commands and
transactions it sends next to them.
-/

namespace Store.Redis

/-! ## Mediations and recipients -/

/-- The transaction of `grant_mediation`: `SET NX` and `ZADD`. -/
def grant (mediation : String) (now : ℕ) : Script Db Unit :=
  Script.write fun db =>
    { db with
      granted := Function.update db.granted mediation
        (some ((db.granted mediation).getD now))
      seen := zadd now mediation db.seen }

/-- `TOUCH`. -/
def touch (mediation : String) (now : ℕ) : Script Db Unit := do
  let granted ← Script.read fun db => db.granted mediation
  if granted.isSome then Script.write fun db => { db with seen := zadd now mediation db.seen }
  else pure ()

/-- `ADD_RECIPIENT`. -/
def addRecipient (mediation recipient : String) (max : ℕ) : Script Db String := do
  let owner ← Script.read fun db => db.owner recipient
  if owner = some mediation then return "mine"
  if owner.isSome then return "taken"
  let set ← Script.read fun db => db.recipients mediation
  if max ≤ set.length then return "limit"
  Script.write fun db => { db with owner := Function.update db.owner recipient (some mediation) }
  Script.write fun db =>
    { db with
      recipients := Function.update db.recipients mediation
        (if recipient ∈ set then set else set ++ [recipient]) }
  return "added"

/-- `REMOVE_RECIPIENT`. -/
def removeRecipient (mediation recipient : String) : Script Db String := do
  let owner ← Script.read fun db => db.owner recipient
  if owner = none then return "none"
  if owner ≠ some mediation then return "theirs"
  Script.write fun db => { db with owner := Function.update db.owner recipient none }
  Script.write fun db =>
    { db with
      recipients := Function.update db.recipients mediation
        ((db.recipients mediation).erase recipient) }
  return "removed"

/-- What ADD_RECIPIENT answers, and what it writes where it adds: the owner of the DID and the set
of the mediation. -/
theorem exec_addRecipient (mediation recipient : String) (max : ℕ) (db : Db) :
    (addRecipient mediation recipient max).exec db =
      if db.owner recipient = some mediation then (.ok "mine", db)
      else if (db.owner recipient).isSome then (.ok "taken", db)
      else if max ≤ (db.recipients mediation).length then (.ok "limit", db)
      else (.ok "added",
        { db with
          owner := Function.update db.owner recipient (some mediation)
          recipients := Function.update db.recipients mediation
            (if recipient ∈ db.recipients mediation then db.recipients mediation
             else db.recipients mediation ++ [recipient]) }) := by
  simp only [addRecipient, Script.exec_bind, Script.exec_read, Script.exec_write, Script.exec_ite,
    Script.exec_pure]

/-- What REMOVE_RECIPIENT answers, and what it writes where it removes: the owner of the DID and the
set of the mediation. -/
theorem exec_removeRecipient (mediation recipient : String) (db : Db) :
    (removeRecipient mediation recipient).exec db =
      if db.owner recipient = none then (.ok "none", db)
      else if db.owner recipient ≠ some mediation then (.ok "theirs", db)
      else (.ok "removed",
        { db with
          owner := Function.update db.owner recipient none
          recipients := Function.update db.recipients mediation
            ((db.recipients mediation).erase recipient) }) := by
  simp only [removeRecipient, Script.exec_bind, Script.exec_read, Script.exec_write,
    Script.exec_ite, Script.exec_pure]

/-! ## Queues -/

/-- Total size of stream entries, as `entry_size` reads them. -/
def sizes (entries : List Entry) : ℕ := (entries.map Entry.size).sum

/-- Takes `freed` bytes off the counter. -/
def uncount (mediation : String) (freed : ℕ) : Script Db Unit := do
  if 0 < freed then do
    let left ← incrBytes mediation (-freed)
    if left < 0 then zeroBytes mediation else pure ()
  else pure ()

/-- Trims expired entries while taking their bytes off the counter. -/
def trim (mediation : String) (minId : StreamId) : Script Db Unit := do
  let expired ← xrangeBefore mediation minId
  xtrim mediation minId
  uncount mediation (sizes expired)

/-- The end of `ENQUEUE`, once the message is known to fit. -/
def addEntry (mediation recipient : String) (size : ℕ) (body : String) (ttl : ℕ) :
    Script Db String := do
  let id ← xadd mediation recipient size
  setBody mediation id.text body ttl
  let _ ← incrBytes mediation size
  expireQueue mediation ttl
  expireBytes mediation ttl
  return id.text

/-- `ENQUEUE`. -/
def enqueue (mediation : String) (minId : StreamId) (maxMessages maxBytes : ℕ) (recipient : String)
    (size : ℕ) (body : String) (ttl : ℕ) : Script Db (Option String) := do
  trim mediation minId
  let length ← Script.read fun db => (db.entries mediation).length
  if maxMessages ≤ length then return none
  let used ← Script.read fun db => db.counter mediation
  if (maxBytes : ℤ) < used + size then return none
  let id ← addEntry mediation recipient size body ttl
  return some id

/-- The loop of `REMOVE`: how many entries went and how many bytes they free. -/
def removeLoop (mediation : String) : List String → ℕ → ℕ → Script Db (ℕ × ℕ)
  | [], removed, freed => pure (removed, freed)
  | id :: ids, removed, freed => do
    match ← xrangeId mediation id with
    | some entry =>
      let gone ← xdel mediation entry.id
      delBody mediation id
      removeLoop mediation ids (removed + gone) (freed + entry.size)
    | none =>
      delBody mediation id
      removeLoop mediation ids removed freed

/-- `REMOVE`. -/
def remove (mediation : String) (ids : List String) : Script Db ℕ := do
  let (removed, freed) ← removeLoop mediation ids 0 0
  uncount mediation freed
  return removed

/-! ## Idle mediations -/

/-- Takes a recipient DID from the mediation, if it owns it. -/
def disown (mediation recipient : String) : Script Db Unit := do
  let owner ← Script.read fun db => db.owner recipient
  if owner = some mediation then
    Script.write fun db => { db with owner := Function.update db.owner recipient none }
  else pure ()

/-- `DEL` of all the mediation's keys, and `ZREM`. -/
def delMediation (mediation : String) : Script Db Unit :=
  Script.write fun db =>
    { db with
      granted := Function.update db.granted mediation none
      recipients := Function.update db.recipients mediation []
      queue := Function.update db.queue mediation none
      bytes := Function.update db.bytes mediation none
      devices := Function.update db.devices mediation fun _ => none
      pushSent := Function.update db.pushSent mediation none
      seen := zrem mediation db.seen }

/-- `REMOVE_MEDIATION`: checks again that the mediation is idle, then deletes all it owns. -/
def removeMediation (mediation : String) (cutoff : ℕ) : Script Db ℕ := do
  let seen ← Script.read fun db => zscore mediation db.seen
  if seen.any fun s => cutoff < s then return 0
  let recipients ← Script.read fun db => db.recipients mediation
  recipients.forM (disown mediation)
  let entries ← Script.read fun db => db.entries mediation
  entries.forM fun e => delBody mediation e.id.text
  delMediation mediation
  return 1

/-- Disowning a recipient deletes the owner of the DID only where it is this mediation. -/
theorem exec_disown (mediation recipient : String) (db : Db) :
    (disown mediation recipient).exec db = (.ok (),
      { db with
        owner := if db.owner recipient = some mediation then
          Function.update db.owner recipient none else db.owner }) := by
  simp only [disown, Script.exec_bind, Script.exec_read, Script.exec_write, Script.exec_ite,
    Script.exec_pure]
  split <;> rfl

/-- Disowning a list of recipients deletes the owners among them that are this mediation. -/
theorem exec_forM_disown (mediation : String) (recipients : List String) (db : Db) :
    (recipients.forM (disown mediation)).exec db = (.ok (),
      { db with
        owner := fun r =>
          if r ∈ recipients ∧ db.owner r = some mediation then none else db.owner r }) := by
  induction recipients generalizing db with
  | nil => simp only [List.not_mem_nil, false_and, ↓reduceIte]; rfl
  | cons recipient rest ih =>
    rw [Script.exec_forM_cons, exec_disown]
    simp only [ih]
    congr 2
    funext r
    by_cases hr : r = recipient
    · subst hr
      by_cases hown : db.owner r = some mediation <;> simp [hown]
    · by_cases hown : db.owner recipient = some mediation <;> simp [hown, hr]

/-- The bodies of deleted keys are gone, the rest is as it was. -/
theorem exec_forM_delBody (mediation : String) (entries : List Entry) (db : Db) :
    (entries.forM fun e => delBody mediation e.id.text).exec db =
      (.ok (), { db with
        body := Function.update db.body mediation fun id =>
          if id ∈ entries.map fun e => e.id.text then none else db.body mediation id }) := by
  induction entries generalizing db with
  | nil =>
    have hsame : (fun id => if id ∈ ([] : List Entry).map fun e => e.id.text then none
        else db.body mediation id) = db.body mediation := by simp
    rw [hsame, Function.update_eq_self]
    rfl
  | cons e rest ih =>
    -- the first body is deleted, and the rest by induction
    have hfirst : (delBody mediation e.id.text).exec db = (.ok (), { db with
        body := Function.update db.body mediation
          (Function.update (db.body mediation) e.id.text none) }) := rfl
    rw [Script.exec_forM_cons, hfirst]
    dsimp only
    rw [ih]
    simp only [Function.update_idem, Function.update_self]
    congr 3
    funext id
    by_cases hid : id = e.id.text
    · subst hid
      simp
    · simp [hid]

/-- A mediation that is still idle goes with all its keys. -/
theorem exec_removeMediation_eq (mediation : String) (cutoff : ℕ) (db : Db) :
    (removeMediation mediation cutoff).exec db =
      if (zscore mediation db.seen).any fun s => cutoff < s then (.ok 0, db)
      else (.ok 1, { db with
        granted := Function.update db.granted mediation none
        seen := zrem mediation db.seen
        recipients := Function.update db.recipients mediation []
        owner := fun r => if r ∈ db.recipients mediation ∧ db.owner r = some mediation then none
          else db.owner r
        queue := Function.update db.queue mediation none
        body := Function.update db.body mediation fun id =>
          if id ∈ (db.entries mediation).map fun e => e.id.text then none else db.body mediation id
        bytes := Function.update db.bytes mediation none
        devices := Function.update db.devices mediation fun _ => none
        pushSent := Function.update db.pushSent mediation none }) := by
  simp only [removeMediation, Script.exec_bind, Script.exec_read, Script.exec_ite,
    Script.exec_pure, exec_forM_disown, delMediation, exec_forM_delBody, Script.exec_write]
  rfl

/-- Either the mediation was seen after the cutoff, or it goes. -/
theorem exec_removeMediation (mediation : String) (cutoff : ℕ) (db : Db) :
    ((zscore mediation db.seen).any (fun s => cutoff < s) ∧
      (removeMediation mediation cutoff).exec db = (.ok 0, db)) ∨
    ((zscore mediation db.seen).all (fun s => s ≤ cutoff) ∧
      ∃ body, (removeMediation mediation cutoff).exec db = (.ok 1,
        { db with
          granted := Function.update db.granted mediation none
          seen := zrem mediation db.seen
          recipients := Function.update db.recipients mediation []
          owner := fun r => if r ∈ db.recipients mediation ∧ db.owner r = some mediation then none
            else db.owner r
          queue := Function.update db.queue mediation none
          body := Function.update db.body mediation body
          bytes := Function.update db.bytes mediation none
          devices := Function.update db.devices mediation fun _ => none
          pushSent := Function.update db.pushSent mediation none })) := by
  rw [exec_removeMediation_eq]
  by_cases hidle : (zscore mediation db.seen).any fun s => cutoff < s
  · exact .inl ⟨hidle, by rw [if_pos hidle]⟩
  · refine .inr ⟨?_, _, by rw [if_neg hidle]⟩
    cases hscore : zscore mediation db.seen <;> simp_all

/-! ## Relays -/

/-- `SCHEDULE_RELAY`. -/
def scheduleRelay (relay : PendingRelay) (due maxPending : ℕ) : Script Db ℕ := do
  let items ← Script.read Db.relayItems
  if !(items.any fun e => e.1 == relay.id) && maxPending ≤ items.length then return 0
  Script.write fun db =>
    { db with relayItems := (relay.id, relay) :: db.relayItems.filter fun e => e.1 != relay.id }
  Script.write fun db => { db with relayDue := zadd due relay.id db.relayDue }
  return 1

/-- The loop of `DUE_RELAYS`: leases each id that has an item and collects it, forgets the
others. -/
def leaseLoop (leaseEnd : ℕ) : List String → Script Db (List PendingRelay)
  | [] => pure []
  | id :: ids => do
    let item ← Script.read fun db => db.relayItems.find? fun e => e.1 == id
    match item with
    | some (_, relay) =>
      Script.write fun db => { db with relayDue := zadd leaseEnd id db.relayDue }
      let relays ← leaseLoop leaseEnd ids
      return relay :: relays
    | none =>
      Script.write fun db => { db with relayDue := zrem id db.relayDue }
      leaseLoop leaseEnd ids

/-- `DUE_RELAYS`. -/
def dueRelays (now leaseEnd limit : ℕ) : Script Db (List PendingRelay) := do
  let ids ← zrangeLimit Db.relayDue now limit
  leaseLoop leaseEnd ids

/-- The transaction of `finish_relay`: `ZREM` and `HDEL`. -/
def finishRelay (id : String) : Script Db Unit :=
  Script.write fun db =>
    { db with relayDue := zrem id db.relayDue
              relayItems := db.relayItems.filter fun e => e.1 != id }

/-! ## Rate limits and push -/

/-- The transaction of `hit`: `INCR` and `EXPIRE`. An `EXPIRE` that fails leaves the counter. -/
def hit (key : String) (window windowSecs : ℕ) : Script Db ℕ := do
  let counter ← Script.read fun db => (db.rate key window).getD { value := 0, deadline := none }
  let setRate (v : Volatile ℕ) : Script Db Unit := Script.write fun db =>
    { db with rate := Function.update db.rate key (Function.update (db.rate key) window (some v)) }
  setRate { counter with value := counter.value + 1 }
  let deadline ← deadlineIn windowSecs
  setRate { value := counter.value + 1, deadline := some deadline }
  return counter.value + 1

/-- `HSET` and `HDEL` of a device. -/
def setDevice (mediation : String) (service : Service) (device : Option Device) : Script Db Unit :=
  Script.write fun db =>
    { db with
      devices := Function.update db.devices mediation
        (Function.update (db.devices mediation) service device) }

/-- `REMOVE_DEVICE`. -/
def removeDevice (mediation : String) (service : Service) (token : String) : Script Db Unit := do
  let device ← Script.read fun db => db.devices mediation service
  if device.any fun d => d.token == token then setDevice mediation service none else pure ()

/-- `SET push-sent now NX EX hold`: whether it was set. -/
def claimPush (mediation : String) (now hold : ℕ) : Script Db Bool := do
  let deadline ← deadlineIn hold
  let marker ← Script.read fun db => db.pushSent mediation
  if marker.isSome then return false
  Script.write fun db =>
    { db with
      pushSent := Function.update db.pushSent mediation
        (some { value := now, deadline := some deadline }) }
  return true

/-- The answer of `TTL` in seconds, rounded; none for a key without one. -/
def ttlSecs (clock : ℕ) (marker : Volatile ℕ) : Option ℕ :=
  marker.deadline.map fun d => (d - clock + 500) / 1000

/-- `RELEASE_PUSH`. -/
def releasePush (mediation : String) (now minInterval : ℕ) : Script Db Unit := do
  let marker ← Script.read fun db => db.pushSent mediation
  match marker with
  | none => pure ()
  | some marker =>
    if marker.value + minInterval ≤ now then
      Script.write fun db => { db with pushSent := Function.update db.pushSent mediation none }
    else do
      let left := marker.value + minInterval - now
      let clock ← Script.read Db.clock
      if (ttlSecs clock marker).all fun ttl => left < ttl then do
        let deadline ← deadlineIn left
        Script.write fun db =>
          { db with
            pushSent := Function.update db.pushSent mediation
              (some { marker with deadline := some deadline }) }
      else pure ()

/-! ## What scripts can change

A script keeps what is kept by any write to the keys it may write. -/

section Frames

open Script

variable {inv : Db → Prop}

/-- Computing a deadline writes nothing. -/
theorem keeps_deadlineIn (ttl : ℕ) : Keeps inv (deadlineIn ttl) :=
  keeps_bind (keeps_read _) fun _ => keeps_ite (keeps_abort _) (keeps_pure _)

/-- ZRANGE with a limit writes nothing. -/
theorem keeps_zrangeLimit (set : Db → ZSet) (max limit : ℕ) :
    Keeps inv (zrangeLimit set max limit) :=
  keeps_ite (keeps_abort _) (keeps_read _)

/-- TOUCH keeps whatever writing the times of the last contact keeps. -/
theorem keeps_touch {mediation : String} {now : ℕ}
    (hseen : ∀ db, inv db → inv { db with seen := zadd now mediation db.seen }) :
    Keeps inv (touch mediation now) :=
  keeps_bind (keeps_read _) fun _ => keeps_ite (keeps_write fun _ h => hseen _ h) (keeps_pure _)

/-- ADD_RECIPIENT keeps whatever writing the owners and the sets of recipients keeps. -/
theorem keeps_addRecipient (howner : ∀ db owner, inv db → inv { db with owner := owner })
    (hrecipients : ∀ db recipients, inv db → inv { db with recipients := recipients })
    (mediation recipient : String) (max : ℕ) :
      Keeps inv (addRecipient mediation recipient max) := by
  refine keeps_bind (keeps_read _) fun _ => keeps_ite (keeps_pure _) (keeps_ite (keeps_pure _)
    (keeps_bind (keeps_read _) fun _ => keeps_ite (keeps_pure _) ?_))
  exact keeps_bind (keeps_write fun _ h => howner _ _ h) fun _ =>
    keeps_bind (keeps_write fun _ h => hrecipients _ _ h) fun _ => keeps_pure _

/-- REMOVE_RECIPIENT keeps whatever writing the owners and the sets of recipients keeps. -/
theorem keeps_removeRecipient (howner : ∀ db owner, inv db → inv { db with owner := owner })
    (hrecipients : ∀ db recipients, inv db → inv { db with recipients := recipients })
    (mediation recipient : String) : Keeps inv (removeRecipient mediation recipient) := by
  refine keeps_bind (keeps_read _) fun _ => keeps_ite (keeps_pure _) (keeps_ite (keeps_pure _) ?_)
  exact keeps_bind (keeps_write fun _ h => howner _ _ h) fun _ =>
    keeps_bind (keeps_write fun _ h => hrecipients _ _ h) fun _ => keeps_pure _

section Queues

variable {mediation : String}
  (hkeep : ∀ db p, inv db → inv (db.keepEntries mediation p))
  (hqueue : ∀ db v, inv db → inv { db with queue := Function.update db.queue mediation v })
  (hbytes : ∀ db v, inv db → inv { db with bytes := Function.update db.bytes mediation v })
  (hbody : ∀ db v, inv db → inv { db with body := Function.update db.body mediation v })

include hbytes

/-- Adding to the byte counter keeps whatever writing the counter keeps. -/
theorem keeps_incrBytes (n : ℤ) : Keeps inv (incrBytes mediation n) :=
  keeps_bind (keeps_read _) fun _ => keeps_bind (keeps_write fun _ h => hbytes _ _ h) fun _ =>
    keeps_pure _

/-- Uncounting freed bytes keeps whatever writing the counter keeps. -/
theorem keeps_uncount (freed : ℕ) : Keeps inv (uncount mediation freed) :=
  keeps_ite
    (keeps_bind (keeps_incrBytes hbytes _) fun _ =>
      keeps_ite (keeps_write fun _ h => hbytes _ _ h) (keeps_pure _))
    (keeps_pure _)

include hkeep in
/-- TRIM keeps whatever writing the stream, the bodies and the counter of the mediation keeps. -/
theorem keeps_trim (minId : StreamId) : Keeps inv (trim mediation minId) :=
  keeps_bind (keeps_ite (keeps_abort _) (keeps_read _)) fun _ =>
    keeps_bind (keeps_write fun _ h => hkeep _ _ h) fun _ => keeps_uncount hbytes _

include hbody

include hqueue in
/-- Adding an entry keeps whatever writing the stream, the bodies and the counter of the mediation
keeps. -/
theorem keeps_addEntry (recipient : String) (size : ℕ) (body : String) (ttl : ℕ) :
    Keeps inv (addEntry mediation recipient size body ttl) := by
  refine keeps_bind ?_ fun id => keeps_bind ?_ fun _ =>
    keeps_bind (keeps_incrBytes hbytes _) fun _ => keeps_bind ?_ fun _ =>
    keeps_bind ?_ fun _ => keeps_pure _
  · exact keeps_bind (keeps_read _) fun _ => keeps_bind (keeps_read _) fun _ =>
      keeps_bind (keeps_write fun _ h => hqueue _ _ h) fun _ => keeps_pure _
  · exact keeps_bind (keeps_deadlineIn ttl) fun _ => keeps_write fun _ h => hbody _ _ h
  · exact keeps_bind (keeps_deadlineIn ttl) fun _ => keeps_write fun _ h => hqueue _ _ h
  · exact keeps_bind (keeps_deadlineIn ttl) fun _ => keeps_write fun _ h => hbytes _ _ h

include hqueue in
/-- ENQUEUE keeps whatever writing the stream, the bodies and the counter of the mediation keeps. -/
theorem keeps_enqueue (minId : StreamId) (maxMessages maxBytes : ℕ)
    (recipient : String) (size : ℕ) (body : String) (ttl : ℕ) :
    Keeps inv (enqueue mediation minId maxMessages maxBytes recipient size body ttl) :=
  keeps_bind (keeps_trim (fun _ _ h => hqueue _ _ h) hbytes minId) fun _ =>
    keeps_bind (keeps_read _) fun _ =>
    keeps_ite (keeps_pure _) (keeps_bind (keeps_read _) fun _ => keeps_ite (keeps_pure _)
      (keeps_bind (keeps_addEntry hqueue hbytes hbody recipient size body ttl) fun _ =>
        keeps_pure _))

include hkeep

omit hbytes in
/-- The loop of REMOVE keeps whatever writing the stream and the bodies of the mediation keeps, by
induction on the ids. -/
theorem keeps_removeLoop (ids : List String) (removed freed : ℕ) :
    Keeps inv (removeLoop mediation ids removed freed) := by
  induction ids generalizing removed freed with
  | nil => exact keeps_pure _
  | cons id rest ih =>
    refine keeps_bind ?_ fun entry => ?_
    · unfold xrangeId
      split
      · exact keeps_abort _
      · exact keeps_read _
    · cases entry with
      | none => exact keeps_bind (keeps_write fun _ h => hbody _ _ h) fun _ => ih _ _
      | some entry =>
        refine keeps_bind (keeps_bind (keeps_read _) fun _ =>
          keeps_bind (keeps_write fun _ h => hkeep _ _ h) fun _ => keeps_pure _) fun _ => ?_
        exact keeps_bind (keeps_write fun _ h => hbody _ _ h) fun _ => ih _ _

/-- REMOVE keeps whatever writing the stream, the bodies and the counter of the mediation keeps. -/
theorem keeps_remove (ids : List String) : Keeps inv (remove mediation ids) :=
  keeps_bind (keeps_removeLoop hkeep hbody ids _ _) fun _ =>
    keeps_bind (keeps_uncount hbytes _) fun _ => keeps_pure _

end Queues

/-- SCHEDULE_RELAY keeps whatever writing the payloads and the due times of the relays keeps. -/
theorem keeps_scheduleRelay
    (hitems : ∀ db relayItems, inv db → inv { db with relayItems := relayItems })
    (hdue : ∀ db relayDue, inv db → inv { db with relayDue := relayDue })
    (relay : PendingRelay) (due maxPending : ℕ) : Keeps inv (scheduleRelay relay due maxPending) :=
  keeps_bind (keeps_read _) fun _ => keeps_ite (keeps_pure _)
    (keeps_bind (keeps_write fun _ h => hitems _ _ h) fun _ =>
      keeps_bind (keeps_write fun _ h => hdue _ _ h) fun _ => keeps_pure _)

/-- The loop that leases relays keeps whatever writing their due times keeps. -/
theorem keeps_leaseLoop (hdue : ∀ db relayDue, inv db → inv { db with relayDue := relayDue })
    (leaseEnd : ℕ) (ids : List String) : Keeps inv (leaseLoop leaseEnd ids) := by
  induction ids with
  | nil => exact keeps_pure _
  | cons id rest ih =>
    refine keeps_bind (keeps_read _) fun item => ?_
    cases item with
    | none => exact keeps_bind (keeps_write fun _ h => hdue _ _ h) fun _ => ih
    | some item =>
      exact keeps_bind (keeps_write fun _ h => hdue _ _ h) fun _ => keeps_bind ih fun _ =>
        keeps_pure _

/-- DUE_RELAYS keeps whatever writing the due times of the relays keeps. -/
theorem keeps_dueRelays (hdue : ∀ db relayDue, inv db → inv { db with relayDue := relayDue })
    (now leaseEnd limit : ℕ) : Keeps inv (dueRelays now leaseEnd limit) :=
  keeps_bind (keeps_zrangeLimit _ _ _) fun _ => keeps_leaseLoop hdue _ _

/-- Counting a hit keeps whatever writing the hit counters keeps. -/
theorem keeps_hit (hrate : ∀ db rate, inv db → inv { db with rate := rate })
    (key : String) (window windowSecs : ℕ) : Keeps inv (hit key window windowSecs) :=
  keeps_bind (keeps_read _) fun _ => keeps_bind (keeps_write fun _ h => hrate _ _ h) fun _ =>
    keeps_bind (keeps_deadlineIn _) fun _ => keeps_bind (keeps_write fun _ h => hrate _ _ h)
    fun _ => keeps_pure _

/-- Removing a device keeps whatever writing the devices of the mediation keeps. -/
theorem keeps_removeDevice {mediation : String}
    (hdevices : ∀ db v, inv db → inv { db with devices := Function.update db.devices mediation v })
    (service : Service) (token : String) :
    Keeps inv (removeDevice mediation service token) :=
  keeps_bind (keeps_read _) fun _ =>
    keeps_ite (keeps_write fun _ h => hdevices _ _ h) (keeps_pure _)

/-- Claiming the push turn keeps whatever writing the push marker of the mediation keeps. -/
theorem keeps_claimPush {mediation : String}
    (hpush : ∀ db v, inv db → inv { db with pushSent := Function.update db.pushSent mediation v })
    (now hold : ℕ) : Keeps inv (claimPush mediation now hold) :=
  keeps_bind (keeps_deadlineIn _) fun _ => keeps_bind (keeps_read _) fun _ =>
    keeps_ite (keeps_pure _) (keeps_bind (keeps_write fun _ h => hpush _ _ h) fun _ => keeps_pure _)

/-- Releasing the push turn keeps whatever writing the push marker of the mediation keeps. -/
theorem keeps_releasePush {mediation : String}
    (hpush : ∀ db v, inv db → inv { db with pushSent := Function.update db.pushSent mediation v })
    (now minInterval : ℕ) :
    Keeps inv (releasePush mediation now minInterval) := by
  refine keeps_bind (keeps_read _) fun marker => ?_
  cases marker with
  | none => exact keeps_pure _
  | some marker =>
    exact keeps_ite (keeps_write fun _ h => hpush _ _ h) (keeps_bind (keeps_read _) fun _ =>
      keeps_ite (keeps_bind (keeps_deadlineIn _) fun _ => keeps_write fun _ h =>
        hpush _ _ h) (keeps_pure _))

end Frames

end Store.Redis
